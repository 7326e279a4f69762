/-
What operations on surfaces do.

Callbacks perform operations in their turn, so the meaning of an operation refers to the
meaning of others.  `Operation.step` gives one operation its meaning in terms of a
meaning for those nested in it, and `Operation.run` ties the knot by a bound on how deep
operations nest.  A run that would go deeper is broken off with `Abort.tooDeep`.  So is a run
in which a second panic comes up while a first one is cleaned up after, and no other.

A surface is refreshed after every change of its state: the runs of the state are stored
and handed to the render layer.  A render layer that fails leaves the state as it is, and
the failure is the answer to the operation.  Inside an observer of themes or a handler of
change reports nobody is there to take the failure, so it ends there; a panic does not.

An editable layer is borrowed while it reports.  Asking for the same layer again in the middle
of one of its reports is a mistake, which ends in a panic.  The panic is not modelled: here the
layer is asked as if the report were over.
-/
import QueryView.Surface.Ownership

namespace QueryView
namespace Surface

variable {E R : Type} [EditableLayer E] [RenderLayer R]

abbrev Meaning (E R : Type) := Operation E R → Action E R Reply

namespace Script

/-- Runs the body of a callback, given the meaning of operations. -/
def run (meaning : Meaning E R) : Script E R → Action E R Unit
  | .done => pure ()
  | .panic reason => throw (.panicked reason)
  | .note words next => do
    modify (World.record (.note words))
    run meaning next
  | .look next => do run meaning (next (← get).snapshot)
  | .perform op next => do run meaning (next (← meaning op))
  | .attempt op next => do run meaning (next (← Action.catching (meaning op)))

end Script

namespace World

/-! ## Showing -/

/-- Hands the runs of a surface's state to its render layer. -/
def refresh (n : Nat) : Action E R (Except Failure Unit) := do
  match (← get).live? n with
  | none => return .ok ()
  | some s =>
    let runs := s.state.runs
    let (rendered, outcome) := RenderLayer.render s.rendered runs
    modify (changeLive n fun s => { s with runs, rendered })
    modify (record (.rendered n runs outcome))
    match outcome with
    | .shown => return .ok ()
    | .failed failure => return .error failure
    | .panicked reason => throw (.panicked reason)

def changeAndShow (n : Nat) (f : State → State) : Action E R (Except Failure Unit) := do
  modify (changeState n f)
  refresh n

/-- Gives both layers of a surface the layout of its state, and shows it. -/
def applyLayout (n : Nat) : Action E R (Except Failure Unit) := do
  match (← get).live? n with
  | none => return .ok ()
  | some s =>
    let layout := s.state.layout
    modify (changeLive n fun s =>
      { s with editable := EditableLayer.applyLayout s.editable layout })
    modify (record (.editableLayout n layout))
    modify (changeLive n fun s =>
      { s with rendered := RenderLayer.applyLayout s.rendered layout })
    modify (record (.renderLayout n layout))
    refresh n

def followTheme (n : Nat) : Action E R (Except Failure Unit) := do
  let theme := (← get).notifier.theme
  changeAndShow n fun s => { s with theme }

/-! ## Edits -/

/-- Tells the observers of a surface, as they are now, of an edit. -/
def notifyObservers (meaning : Meaning E R) (n : Nat) (t : Text) : Action E R Unit := do
  let observers := (((← get).live? n).map Live.observers).getD []
  observers.zipIdx.forM fun (body, i) => do
    modify (record (.edited n i t))
    (body t).run meaning

/-- Takes a text for an edit of a user, unless it is the echo of a programmatic write.
The observers are told whether or not the text could be shown. -/
def takeEdit (meaning : Meaning E R) (n : Nat) (t : Text) : Action E R (Except Failure Unit) := do
  if ((← get).live? n).any Live.suppressing then return .ok ()
  let shown ← changeAndShow n fun s => { s with text := t }
  notifyObservers meaning n t
  return shown

/-- Hands a change report to what is connected now to the hook of a surface's editable
layer. -/
def report (meaning : Meaning E R) (n : Nat) (t : Text) : Action E R Unit := do
  match (← get).hook? n with
  | none => return
  | some (.script body) => (body t).run meaning
  | some (.edits m) =>
    if ((← get).live? m).isSome then
      Action.holding m do
        let _ ← takeEdit meaning m t

def editLayer (meaning : Meaning E R) (n : Nat) (change : E → E × List Text) :
    Action E R Unit := do
  match (← get).live? n with
  | none => return
  | some s =>
    let (editable, reports) := change s.editable
    modify (changeLive n fun s => { s with editable })
    reports.forM (report meaning n)

/-- Replaces the text of a surface.  What the editable layer reports meanwhile is an
echo. -/
def setText (meaning : Meaning E R) (n : Nat) (t : Text) : Action E R (Except Failure Unit) := do
  Action.suppressing n (editLayer meaning n fun e => EditableLayer.write e t)
  changeAndShow n fun s => { s with text := t }

/-- Replaces the text of a surface as a user would: the editable layer is written first,
and what it holds afterwards is the edit.  A surface that is read-only ignores it. -/
def typeText (meaning : Meaning E R) (n : Nat) (t : Text) : Action E R (Except Failure Unit) := do
  if ((← get).live? n).any fun s => s.state.layout.readOnly then return .ok ()
  let typed ← Action.suppressing n do
    editLayer meaning n fun e => EditableLayer.write e t
    return ((← get).live? n).map fun s => EditableLayer.text s.editable
  match typed with
  | some typed => takeEdit meaning n typed
  | none => return .ok ()

/-! ## Operations -/

def replyOf : Except Failure Unit → Reply
  | .ok () => .done
  | .error failure => .failed failure

def answer (meaning : Meaning E R) (n : Nat) : Request E R → Action E R Reply
  | .setText t => return replyOf (← setText meaning n t)
  | .typeText t => return replyOf (← typeText meaning n t)
  | .edited t => return replyOf (← takeEdit meaning n t)
  | .setLanguage language => return replyOf (← changeAndShow n fun s => { s with language })
  | .setPlainTextColor plainTextColor =>
    return replyOf (← changeAndShow n fun s => { s with plainTextColor })
  | .followTheme => return replyOf (← followTheme n)
  | .changeLayout change => do
    modify (changeState n fun s => { s with layout := change.apply s.layout })
    return replyOf (← applyLayout n)
  | .observe body => do
    modify (changeLive n fun s => { s with observers := s.observers ++ [body] })
    return .done
  | .editLayer change => do
    editLayer meaning n change
    return .done
  | .renderLayer change => do
    match (← get).live? n with
    | none => return .nothing
    | some s =>
      let (rendered, result) := change s.rendered
      modify (changeLive n fun s => { s with rendered })
      return replyOf result
  | .connect handler => do
    modify (changeSlot n fun slot => { slot with hook := some handler })
    return .done
  | .dispose => do
    modify (unsubscribeSurface n)
    return .done
  | .clone => do
    modify (changeSlot n fun slot => { slot with handles := slot.handles + 1 })
    return .done
  | .drop => do
    modify (changeSlot n fun slot => { slot with handles := slot.handles - 1 })
    return .done

/-- Creates a surface, subscribes it to themes, and shows it.  If it cannot be shown it is
destroyed again. -/
def create (editable : E) (rendered : R) : Action E R Reply := do
  let w ← get
  let n := w.slots.length
  let id := w.notifier.nextId
  let live : Live E R :=
    { state := State.initial w.notifier.theme, runs := [], editable, rendered
      suppressing := false, observers := [], subscription := some id }
  modify fun w =>
    { w with
      slots := w.slots ++ [{ live := some live, handles := 0, guests := 0, hook := none }]
      notifier :=
        { w.notifier with
          observers := w.notifier.observers ++ [(id, .surface n)], nextId := id + 1 } }
  Action.holding n do
    match ← applyLayout n with
    | .ok () =>
      modify (changeSlot n fun slot => { slot with handles := 1 })
      return .created n
    | .error failure => return .failed failure

/-- Tells somebody of a new theme. -/
def tell (meaning : Meaning E R) (theme : Theme) : Watcher E R → Action E R Unit
  | .surface n => do
    if ((← get).live? n).isSome then
      Action.holding n do
        let _ ← followTheme n
  | .observer i body => do
    modify (record (.themed i theme))
    (body theme).run meaning

/-- Sets the theme and tells everybody who is subscribed at that moment, also those whose
subscription ends while the others are told.  The theme that is set already is no news. -/
def setTheme (meaning : Meaning E R) (theme : Theme) : Action E R Unit := do
  let notifier := (← get).notifier
  if notifier.theme = theme then return
  modify fun w => { w with notifier := { w.notifier with theme } }
  round (fun x => tell meaning theme x.2) notifier.observers

def subscribe (body : Theme → Script E R) (w : World E R) : World E R :=
  let id := w.notifier.nextId
  { w with
    subscriptions := w.subscriptions ++ [some id]
    notifier :=
      { w.notifier with
        observers := w.notifier.observers ++ [(id, .observer w.subscriptions.length body)]
        nextId := id + 1 } }

end World

namespace Operation

/-- The meaning of an operation, given that of the operations nested in it. -/
def step (meaning : Meaning E R) : Operation E R → Action E R Reply
  | .create editable rendered => do
    if (← get).notifier.held then World.create editable rendered else return .nothing
  | .on n request => do
    if (← get).handles n = 0 then return .nothing
    Action.holding n (World.answer meaning n request)
  | .report n t => do
    World.report meaning n t
    return .done
  | .disconnect n => do
    modify (World.changeSlot n fun slot => { slot with hook := none })
    return .done
  | .subscribe body => do
    if (← get).notifier.held then
      modify (World.subscribe body)
      return .done
    else return .nothing
  | .unsubscribe i => do
    match (← get).held? i with
    | some id =>
      World.giveBack i id
      return .done
    | none => return .nothing
  | .entrust i belonging => do
    let w ← get
    if w.keeps i ∧ w.offers belonging then
      modify (World.entrust i belonging)
      return .done
    else return .nothing
  | .setTheme theme => do
    if (← get).notifier.held then
      World.setTheme meaning theme
      return .done
    else return .nothing
  | .releaseNotifier => do
    modify fun w => { w with notifier := { w.notifier with held := false } }
    return .done

/-- The meaning of operations that nest at most `depth` deep. -/
def run : Nat → Meaning E R
  | 0 => fun _ => throw .tooDeep
  | depth + 1 => step (run depth)

end Operation
end Surface
end QueryView
