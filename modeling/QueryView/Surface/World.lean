/-
Surfaces, the notifier they share, and what has happened to them.

A surface lives as long as somebody holds it.  The embedder holds it by handles, which it
takes and gives back; an operation holds it while it runs, as a guest.  When the last of
both is gone the surface is destroyed and its subscription to themes with it.  Its number
stays used, and so does the hook of its editable layer, which the embedder may keep.

The notifier has the current theme and its observers in the order of subscription, each
under a number of its own.  It lives as long as the embedder or a surface holds it, or a
change of the theme is in progress.

A callback of an observer lives as long as the notifier lists the observer, or a change of
the theme goes on with it.  What it owns goes with it.  If the list of observers is borrowed
then, no observer can be taken off it, and whoever was to be taken off is `stranded`: it stays
on the list without a subscription.

The trace records what was asked of layers and callbacks, in order.
-/
import QueryView.Surface.Script

namespace QueryView
namespace Surface

structure Live (E R : Type) where
  state : State
  /-- The runs handed to the render layer last. -/
  runs : RunSequence
  editable : E
  rendered : R
  /-- A programmatic write is going on, and what the editable layer reports is its echo. -/
  suppressing : Bool
  observers : List (Text → Script E R)
  /-- The number under which the notifier knows the surface. -/
  subscription : Option Nat

/-- A place for a surface, alive or not. -/
structure Slot (E R : Type) where
  live : Option (Live E R)
  handles : Nat
  guests : Nat
  /-- What is connected to the change report of the editable layer. -/
  hook : Option (Handler E R)

inductive Watcher (E R : Type) where
  | surface (n : Nat)
  /-- An observer of the embedder, by the number of its subscription. -/
  | observer (i : Nat) (body : Theme → Script E R)

def Watcher.isObserver {E R : Type} (i : Nat) : Watcher E R → Bool
  | .surface _ => false
  | .observer j _ => i == j

structure Notifier (E R : Type) where
  theme : Theme
  observers : List (Nat × Watcher E R)
  nextId : Nat
  /-- The embedder holds a handle to it. -/
  held : Bool

/-- Something that was asked of a layer or a callback. -/
inductive Event where
  | editableLayout (n : Nat) (layout : Layout)
  | renderLayout (n : Nat) (layout : Layout)
  | rendered (n : Nat) (runs : RunSequence) (outcome : Rendering)
  | edited (n observer : Nat) (t : Text)
  | themed (subscription : Nat) (t : Theme)
  | note (words : Text)
  deriving DecidableEq

structure World (E R : Type) where
  slots : List (Slot E R)
  notifier : Notifier E R
  /-- The subscriptions of the embedder, by the numbers under which the notifier knows
  them; a subscription that was given back has none. -/
  subscriptions : List (Option Nat)
  /-- What callbacks of observers own, each with the number of its owner's subscription. -/
  belongings : List (Nat × Belonging) := []
  /-- The watchers that each change of the theme in progress goes on with, the innermost
  change first. -/
  rounds : List (List (Nat × Watcher E R)) := []
  /-- The numbers of the observers that are stranded. -/
  stranded : List Nat := []
  trace : List Event

inductive Abort where
  | panicked (reason : Text)
  /-- The run is not followed any further: its operations were nested more deeply than it
  allows, or one panic met another, which ends the process. -/
  | tooDeep
  deriving DecidableEq

namespace World

variable {E R : Type}

/-- A world without surfaces, with a notifier that the embedder holds. -/
def initial (theme : Theme) : World E R where
  slots := []
  notifier := { theme, observers := [], nextId := 1, held := true }
  subscriptions := []
  trace := []

/-! ## Looking -/

/-- The surface with a number, if it is alive. -/
def live? (w : World E R) (n : Nat) : Option (Live E R) := (w.slots[n]?).bind Slot.live

def handles (w : World E R) (n : Nat) : Nat := ((w.slots[n]?).map Slot.handles).getD 0

/-- What is connected to the change report of a surface's editable layer. -/
def hook? (w : World E R) (n : Nat) : Option (Handler E R) := (w.slots[n]?).bind Slot.hook

def notifierAlive (w : World E R) : Bool :=
  w.notifier.held || (w.slots.any fun slot => slot.live.isSome) || !w.rounds.isEmpty

/-- The number of a subscription of the embedder, if it is still there.  The notifier takes
its callbacks with it, and they what they own. -/
def held? (w : World E R) (i : Nat) : Option Nat :=
  if w.notifierAlive = false ∧ Belonging.subscription i ∈ w.belongings.map Prod.snd then none
  else (w.subscriptions[i]?).join

/-- The callback of an observer is not dropped. -/
def keeps (w : World E R) (i : Nat) : Bool :=
  (w.notifierAlive && w.notifier.observers.any fun o => o.2.isObserver i) ||
    w.rounds.any fun round => round.any fun o => o.2.isObserver i

/-- There is something that can be handed over to a callback. -/
def offers (w : World E R) : Belonging → Bool
  | .subscription i => (w.held? i).isSome
  | .handle n => decide ((w.belongings.filter fun b => b.2 == .handle n).length < w.handles n)

/-- What the callback of an observer owns. -/
def belongingsOf (w : World E R) (i : Nat) : List Belonging :=
  (w.belongings.filter fun b => b.1 == i).map Prod.snd

def view (s : Live E R) : View E R where
  state := s.state
  runs := s.runs
  editable := s.editable
  rendered := s.rendered
  suppressing := s.suppressing
  subscribed := s.subscription.isSome

def snapshot (w : World E R) : Snapshot E R where
  theme := w.notifier.theme
  surfaces := w.slots.map fun slot => slot.live.map view

/-! ## Changing -/

def record (e : Event) (w : World E R) : World E R := { w with trace := w.trace ++ [e] }

def changeSlot (n : Nat) (f : Slot E R → Slot E R) (w : World E R) : World E R :=
  { w with slots := w.slots.modify n f }

def changeLive (n : Nat) (f : Live E R → Live E R) : World E R → World E R :=
  changeSlot n fun slot => { slot with live := slot.live.map f }

def changeState (n : Nat) (f : State → State) : World E R → World E R :=
  changeLive n fun s => { s with state := f s.state }

def setSuppressing (n : Nat) (on : Bool) : World E R → World E R :=
  changeLive n fun s => { s with suppressing := on }

/-- Takes an observer off the list.  What its callback owns is not touched. -/
def forget (id : Nat) (w : World E R) : World E R :=
  { w with notifier :=
      { w.notifier with observers := w.notifier.observers.filter fun o => o.1 != id } }

def forget? (id : Option Nat) (w : World E R) : World E R :=
  match id with
  | some id => w.forget id
  | none => w

def unsubscribeSurface (n : Nat) (w : World E R) : World E R :=
  (w.forget? ((w.live? n).bind Live.subscription)).changeLive n
    fun s => { s with subscription := none }

/-- Somebody holds the surface. -/
def isHeld (n : Nat) (w : World E R) : Bool :=
  (w.slots[n]?).any fun slot => decide (slot.handles ≠ 0 ∨ slot.guests ≠ 0)

/-- Destroys a surface that nobody holds.  Its own callback owns nothing. -/
def collect (n : Nat) (w : World E R) : World E R :=
  match w.slots[n]? with
  | some slot =>
    if slot.handles = 0 ∧ slot.guests = 0 then
      (w.unsubscribeSurface n).changeSlot n fun slot => { slot with live := none }
    else w
  | none => w

/-- Holds a surface as a guest. -/
def enter (n : Nat) : World E R → World E R :=
  changeSlot n fun slot => { slot with guests := slot.guests + 1 }

def leave (n : Nat) (w : World E R) : World E R :=
  (w.changeSlot n fun slot => { slot with guests := slot.guests - 1 }).collect n

/-! ## Belongings -/

/-- Makes the callback of an observer the owner of something, whoever owned it before.  A
surface may have several handles, and each has an owner of its own. -/
def entrust (i : Nat) (belonging : Belonging) (w : World E R) : World E R :=
  { w with belongings :=
      (match belonging with
        | .subscription _ => w.belongings.filter fun b => b.2 != belonging
        | .handle _ => w.belongings) ++ [(i, belonging)] }

/-- Leaves the callback of an observer without belongings. -/
def strip (i : Nat) (w : World E R) : World E R :=
  { w with belongings := w.belongings.filter fun b => b.1 != i }

/-! ## Changes of the theme in progress -/

def beginRound (watchers : List (Nat × Watcher E R)) (w : World E R) : World E R :=
  { w with rounds := watchers :: w.rounds }

/-- Drops the first watcher from those that the innermost change goes on with. -/
def finishFirst (w : World E R) : World E R :=
  { w with rounds := w.rounds.modifyHead List.tail }

def endRound (w : World E R) : World E R := { w with rounds := w.rounds.tail }

end World

/-! ## Actions -/

/-- A step on a world.  It can be broken off, and what it did until then stays done. -/
abbrev Action (E R : Type) (α : Type) := ExceptT Abort (StateM (World E R)) α

namespace Action

variable {E R α : Type}

/-- A step, and after it a change of the world that is made however the step ends. -/
def andFinally (body : Action E R α) (last : World E R → World E R) : Action E R α :=
  fun w =>
    match body w with
    | (result, w') => (result, last w')

/-- A step whose panic is caught, and answered with its reason.  A step that is broken off
because it went too deep stays broken off. -/
def catching (body : Action E R α) : Action E R (Except Text α) :=
  fun w =>
    match body w with
    | (.ok x, w') => (.ok (.ok x), w')
    | (.error (.panicked reason), w') => (.ok (.error reason), w')
    | (.error .tooDeep, w') => (.error .tooDeep, w')

/-- A step during which a surface is held as a guest. -/
def holding (n : Nat) (body : Action E R α) : Action E R α := do
  modify (World.enter n)
  andFinally body (World.leave n)

/-- A step during which a surface takes reports of its editable layer for echoes.  The
flag then gets back the value that it had before. -/
def suppressing (n : Nat) (body : Action E R α) : Action E R α := do
  let before := ((← get).live? n).any Live.suppressing
  modify (World.setSuppressing n true)
  andFinally body (World.setSuppressing n before)

end Action
end Surface
end QueryView
