/-
What callbacks own, and what becomes of it.

The callback of an observer of themes drops what it owns when it is dropped itself, and that
happens on two occasions.  If its subscription is given back while no change of the theme goes
on with it, it is dropped in the middle of taking the observer off the list.  The list is
borrowed then.  Whatever the callback owns that has to take another observer off the list
panics (with a text that is up to the standard library, `World.alreadyBorrowed`), and that
observer is stranded.  If a change of the theme does go on with it, the
callback is dropped when the change has no more use for it, and nothing is borrowed.

A callback drops one belonging after the other.  After a panic it goes on with the rest, but
not after a second one.
-/
import QueryView.Surface.World

namespace QueryView
namespace Surface

variable {E R : Type}

namespace Action

variable {α : Type}

/-- A step, and a second one if the first is broken off.  If the second one is broken off, too,
the run ends with it. -/
def unwinding (body : Action E R α) (cleanup : Action E R Unit) : Action E R α :=
  fun w =>
    match body w with
    | (.ok x, w') => (.ok x, w')
    | (.error e, w') =>
      match cleanup w' with
      | (.ok _, w'') => (.error e, w'')
      | (.error _, w'') => (.error .tooDeep, w'')

/-- Drops one thing after the other, also after one that panicked. -/
def dropEach (drop : α → Action E R Unit) : List α → Action E R Unit
  | [] => pure ()
  | x :: xs => do
    unwinding (drop x) (dropEach drop xs)
    dropEach drop xs

end Action

namespace World

/-! ## While the list of observers is borrowed -/

/-- The reason of a panic about the list of observers. -/
def alreadyBorrowed : Text := "already borrowed: BorrowMutError".toList

/-- Gives a handle to a surface back. -/
def dropHandle (n : Nat) : World E R → World E R :=
  changeSlot n fun slot => { slot with handles := slot.handles - 1 }

/-- Drops a subscription whose observer stays on the list. -/
def strand (i id : Nat) (w : World E R) : World E R :=
  { w with subscriptions := w.subscriptions.set i none, stranded := w.stranded ++ [id] }

/-- Destroys a surface whose observer stays on the list. -/
def strandSurface (n : Nat) (w : World E R) : World E R :=
  { w with stranded := w.stranded ++ ((w.live? n).bind Live.subscription).toList }.changeSlot n
    fun slot => { slot with live := none }

/-- Drops something that a callback owned while the list of observers is borrowed. -/
def dropBorrowed : Belonging → Action E R Unit
  | .subscription i => do
    match (← get).held? i with
    | none => return
    | some id =>
      modify (strand i id)
      throw (.panicked alreadyBorrowed)
  | .handle n => do
    if (← get).handles n = 0 then return
    modify (dropHandle n)
    let w ← get
    if w.isHeld n then return
    modify (strandSurface n)
    if ((w.live? n).bind Live.subscription).isSome then throw (.panicked alreadyBorrowed)

/-! ## The end of a callback -/

/-- Drops what the callback of an observer owns, unless the callback is still of use. -/
def retire (drop : Belonging → Action E R Unit) (i : Nat) : Action E R Unit := do
  let w ← get
  if w.keeps i then return
  modify (strip i)
  Action.dropEach drop (w.belongingsOf i)

/-- Takes the observer of a subscription off the list. -/
def unsubscribe (i id : Nat) (w : World E R) : World E R :=
  { w.forget id with subscriptions := w.subscriptions.set i none }

/-- Gives a subscription back.  Its callback is dropped while the notifier is at its list. -/
def giveBack (i id : Nat) : Action E R Unit := do
  modify (unsubscribe i id)
  if (← get).notifierAlive then retire dropBorrowed i

/-- Drops something that a callback owned. -/
def dropOwned : Belonging → Action E R Unit
  | .subscription i => do
    match (← get).held? i with
    | none => return
    | some id => giveBack i id
  | .handle n => do
    if (← get).handles n = 0 then return
    Action.holding n do modify (dropHandle n)

/-! ## Changes of the theme in progress -/

/-- The innermost change of the theme has no more use for the first watcher that it goes on
with. -/
def letGo (x : Nat × Watcher E R) : Action E R Unit := do
  modify finishFirst
  match x.2 with
  | .surface _ => return
  | .observer i _ => retire dropOwned i

def callInTurn (call : Nat × Watcher E R → Action E R Unit)
    (watchers : List (Nat × Watcher E R)) : Action E R Unit :=
  watchers.forM fun x => do
    call x
    letGo x

/-- Calls one watcher after the other, and holds each of them until it has been called or a
call panics. -/
def round (call : Nat × Watcher E R → Action E R Unit) (watchers : List (Nat × Watcher E R)) :
    Action E R Unit := do
  modify (beginRound watchers)
  Action.andFinally
    (Action.unwinding (callInTurn call watchers) do
      Action.dropEach letGo ((← get).rounds.headD []))
    endRound

end World
end Surface
end QueryView
