/-
Guards that hold a flag set while a programmatic write is going on.

A guard remembers the value that the flag had when the guard was engaged, and gives it
back when it is released.  Guards are released in any order, not only in the order in
which they would nest, and a scope that is left by a panic releases its guard too.
-/
import QueryView.Text.Basic

namespace QueryView
namespace Surface

/-- A flag and the guards that hold it, each by the value it gives back, oldest first. -/
structure GuardedFlag where
  flag : Bool
  guards : List Bool := []
  deriving DecidableEq

namespace GuardedFlag

/-- Engages one more guard. -/
def engage (g : GuardedFlag) : GuardedFlag where
  flag := true
  guards := g.guards ++ [g.flag]

/-- Releases the guard at a place, if there is one there. -/
def releaseAt (g : GuardedFlag) (i : Nat) : GuardedFlag :=
  match g.guards[i]? with
  | some previous => { flag := previous, guards := g.guards.eraseIdx i }
  | none => g

/-- Releases the newest guard. -/
def release (g : GuardedFlag) : GuardedFlag := g.releaseAt (g.guards.length - 1)

/-- Engages a guard in a scope that is left by a panic. -/
def unwind (g : GuardedFlag) : GuardedFlag := g.engage.release

end GuardedFlag
end Surface
end QueryView
