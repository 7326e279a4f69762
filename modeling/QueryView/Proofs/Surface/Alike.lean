/-
Actions that cannot be told apart in the worlds of an invariant.

`Alike P a b` says that two actions do the same in every world in which `P` holds, and that
they leave a world in which `P` holds again.  With one action on both sides it says that the
action keeps `P`.  With two it says more: what they differ in is never reached from a world
in which `P` holds.
-/
import QueryView.Surface.Ownership

namespace QueryView
namespace Surface
namespace Action

variable {E R α β : Type} {P : World E R → Prop}

/-! ## What an action does in a world -/

@[simp] theorem pure_apply (x : α) (w : World E R) :
    (pure x : Action E R α) w = (.ok x, w) := rfl

@[simp] theorem modify_apply (f : World E R → World E R) (w : World E R) :
    (modify f : Action E R PUnit) w = (.ok ⟨⟩, f w) := rfl

@[simp] theorem get_apply (w : World E R) : (get : Action E R (World E R)) w = (.ok w, w) := rfl

/-- The second of two actions runs only if the first has an answer. -/
@[simp] theorem bind_apply (a : Action E R α) (f : α → Action E R β) (w : World E R) :
    (a >>= f) w = match a w with
      | (.ok x, w') => f x w'
      | (.error e, w') => (.error e, w') := by
  simp only [bind, ExceptT.bind, ExceptT.mk, StateT.bind]
  rcases a w with ⟨_ | _, _⟩ <;> rfl

/-- Looking at the world hands it on as it is. -/
theorem get_bind_apply (f : World E R → Action E R β) (w : World E R) :
    (get >>= f) w = f w w := by simp

/-- What is made of the answer of an action does not touch the world. -/
theorem return_apply (a : Action E R α) (f : α → β) (w : World E R) :
    (do return f (← a) : Action E R β) w = ((a w).1.map f, (a w).2) := by
  rw [bind_apply]
  rcases a w with ⟨_ | _, _⟩ <;> rfl

theorem unwinding_of_ok {a : Action E R α} {w w' : World E R} {x : α} (h : a w = (.ok x, w'))
    (cleanup : Action E R Unit) : unwinding a cleanup w = (.ok x, w') := by
  rw [unwinding, h]

/-- What a cleanup comes to after a panic. -/
def unwound (e : Abort) : Except Abort Unit → Except Abort α
  | .ok _ => .error e
  | .error _ => .error .tooDeep

theorem unwinding_of_error {a : Action E R α} {w w' : World E R} {e : Abort}
    (h : a w = (.error e, w')) (cleanup : Action E R Unit) :
    unwinding a cleanup w = (unwound e (cleanup w').1, (cleanup w').2) := by
  rw [unwinding, h]
  rcases hcleanup : cleanup w' with ⟨_ | _, w''⟩ <;> simp only [hcleanup, unwound]

/-! ## Likeness -/

/-- The two actions do the same in this world, and leave one in which `P` holds. -/
def AlikeAt (P : World E R → Prop) (a b : Action E R α) (w : World E R) : Prop :=
  a w = b w ∧ P (a w).2

/-- The two actions do the same wherever `P` holds, and keep it. -/
def Alike (P : World E R → Prop) (a b : Action E R α) : Prop := ∀ w, P w → AlikeAt P a b w

end Action
end Surface
end QueryView
