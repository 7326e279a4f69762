/-
Actions in twin worlds.

An action over one kind of render layer is parallel to an action over another kind if in twin
worlds the two end alike and leave twin worlds.  The rules below follow the ways in which
actions are put together.  Whether their values are related as well is a matter of the values:
two replies may be the same but for a failure, and for most others it is enough that there are
two.
-/
import QueryView.Proofs.Surface.Alike
import QueryView.Proofs.Surface.Twin

namespace QueryView
namespace Surface

variable {E R₁ R₂ : Type} [RenderLayer R₁] [RenderLayer R₂] {like : R₁ → R₂ → Prop}

namespace Action

variable {α β γ δ : Type}

/-- Two actions that ended, both with values that are related or both broken off alike. -/
inductive EndAlike (V : α → β → Prop) : Except Abort α → Except Abort β → Prop where
  | ended {x y} (h : V x y) : EndAlike V (.ok x) (.ok y)
  | broken (e) : EndAlike V (.error e) (.error e)

theorem EndAlike.imp {U V : α → β → Prop} {end₁ : Except Abort α} {end₂ : Except Abort β}
    (h : EndAlike V end₁ end₂) (himp : ∀ x y, end₁ = .ok x → end₂ = .ok y → U x y) :
    EndAlike U end₁ end₂ := by
  cases h with
  | ended h => exact .ended (himp _ _ rfl rfl)
  | broken e => exact .broken e

theorem EndAlike.unwound {U : Unit → Unit → Prop} {V : α → β → Prop} {end₁ end₂ : Except Abort Unit}
    (h : EndAlike U end₁ end₂) (e : Abort) :
    EndAlike V (Action.unwound e end₁) (Action.unwound e end₂) := by
  cases h <;> exact .broken _

/-- In these worlds the two actions end alike and leave twin worlds. -/
def ParallelAt (like : R₁ → R₂ → Prop) (V : α → β → Prop) (a : Action E R₁ α) (b : Action E R₂ β)
    (w₁ : World E R₁) (w₂ : World E R₂) : Prop :=
  EndAlike V (a w₁).1 (b w₂).1 ∧ World.Twin like (a w₁).2 (b w₂).2

def Parallel (like : R₁ → R₂ → Prop) (V : α → β → Prop) (a : Action E R₁ α)
    (b : Action E R₂ β) : Prop :=
  ∀ w₁ w₂, World.Twin like w₁ w₂ → ParallelAt like V a b w₁ w₂

/-- The values do not matter. -/
abbrev Whatever (α β : Type) : α → β → Prop := fun _ _ => True

theorem parallel_pure {V : α → β → Prop} {x : α} {y : β} (h : V x y) :
    Parallel like V (pure x : Action E R₁ α) (pure y) := fun _ _ hw => ⟨.ended h, hw⟩

theorem parallel_throw {V : α → β → Prop} (e : Abort) :
    Parallel like V (throw e : Action E R₁ α) (throw e) := fun _ _ hw => ⟨.broken e, hw⟩

theorem parallel_get :
    Parallel like (World.Twin like) (get : Action E R₁ (World E R₁))
      (get : Action E R₂ (World E R₂)) := fun _ _ hw => ⟨.ended hw, hw⟩

theorem parallel_modify {f₁ : World E R₁ → World E R₁} {f₂ : World E R₂ → World E R₂}
    (h : ∀ w₁ w₂, World.Twin like w₁ w₂ → World.Twin like (f₁ w₁) (f₂ w₂)) :
    Parallel like (Whatever PUnit PUnit) (modify f₁) (modify f₂) :=
  fun w₁ w₂ hw => ⟨.ended trivial, h w₁ w₂ hw⟩

theorem parallelAt_bind {U : α → β → Prop} {V : γ → δ → Prop} {a : Action E R₁ α}
    {b : Action E R₂ β} {f : α → Action E R₁ γ} {g : β → Action E R₂ δ} {w₁ : World E R₁}
    {w₂ : World E R₂}
    (h : ParallelAt like U a b w₁ w₂) (hf : ∀ x y, U x y → Parallel like V (f x) (g y)) :
    ParallelAt like V (a >>= f) (b >>= g) w₁ w₂ := by
  obtain ⟨hend, hworld⟩ := h
  unfold ParallelAt
  rw [bind_apply, bind_apply]
  rcases ha : a w₁ with ⟨end₁, w₁'⟩
  rcases hb : b w₂ with ⟨end₂, w₂'⟩
  rw [ha, hb] at hend hworld
  cases hend with
  | ended hxy => exact hf _ _ hxy w₁' w₂' hworld
  | broken e => exact ⟨.broken e, hworld⟩

theorem parallel_bind {U : α → β → Prop} {V : γ → δ → Prop} {a : Action E R₁ α}
    {b : Action E R₂ β} {f : α → Action E R₁ γ} {g : β → Action E R₂ δ}
    (h : Parallel like U a b)
    (hf : ∀ x y, U x y → Parallel like V (f x) (g y)) : Parallel like V (a >>= f) (b >>= g) :=
  fun w₁ w₂ hw => parallelAt_bind (h w₁ w₂ hw) hf

theorem parallel_ite {V : α → β → Prop} {c₁ c₂ : Prop} [Decidable c₁] [Decidable c₂]
    {a a' : Action E R₁ α} {b b' : Action E R₂ β} (hc : c₁ ↔ c₂) (h : Parallel like V a b)
    (h' : Parallel like V a' b') :
    Parallel like V (if c₁ then a else a') (if c₂ then b else b') := by
  by_cases hc₁ : c₁
  · rw [if_pos hc₁, if_pos (hc.mp hc₁)]
    exact h
  · rw [if_neg hc₁, if_neg (mt hc.mpr hc₁)]
    exact h'

theorem parallel_forM {U : α → β → Prop} {xs : List α} {ys : List β} (hxs : List.Forall₂ U xs ys)
    {f : α → Action E R₁ PUnit} {g : β → Action E R₂ PUnit}
    (h : ∀ x y, U x y → Parallel like (Whatever PUnit PUnit) (f x) (g y)) :
    Parallel like (Whatever PUnit PUnit) (xs.forM f) (ys.forM g) := by
  induction hxs with
  | nil => exact parallel_pure trivial
  | cons hxy _ ih => exact parallel_bind (h _ _ hxy) fun _ _ _ => ih

theorem parallelAt_andFinally {V : α → β → Prop} {a : Action E R₁ α} {b : Action E R₂ β}
    {last₁ : World E R₁ → World E R₁} {last₂ : World E R₂ → World E R₂} {w₁ : World E R₁}
    {w₂ : World E R₂} (h : ParallelAt like V a b w₁ w₂)
    (hlast : ∀ w₁ w₂, World.Twin like w₁ w₂ → World.Twin like (last₁ w₁) (last₂ w₂)) :
    ParallelAt like V (andFinally a last₁) (andFinally b last₂) w₁ w₂ := ⟨h.1, hlast _ _ h.2⟩

/-- What is dropped after a panic is dropped alike, since parallel actions panic alike. -/
theorem parallel_unwinding {V : α → β → Prop} {a : Action E R₁ α} {b : Action E R₂ β}
    {cleanup₁ : Action E R₁ Unit} {cleanup₂ : Action E R₂ Unit} (h : Parallel like V a b)
    (hcleanup : Parallel like (Whatever Unit Unit) cleanup₁ cleanup₂) :
    Parallel like V (unwinding a cleanup₁) (unwinding b cleanup₂) := by
  intro w₁ w₂ hw
  obtain ⟨hend, hworld⟩ := h w₁ w₂ hw
  unfold ParallelAt
  rcases ha : a w₁ with ⟨end₁, w₁'⟩
  rcases hb : b w₂ with ⟨end₂, w₂'⟩
  rw [ha, hb] at hend hworld
  cases hend with
  | ended hxy =>
    rw [unwinding_of_ok ha, unwinding_of_ok hb]
    exact ⟨.ended hxy, hworld⟩
  | broken e =>
    rw [unwinding_of_error ha, unwinding_of_error hb]
    obtain ⟨hlast, hworld'⟩ := hcleanup w₁' w₂' hworld
    exact ⟨hlast.unwound e, hworld'⟩

theorem parallel_dropEach {U : α → β → Prop} {xs : List α} {ys : List β}
    (hxs : List.Forall₂ U xs ys) {f : α → Action E R₁ Unit} {g : β → Action E R₂ Unit}
    (h : ∀ x y, U x y → Parallel like (Whatever Unit Unit) (f x) (g y)) :
    Parallel like (Whatever Unit Unit) (dropEach f xs) (dropEach g ys) := by
  induction hxs with
  | nil => exact parallel_pure trivial
  | cons hxy _ ih => exact parallel_bind (parallel_unwinding (h _ _ hxy) ih) fun _ _ _ => ih

/-- Panics are caught alike, since parallel actions panic alike. -/
theorem parallel_catching {a : Action E R₁ Reply} {b : Action E R₂ Reply}
    (h : Parallel like (fun x y => x.regardless = y.regardless) a b) :
    Parallel like (fun x y => x.map Reply.regardless = y.map Reply.regardless)
      (catching a) (catching b) := by
  intro w₁ w₂ hw
  obtain ⟨hend, hworld⟩ := h w₁ w₂ hw
  unfold ParallelAt catching
  rcases ha : a w₁ with ⟨end₁, w₁'⟩
  rcases hb : b w₂ with ⟨end₂, w₂'⟩
  rw [ha, hb] at hend hworld
  cases hend with
  | ended hxy => exact ⟨.ended (congrArg Except.ok hxy), hworld⟩
  | broken e =>
    cases e with
    | panicked reason => exact ⟨.ended rfl, hworld⟩
    | tooDeep => exact ⟨.broken .tooDeep, hworld⟩

theorem parallelAt_holding {V : α → β → Prop} {n : Nat} {a : Action E R₁ α} {b : Action E R₂ β}
    {w₁ : World E R₁} {w₂ : World E R₂} (h : ParallelAt like V a b (w₁.enter n) (w₂.enter n)) :
    ParallelAt like V (holding n a) (holding n b) w₁ w₂ :=
  parallelAt_andFinally h fun _ _ hw => hw.leave n

theorem parallel_holding {V : α → β → Prop} {n : Nat} {a : Action E R₁ α} {b : Action E R₂ β}
    (h : Parallel like V a b) : Parallel like V (holding n a) (holding n b) :=
  fun _ _ hw => parallelAt_holding (h _ _ (hw.enter n))

theorem parallel_suppressing {V : α → β → Prop} {n : Nat} {a : Action E R₁ α} {b : Action E R₂ β}
    (h : Parallel like V a b) : Parallel like V (suppressing n a) (suppressing n b) := by
  intro _ _ hw
  have hbefore := hw.any_live? n fun _ _ hs => hs.suppressing
  obtain ⟨hend, hworld⟩ := h _ _ (hw.setSuppressing (n := n) true)
  refine ⟨hend, ?_⟩
  show World.Twin like ((a _).2.setSuppressing n _) ((b _).2.setSuppressing n _)
  rw [hbefore]
  exact hworld.setSuppressing _

end Action
end Surface
end QueryView
