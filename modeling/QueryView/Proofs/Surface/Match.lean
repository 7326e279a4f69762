/-
Actions that do the same in the worlds of an invariant.

`Matches lenient P a b` says that wherever one of the properties `P` holds, `a` does the same
as `b`, and the property holds after it.  With one action on both sides it says that the
action keeps the properties.  With two it says more: what they differ in is never reached
from a world of the kind.  The properties come as a family.  An action that calls another in
the middle of a loop needs it to keep what the loop has achieved so far, and that changes
from round to round.

A run may be broken off because operations nest too deeply, and to be lenient is to claim
nothing of it then.  An action may be written so that it counts as broken off whenever
something did not go as it should, and then whoever it is compared with has to do the same
only if nothing of the kind happens.

The rules below follow the ways in which actions are put together, so that all of this is
proved of an action in one pass over its text.
-/
import QueryView.Proofs.Surface.Alike

namespace QueryView
namespace Surface
namespace Action

variable {lenient : Prop} {ι : Type} {E R α β : Type} {P : ι → World E R → Prop}

/-! ## Matching -/

/-- In this world the first action does what the second does, and of the properties that hold
none is lost.  If we are lenient, this is asked only if the second is not broken off. -/
def MatchesAt (lenient : Prop) (P : ι → World E R → Prop) (a b : Action E R α)
    (w : World E R) : Prop :=
  ∀ i, P i w → (lenient → (b w).1 ≠ .error .tooDeep) → a w = b w ∧ P i (b w).2

def Matches (lenient : Prop) (P : ι → World E R → Prop) (a b : Action E R α) : Prop :=
  ∀ w, MatchesAt lenient P a b w

/-- Actions that cannot be told apart are those that match where nothing is excused. -/
theorem alike_iff_matches {P : World E R → Prop} {a b : Action E R α} :
    Alike P a b ↔ Matches False (fun _ : Unit => P) a b := by
  constructor
  · intro h w _ hw _
    obtain ⟨hsame, hP⟩ := h w hw
    exact ⟨hsame, hsame ▸ hP⟩
  · intro h w hw
    obtain ⟨hsame, hP⟩ := h w () hw False.elim
    exact ⟨hsame, hsame ▸ hP⟩

theorem matches_pure (x : α) : Matches lenient P (pure x) (pure x) := fun _ _ hw _ => ⟨rfl, hw⟩

theorem matches_throw (e : Abort) : Matches lenient P (throw e : Action E R α) (throw e) :=
  fun _ _ hw _ => ⟨rfl, hw⟩

theorem matches_modify {f : World E R → World E R} (h : ∀ i w, P i w → P i (f w)) :
    Matches lenient P (modify f : Action E R PUnit) (modify f) := fun w i hw _ => ⟨rfl, h i w hw⟩

theorem matches_self {a : Action E R α} (h : ∀ i w, P i w → P i (a w).2) : Matches lenient P a a :=
  fun w i hw _ => ⟨rfl, h i w hw⟩

/-- What matches for all properties matches for those of a kind. -/
theorem matches_reindex {κ : Type} (f : κ → ι) {a b : Action E R α} (h : Matches lenient P a b) :
    Matches lenient (fun k => P (f k)) a b := fun w k => h w (f k)

/-- What has an answer had one at each of its two steps. -/
theorem exists_of_bind_ok {a : Action E R α} {f : α → Action E R β} {w w' : World E R} {y : β}
    (h : (a >>= f) w = (.ok y, w')) : ∃ x w₁, a w = (.ok x, w₁) ∧ f x w₁ = (.ok y, w') := by
  rw [bind_apply] at h
  rcases ha : a w with ⟨_ | x, w₁⟩
  · rw [ha] at h
    cases h
  · rw [ha] at h
    exact ⟨x, w₁, rfl, h⟩

theorem eq_ok_of_toOption {result : Except Abort α} {x : α} (h : result.toOption = some x) :
    result = .ok x := by
  cases result with
  | error e => cases h
  | ok y => exact congrArg Except.ok (Option.some.inj h)

theorem ne_tooDeep_of_isOk {result : Except Abort α} (h : result.isOk = true) :
    result ≠ .error .tooDeep := by
  rintro rfl
  cases h

theorem ne_tooDeep_of_bind {b : Action E R α} {g : α → Action E R β} {w : World E R}
    (h : ((b >>= g) w).1 ≠ .error .tooDeep) : (b w).1 ≠ .error .tooDeep := by
  intro hdeep
  apply h
  rw [bind_apply]
  rcases hb : b w with ⟨result, w'⟩
  rw [hb] at hdeep
  cases hdeep
  rfl

theorem matches_bind {a b : Action E R α} {f g : α → Action E R β} (h : Matches lenient P a b)
    (hf : ∀ x, Matches lenient P (f x) (g x)) : Matches lenient P (a >>= f) (b >>= g) := by
  intro w i hw hends
  obtain ⟨he, hP⟩ := h w i hw fun hlenient => ne_tooDeep_of_bind (hends hlenient)
  rw [bind_apply] at hends
  rw [bind_apply, bind_apply, he]
  rcases hb : b w with ⟨_ | x, w'⟩ <;> rw [hb] at hends hP
  · exact ⟨rfl, hP⟩
  · exact hf x w' i hP hends

/-- After a look at the world, the rest has to match in that world only. -/
theorem matches_get_bind {f g : World E R → Action E R β}
    (h : ∀ w, MatchesAt lenient P (f w) (g w) w) : Matches lenient P (get >>= f) (get >>= g) := by
  intro w
  unfold MatchesAt
  rw [get_bind_apply, get_bind_apply]
  exact h w

/-- What follows a change of the world has to match in the world that was changed only. -/
theorem matchesAt_modify_bind {f : World E R → World E R} {a b : Action E R β} {w : World E R}
    (hf : ∀ i, P i w → P i (f w)) (h : MatchesAt lenient P a b (f w)) :
    MatchesAt lenient P ((modify f : Action E R PUnit) >>= fun _ => a) (modify f >>= fun _ => b)
      w :=
  fun i hw hends => h i (hf i hw) hends

theorem matches_ite {c : Prop} [Decidable c] {a b a' b' : Action E R α}
    (h : Matches lenient P a a') (h' : Matches lenient P b b') :
    Matches lenient P (if c then a else b) (if c then a' else b') := by
  split
  · exact h
  · exact h'

theorem matches_forM {xs : List β} {f g : β → Action E R PUnit}
    (h : ∀ x ∈ xs, Matches lenient P (f x) (g x)) : Matches lenient P (xs.forM f) (xs.forM g) := by
  induction xs with
  | nil => exact matches_pure _
  | cons x xs ih =>
    exact matches_bind (h x (by simp)) fun _ => ih fun y hy => h y (by simp [hy])

theorem matches_andFinally {a b : Action E R α} {last : World E R → World E R}
    (h : Matches lenient P a b) (hl : ∀ i w, P i w → P i (last w)) :
    Matches lenient P (andFinally a last) (andFinally b last) := by
  intro w i hw hends
  obtain ⟨he, hP⟩ := h w i hw hends
  have ha : andFinally a last w = andFinally b last w := by simp only [andFinally, he]
  exact ⟨ha, hl i _ hP⟩

theorem matches_unwinding {a b : Action E R α} {cleanup cleanup' : Action E R Unit}
    (h : Matches lenient P a b) (hcleanup : Matches lenient P cleanup cleanup') :
    Matches lenient P (unwinding a cleanup) (unwinding b cleanup') := by
  intro w i hw hends
  rcases hb : b w with ⟨e | x, w'⟩
  · rw [unwinding_of_error hb] at hends ⊢
    have hbody : lenient → (b w).1 ≠ .error .tooDeep := by
      intro hlenient hdeep
      apply hends hlenient
      rw [hb] at hdeep
      cases hdeep
      cases (cleanup' w').1 <;> rfl
    obtain ⟨he, hP⟩ := h w i hw hbody
    rw [hb] at he hP
    have hlast : lenient → (cleanup' w').1 ≠ .error .tooDeep := by
      intro hlenient hdeep
      apply hends hlenient
      rw [hdeep]
      rfl
    obtain ⟨he', hP'⟩ := hcleanup w' i hP hlast
    rw [unwinding_of_error he, he']
    exact ⟨rfl, hP'⟩
  · obtain ⟨he, hP⟩ := h w i hw fun _ => by rw [hb]; nofun
    rw [hb] at he hP
    rw [unwinding_of_ok hb, unwinding_of_ok he]
    exact ⟨rfl, hP⟩

theorem matches_dropEach {xs : List β} {f g : β → Action E R Unit}
    (h : ∀ x, Matches lenient P (f x) (g x)) :
    Matches lenient P (dropEach f xs) (dropEach g xs) := by
  induction xs with
  | nil => exact matches_pure _
  | cons x xs ih => exact matches_bind (matches_unwinding (h x) ih) fun _ => ih

theorem matches_catching {a b : Action E R α} (h : Matches lenient P a b) :
    Matches lenient P (catching a) (catching b) := by
  intro w i hw hends
  have hb : lenient → (b w).1 ≠ .error .tooDeep := by
    intro hlenient hdeep
    apply hends hlenient
    rcases hb : b w with ⟨result, w'⟩
    rw [hb] at hdeep
    cases hdeep
    rw [catching, hb]
  obtain ⟨he, hP⟩ := h w i hw hb
  have ha : catching a w = catching b w := by simp only [catching, he]
  refine ⟨ha, ?_⟩
  unfold catching
  rcases hb : b w with ⟨(_ | _) | _, w'⟩ <;> rw [hb] at hP <;> exact hP

theorem matches_holding {n : Nat} {a b : Action E R α} (h : Matches lenient P a b)
    (henter : ∀ i w, P i w → P i (w.enter n)) (hleave : ∀ i w, P i w → P i (w.leave n)) :
    Matches lenient P (holding n a) (holding n b) :=
  matches_bind (matches_modify henter) fun _ => matches_andFinally h hleave

theorem matches_suppressing {n : Nat} {a b : Action E R α} (h : Matches lenient P a b)
    (hset : ∀ i w on, P i w → P i (w.setSuppressing n on)) :
    Matches lenient P (suppressing n a) (suppressing n b) :=
  matches_get_bind fun w => matches_bind (matches_modify fun i w => hset i w true)
    (fun _ => matches_andFinally h fun i w' => hset i w' _) w

/-! ## Actions that may not be broken off -/

/-- An action whose being broken off nobody can catch. -/
def unbroken (body : Action E R α) : Action E R α :=
  fun w =>
    match body w with
    | (.ok x, w') => (.ok x, w')
    | (.error _, w') => (.error .tooDeep, w')

theorem exists_of_unbroken {a : Action E R α} {w : World E R}
    (h : (unbroken a w).1 ≠ .error .tooDeep) :
    ∃ x w', a w = (.ok x, w') ∧ unbroken a w = (.ok x, w') := by
  unfold unbroken at h ⊢
  rcases ha : a w with ⟨_ | x, w'⟩
  · rw [ha] at h
    exact absurd rfl h
  · exact ⟨x, w', rfl, rfl⟩

/-- Asking that an action is not broken off asks more of whoever is compared with it. -/
theorem matches_unbroken {a b : Action E R α} (h : Matches True P a b) :
    Matches True P a (unbroken b) := by
  intro w i hw hends
  obtain ⟨x, w', hb, hunbroken⟩ := exists_of_unbroken (hends trivial)
  have hdone : True → (b w).1 ≠ .error .tooDeep := by
    rw [hb]
    nofun
  rw [hunbroken, ← hb]
  exact h w i hw hdone

theorem matches_unbroken_unbroken {a b : Action E R α} (h : Matches True P a b) :
    Matches True P (unbroken a) (unbroken b) := by
  intro w i hw hends
  obtain ⟨x, w', hb, hunbroken⟩ := exists_of_unbroken (hends trivial)
  obtain ⟨hsame, hP⟩ := matches_unbroken h w i hw hends
  rw [hunbroken] at hsame
  refine ⟨?_, hP⟩
  rw [hunbroken, unbroken, hsame]

/-! ## Worlds that are looked at

Somebody who looks at the worlds of a run can do something to them.  To say that a world is one of
those, nothing has to be known of how the run is watched. -/

/-- The world is looked at, for this reason: somebody who does something in this world only, and
for this reason only, makes a difference to what is watched. -/
def LookedAt {κ : Type} (watched : (κ → World E R → World E R) → Action E R α)
    (plain : Action E R α) (start : World E R) (k : κ) (w : World E R) : Prop :=
  ∃ watch : κ → World E R → World E R,
    (∀ j w', (j, w') ≠ (k, w) → watch j w' = w') ∧ watched watch start ≠ plain start

/-- If nobody makes a difference who does something only where a property does not hold, the
property holds of every world that is looked at. -/
theorem LookedAt.holds {κ : Type} {Q : κ → World E R → Prop}
    {watched : (κ → World E R → World E R) → Action E R α} {plain : Action E R α}
    {start w : World E R} {k : κ} (h : LookedAt watched plain start k w)
    (hidle : ∀ watch : κ → World E R → World E R, (∀ j w, Q j w → watch j w = w) →
      watched watch start = plain start) : Q k w := by
  obtain ⟨watch, honly, hdiffers⟩ := h
  refine Classical.byContradiction fun hnot => hdiffers (hidle watch fun j w' hw' => honly j w' ?_)
  rintro ⟨⟩
  exact hnot hw'

end Action

/-! ## Rounds -/

namespace World

open Surface.Action

variable {E R : Type} {call : Nat × Watcher E R → Action E R Unit}
  {watchers : List (Nat × Watcher E R)} {w w' : World E R}

theorem callInTurn_cons (x : Nat × Watcher E R) :
    callInTurn call (x :: watchers) =
      (call x >>= fun _ => letGo x) >>= fun _ => callInTurn call watchers := rfl

theorem round_of_ok (h : callInTurn call watchers (w.beginRound watchers) = (.ok ⟨⟩, w')) :
    round call watchers w = (.ok ⟨⟩, w'.endRound) := by
  simp only [round, bind_apply, modify_apply, andFinally]
  rw [unwinding_of_ok h]

/-- In a round that comes to its end everybody is called and let go. -/
theorem exists_of_round_ok (h : round call watchers w = (.ok ⟨⟩, w')) :
    ∃ w₁, callInTurn call watchers (w.beginRound watchers) = (.ok ⟨⟩, w₁) ∧ w' = w₁.endRound := by
  rcases hbody : callInTurn call watchers (w.beginRound watchers) with ⟨e | ⟨⟩, w₁⟩
  · simp only [round, bind_apply, modify_apply, andFinally] at h
    rw [unwinding_of_error hbody] at h
    obtain ⟨hended, -⟩ := Prod.mk.inj h
    revert hended
    generalize Prod.fst _ = result
    cases result <;> nofun
  · rw [round_of_ok hbody] at h
    exact ⟨w₁, rfl, (Prod.mk.inj h).2.symm⟩

end World
end Surface
end QueryView
