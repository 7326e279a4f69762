/-
Guards that are released out of their turn.

A guard is to hold the flag set for as long as there is one, and when the last one is gone the
flag is to be what it was.  Each guard gives back the value that it found.  The first one found
the value from before, and every other one found the flag set, so this works as long as the
first one is the last to go: the flag then has `k` guards of which none but the oldest gives
back anything else than a set flag (`nested`), and a move leads from one such flag to another
(`move_nested`).

If the oldest guard is released before the others, the flag is cleared while they hold it, and
the others set it for good when they are released in their turn (`early_release_sticks`).  The
main theorem, `flag_is_held_iff_oldest_goes_last`, says that this is all that can go wrong, for
guards that are engaged and released in any order.  A flag that was set from the beginning has
nothing to lose.
-/
import Mathlib.Data.List.Infix
import QueryView.Surface.EchoGuard

namespace QueryView
namespace Surface

/-- What can be done to the guards of a flag. -/
inductive GuardMove where
  | engage
  /-- Releases the guard at a place, the oldest one being the first. -/
  | release (i : Nat)
  /-- Leaves a scope that engaged a guard by a panic. -/
  | unwind
  deriving DecidableEq

namespace GuardedFlag

/-- A flag that nobody holds. -/
def free (flag : Bool) : GuardedFlag := { flag }

def move (g : GuardedFlag) : GuardMove → GuardedFlag
  | .engage => g.engage
  | .release i => g.releaseAt i
  | .unwind => g.unwind

def moveAll (g : GuardedFlag) (moves : List GuardMove) : GuardedFlag := moves.foldl move g

/-- The flag is set while there are guards, and as it was at first while there are none. -/
structure Kept (initial : Bool) (g : GuardedFlag) : Prop where
  held : g.guards ≠ [] → g.flag = true
  free : g.guards = [] → g.flag = initial

/-- The move does not release the oldest guard before the others. -/
def SparesOldest (g : GuardedFlag) (m : GuardMove) : Prop :=
  m = .release 0 → g.guards.length ≤ 1

/-- A flag with as many guards as the number says, of which only the oldest found it as it was
at first. -/
def nested (initial : Bool) : Nat → GuardedFlag
  | 0 => free initial
  | k + 1 => ⟨true, initial :: List.replicate k true⟩

variable {initial : Bool} {k i : Nat} {m : GuardMove}

theorem moveAll_append_singleton (g : GuardedFlag) (moves : List GuardMove) (m : GuardMove) :
    g.moveAll (moves ++ [m]) = (g.moveAll moves).move m := by
  rw [moveAll, List.foldl_append, moveAll]
  rfl

/-! ## One move -/

theorem length_guards_nested : (nested initial k).guards.length = k := by
  cases k with
  | zero => rfl
  | succ k => rw [nested, List.length_cons, List.length_replicate]

theorem kept_nested (initial : Bool) (k : Nat) : (nested initial k).Kept initial := by
  cases k with
  | zero => exact ⟨fun h => absurd rfl h, fun _ => rfl⟩
  | succ k => exact ⟨fun _ => rfl, fun h => absurd h (List.cons_ne_nil _ _)⟩

theorem engage_nested : (nested initial k).engage = nested initial (k + 1) := by
  cases k with
  | zero => rfl
  | succ k => rw [nested, engage, nested, List.cons_append, ← List.replicate_succ']

/-- Whoever is not the oldest found the flag set, and leaves it set. -/
theorem releaseAt_nested (hi : i < k) : (nested initial (k + 1)).releaseAt (i + 1) =
    nested initial k := by
  obtain ⟨k, rfl⟩ := Nat.exists_eq_add_one_of_ne_zero (Nat.ne_of_gt (Nat.zero_lt_of_lt hi))
  have hfound : (nested initial (k + 1 + 1)).guards[i + 1]? = some true := by
    rw [nested, List.getElem?_cons_succ, List.getElem?_replicate, if_pos hi]
  rw [releaseAt, hfound]
  simp [nested, List.eraseIdx_replicate, hi]

theorem releaseAt_of_length_le {g : GuardedFlag} (h : g.guards.length ≤ i) : g.releaseAt i = g := by
  rw [releaseAt, List.getElem?_eq_none h]

theorem releaseAt_zero_nested :
    (nested initial (k + 1)).releaseAt 0 = ⟨initial, List.replicate k true⟩ := rfl

theorem unwind_nested : (nested initial k).unwind = nested initial k := by
  rw [unwind, engage_nested, release, length_guards_nested]
  cases k with
  | zero => rfl
  | succ k => exact releaseAt_nested (Nat.lt_succ_self k)

/-- A move that spares the oldest guard leads from one such flag to another, and every move does
if the flag was set at first. -/
theorem move_nested (h : initial = true ∨ (nested initial k).SparesOldest m) :
    ∃ k', (nested initial k).move m = nested initial k' := by
  cases m with
  | engage => exact ⟨k + 1, engage_nested⟩
  | unwind => exact ⟨k, unwind_nested⟩
  | release i =>
    show ∃ k', (nested initial k).releaseAt i = nested initial k'
    by_cases hi : k ≤ i
    · exact ⟨k, releaseAt_of_length_le (by rwa [length_guards_nested])⟩
    · obtain ⟨k, rfl⟩ := Nat.exists_eq_add_one_of_ne_zero (n := k) (by omega)
      refine ⟨k, ?_⟩
      cases i with
      | succ i => exact releaseAt_nested (by omega)
      | zero =>
        rw [releaseAt_zero_nested]
        -- What the oldest gives back is right if it is the last one, or if it is a set flag.
        rcases h with rfl | hspares
        · cases k <;> rfl
        · have hlast := hspares rfl
          rw [length_guards_nested] at hlast
          obtain rfl : k = 0 := by omega
          rfl

/-- The other moves clear a flag that is held. -/
theorem spares_of_kept (h : ((nested initial k).move m).Kept initial) :
    initial = true ∨ (nested initial k).SparesOldest m := by
  by_cases hset : initial = true
  · exact .inl hset
  · refine .inr fun hm => ?_
    subst hm
    rw [length_guards_nested]
    match k with
    | 0 | 1 => omega
    | k + 2 => exact absurd (h.held (List.cons_ne_nil _ _)) hset

/-! ## Runs -/

/-- As long as the flag is kept, it is one of those that nested guards hold. -/
theorem exists_nested_of_kept {moves : List GuardMove}
    (h : ∀ made, made <+: moves → ((free initial).moveAll made).Kept initial) :
    ∃ k, (free initial).moveAll moves = nested initial k := by
  induction moves using List.reverseRecOn with
  | nil => exact ⟨0, rfl⟩
  | append_singleton moves m ih =>
    obtain ⟨k, hk⟩ := ih fun made hmade => h made (hmade.trans (List.prefix_append _ _))
    have hkept := h _ (List.prefix_refl _)
    rw [moveAll_append_singleton, hk] at hkept ⊢
    exact move_nested (spares_of_kept hkept)

/-- If the oldest guard is always the last to go, guards are as good as nested. -/
theorem exists_nested_of_spares {moves : List GuardMove}
    (h : initial = true ∨ ∀ made m, made ++ [m] <+: moves →
      ((free initial).moveAll made).SparesOldest m) :
    ∃ k, (free initial).moveAll moves = nested initial k := by
  induction moves using List.reverseRecOn with
  | nil => exact ⟨0, rfl⟩
  | append_singleton moves m ih =>
    obtain ⟨k, hk⟩ := ih (h.imp_right fun h made m hmade =>
      h made m (hmade.trans (List.prefix_append _ _)))
    have hspares := h.imp_right fun h => h moves m (List.prefix_refl _)
    rw [hk] at hspares
    rw [moveAll_append_singleton, hk]
    exact move_nested hspares

/-- The flag is set and every guard found it set. -/
def Stuck (g : GuardedFlag) : Prop := g.flag = true ∧ ∀ found ∈ g.guards, found = true

theorem Stuck.engage {g : GuardedFlag} (h : g.Stuck) : g.engage.Stuck := by
  refine ⟨rfl, fun found hfound => ?_⟩
  rcases List.mem_append.mp hfound with hfound | hfound
  · exact h.2 found hfound
  · exact (List.mem_singleton.mp hfound).trans h.1

theorem Stuck.releaseAt {g : GuardedFlag} (h : g.Stuck) (i : Nat) : (g.releaseAt i).Stuck := by
  unfold GuardedFlag.releaseAt
  split
  · next found hfound =>
    exact ⟨h.2 found (List.mem_of_getElem? hfound), fun found' hmem =>
      h.2 found' (List.mem_of_mem_eraseIdx hmem)⟩
  · exact h

theorem Stuck.move {g : GuardedFlag} (h : g.Stuck) (m : GuardMove) : (g.move m).Stuck := by
  cases m with
  | engage => exact h.engage
  | release i => exact h.releaseAt i
  | unwind => exact h.engage.releaseAt _

theorem Stuck.moveAll {g : GuardedFlag} (h : g.Stuck) (moves : List GuardMove) :
    (g.moveAll moves).Stuck := by
  induction moves generalizing g with
  | nil => exact h
  | cons m moves ih => exact ih (h.move m)

/-- If the oldest guard is released before another one, and then another one is, the flag is set
whatever is done from then on. -/
theorem early_release_sticks (hi : i < k) (moves : List GuardMove) :
    ((nested initial (k + 1)).moveAll (.release 0 :: .release i :: moves)).flag = true := by
  have hfound : (List.replicate k true)[i]? = some true := by
    rw [List.getElem?_replicate, if_pos hi]
  have hstuck : (((nested initial (k + 1)).releaseAt 0).releaseAt i).Stuck := by
    rw [releaseAt_zero_nested, releaseAt, hfound]
    exact ⟨rfl, fun found hmem => List.eq_of_mem_replicate (List.mem_of_mem_eraseIdx hmem)⟩
  exact (hstuck.moveAll moves).1

/-- At every point of a run the flag is set while a guard is held and as it was at first while
none is, if and only if it was set at first or the oldest guard is never released before the
others. -/
theorem flag_is_held_iff_oldest_goes_last (initial : Bool) (moves : List GuardMove) :
    (∀ made, made <+: moves → ((free initial).moveAll made).Kept initial) ↔
      initial = true ∨ ∀ made m, made ++ [m] <+: moves →
        ((free initial).moveAll made).SparesOldest m := by
  constructor
  · intro h
    by_cases hset : initial = true
    · exact .inl hset
    · refine .inr fun made m hmade => ?_
      have hbefore := (List.prefix_append made [m]).trans hmade
      obtain ⟨k, hk⟩ := exists_nested_of_kept fun made' hmade' => h made' (hmade'.trans hbefore)
      have hkept := h _ hmade
      rw [moveAll_append_singleton, hk] at hkept
      rw [hk]
      exact (spares_of_kept hkept).resolve_left hset
  · intro h made hmade
    obtain ⟨k, hk⟩ := exists_nested_of_spares (h.imp_right fun h made' m hmade' =>
      h made' m (hmade'.trans hmade))
    rw [hk]
    exact kept_nested initial k

/-- The first of two guards is released before the second one: the flag is clear while the
second one holds it, and set when nobody does. -/
theorem flag_sticks_after_early_release :
    let held := (free false).moveAll [.engage, .engage, .release 0]
    let left := held.move (.release 0)
    held.guards ≠ [] ∧ held.flag = false ∧ left.guards = [] ∧ left.flag = true := by
  decide

end GuardedFlag
end Surface
end QueryView
