/-
The object that a list of members stands for.

`Members.merge` goes through the members once and keeps an object as it goes.  What comes
out can be told from the list as a whole: each key has the place where it occurs first
(`keys_merge`), and the value that it has where it occurs last (`mem_merge_iff`).
-/
import Mathlib.Data.List.Induction
import Mathlib.Data.List.Nodup
import QueryView.Json.Members

namespace QueryView
namespace Json
namespace Members

variable {α β : Type}

def keys (members : Members α) : List Text := members.map Prod.fst

/-- The last member with the key `k` has the value `a`. -/
def LastValue (members : Members α) (k : Text) (a : α) : Prop :=
  ∃ before after, members = before ++ (k, a) :: after ∧ k ∉ keys after

theorem mem_keys {k : Text} {a : α} {members : Members α} (h : (k, a) ∈ members) :
    k ∈ keys members := List.mem_map_of_mem (f := Prod.fst) h

@[simp] theorem keys_append (members others : Members α) :
    keys (members ++ others) = keys members ++ keys others := List.map_append

@[simp] theorem keys_mapValues (f : α → β) (members : Members α) :
    keys (mapValues f members) = keys members := by
  rw [keys, mapValues, List.map_map]
  rfl

theorem merge_append (members : Members α) (k : Text) (a : α) :
    merge (members ++ [(k, a)]) = set (merge members) k a := by
  rw [merge, List.foldl_append]
  rfl

/-! ## Keys -/

theorem eraseDups_append_singleton (ks : List Text) (k : Text) :
    (ks ++ [k]).eraseDups = if k ∈ ks.eraseDups then ks.eraseDups else ks.eraseDups ++ [k] := by
  rw [List.eraseDups_append]
  by_cases h : k ∈ ks
  · rw [if_pos (List.mem_eraseDups.mpr h)]
    simp [List.removeAll, h]
  · rw [if_neg (fun hk => h (List.mem_eraseDups.mp hk))]
    simp [List.removeAll, h, List.eraseDups_cons]

/-- Each key stands where it occurs first. -/
theorem keys_merge (members : Members α) : keys (merge members) = (keys members).eraseDups := by
  induction members using List.reverseRecOn with
  | nil => rfl
  | append_singleton members m ih =>
    obtain ⟨k, a⟩ := m
    rw [merge_append, keys_append]
    show (set (merge members) k a).map Prod.fst = (keys members ++ [k]).eraseDups
    rw [keys_set, eraseDups_append_singleton, ← ih]
    rfl

theorem nodup_keys_set {members : Members α} (h : (keys members).Nodup) (k : Text) (a : α) :
    (keys (set members k a)).Nodup := by
  rw [keys, keys_set]
  split
  · exact h
  · next hk => exact List.Nodup.append h (List.nodup_singleton k) (by simpa using hk)

theorem nodup_keys_merge (members : Members α) : (keys (merge members)).Nodup := by
  induction members using List.reverseRecOn with
  | nil => exact List.nodup_nil
  | append_singleton members m ih =>
    obtain ⟨k, a⟩ := m
    rw [merge_append]
    exact nodup_keys_set ih k a

theorem set_of_not_mem {members : Members α} {k : Text} (h : k ∉ keys members)
    (a : α) : set members k a = members ++ [(k, a)] := by
  induction members with
  | nil => rfl
  | cons m members ih =>
    obtain ⟨k₀, a₀⟩ := m
    have hne : k₀ ≠ k := by
      intro heq
      subst heq
      exact h List.mem_cons_self
    rw [set, if_neg hne, ih fun hk => h (List.mem_cons_of_mem _ hk), List.cons_append]

/-- Merging has nothing to do where no key is repeated. -/
theorem merge_of_nodup {members : Members α} (h : (keys members).Nodup) :
    merge members = members := by
  induction members using List.reverseRecOn with
  | nil => rfl
  | append_singleton members m ih =>
    obtain ⟨k, a⟩ := m
    rw [keys_append, List.nodup_append] at h
    obtain ⟨hnodup, -, hdisjoint⟩ := h
    rw [merge_append, ih hnodup]
    exact set_of_not_mem (fun hk => hdisjoint k hk k (by simp [keys]) rfl) a

/-! ## Values -/

/-- Setting a key gives it its value and leaves the others theirs. -/
theorem mem_set_iff {members : Members α} (h : (keys members).Nodup) {k k' : Text} {a a' : α} :
    (k', a') ∈ set members k a ↔ k' = k ∧ a' = a ∨ k' ≠ k ∧ (k', a') ∈ members := by
  induction members with
  | nil => simp [set]
  | cons m members ih =>
    obtain ⟨k₀, a₀⟩ := m
    obtain ⟨hk₀, hnodup⟩ := List.nodup_cons.mp h
    by_cases hk : k₀ = k
    · rw [set, if_pos hk, List.mem_cons, List.mem_cons]
      subst hk
      by_cases hk' : k' = k₀
      · have hout : (k', a') ∉ members := fun hm => hk₀ (hk' ▸ mem_keys hm)
        simp [hk', hk' ▸ hout]
      · simp [hk']
    · rw [set, if_neg hk, List.mem_cons, List.mem_cons, ih hnodup]
      by_cases hk' : k' = k
      · have hne : k ≠ k₀ := fun h => hk h.symm
        simp [hk', hne]
      · simp [hk']

theorem lastValue_append {members : Members α} {k k' : Text} {a a' : α} :
    LastValue (members ++ [(k, a)]) k' a' ↔
      k' = k ∧ a' = a ∨ k' ≠ k ∧ LastValue members k' a' := by
  constructor
  · intro hex
    obtain ⟨before, after, h, hafter⟩ := hex
    rcases List.eq_nil_or_concat after with rfl | ⟨after, m, rfl⟩
    · obtain ⟨-, hlast⟩ := List.append_inj' h rfl
      cases hlast
      exact .inl ⟨rfl, rfl⟩
    · rw [List.concat_eq_append] at h hafter
      rw [← List.cons_append, ← List.append_assoc] at h
      obtain ⟨hfront, hlast⟩ := List.append_inj' h rfl
      cases hlast
      rw [keys_append, List.mem_append, not_or] at hafter
      exact .inr ⟨fun hk => hafter.2 (by simp [keys, hk]), before, after, hfront, hafter.1⟩
  · intro hor
    rcases hor with ⟨rfl, rfl⟩ | ⟨hne, before, after, rfl, hafter⟩
    · exact ⟨members, [], rfl, by simp [keys]⟩
    · refine ⟨before, after ++ [(k, a)], by simp, ?_⟩
      rw [keys_append, List.mem_append]
      intro hor
      rcases hor with hk | hk
      · exact hafter hk
      · exact hne (by simpa [keys] using hk)

/-- Each key has the value of the last member with it. -/
theorem mem_merge_iff {members : Members α} {k : Text} {a : α} :
    (k, a) ∈ merge members ↔ LastValue members k a := by
  induction members using List.reverseRecOn with
  | nil => simp [merge, LastValue]
  | append_singleton members m ih =>
    obtain ⟨k₀, a₀⟩ := m
    rw [merge_append, mem_set_iff (nodup_keys_merge members), lastValue_append, ih]

theorem LastValue.mem {members : Members α} {k : Text} {a : α} (h : LastValue members k a) :
    (k, a) ∈ members := by
  obtain ⟨before, after, rfl, -⟩ := h
  exact List.mem_append_right before List.mem_cons_self

theorem not_lastValue_nil {k : Text} {a : α} : ¬ LastValue [] k a := by
  intro hex
  obtain ⟨before, after, h, -⟩ := hex
  simp at h

theorem LastValue.unique {members : Members α} {k : Text} {a a' : α}
    (h : LastValue members k a) (h' : LastValue members k a') : a = a' := by
  induction members using List.reverseRecOn with
  | nil => exact absurd h not_lastValue_nil
  | append_singleton members m ih =>
    obtain ⟨k₀, a₀⟩ := m
    rw [lastValue_append] at h h'
    rcases h with ⟨rfl, rfl⟩ | ⟨hne, h⟩
    · rcases h' with ⟨-, rfl⟩ | ⟨hne, -⟩
      · rfl
      · exact absurd rfl hne
    · rcases h' with ⟨rfl, -⟩ | ⟨-, h'⟩
      · exact absurd rfl hne
      · exact ih h h'

/-- Objects are the same if they have the same keys in the same places and no value of one
is foreign to the other. -/
theorem eq_of_keys_eq {members others : Members α} (hkeys : keys members = keys others)
    (hnodup : (keys members).Nodup) (hmem : ∀ m ∈ others, m ∈ members) : members = others := by
  induction members generalizing others with
  | nil => exact (List.map_eq_nil_iff.mp hkeys.symm).symm
  | cons m members ih =>
    obtain ⟨k, a⟩ := m
    obtain ⟨hk, hnodup⟩ := List.nodup_cons.mp hnodup
    match others with
    | [] => cases hkeys
    | (k', a') :: others =>
      obtain ⟨rfl, hrest⟩ := List.cons.inj hkeys
      have hfirst : (k, a') = (k, a) := by
        rcases List.mem_cons.mp (hmem _ List.mem_cons_self) with h | h
        · exact h
        · exact absurd (mem_keys h) hk
      have htail : members = others := by
        refine ih hrest hnodup fun m hm => ?_
        rcases List.mem_cons.mp (hmem m (List.mem_cons_of_mem _ hm)) with rfl | h
        · exact absurd (hrest ▸ mem_keys hm) hk
        · exact h
      rw [hfirst, htail]

end Members
end Json
end QueryView
