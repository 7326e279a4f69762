/-
What a document shows.

`Shows` relates a document to the tree that a reader of it sees.  Strings and keys are
decoded.  Of an object every key is there once, where it occurs first, and with the value
that it has where it occurs last; whether the values that are not shown could be decoded
makes no difference.

Decoding finds the tree that a document shows, and finds none if there is none
(`decode?_eq_some_iff`).
-/
import QueryView.Json.Tree
import QueryView.Proofs.Json.Merge

namespace QueryView
namespace Json

open Members

inductive Shows : Document → Tree → Prop where
  | null : Shows .null .null
  | bool (b : Bool) : Shows (.bool b) (.bool b)
  | number (source : Text) : Shows (.number source) (.number source)
  | string {s : Spelling} {t : Text} : Spelling.decode? s = some t → Shows (.string s) (.string t)
  | array {items : List Document} {trees : List Tree} : items.length = trees.length →
      (∀ i (h : i < items.length) (h' : i < trees.length), Shows items[i] trees[i]) →
      Shows (.array items) (.array trees)
  | object {members : List (Spelling × Document)} {ks : List Text} {shown : Members Document}
      {trees : Members Tree} : members.map (fun m => Spelling.decode? m.1) = ks.map some →
      keys shown = ks.eraseDups →
      (∀ m ∈ shown, LastValue (ks.zip (members.map Prod.snd)) m.1 m.2) →
      keys trees = keys shown →
      (∀ i (h : i < shown.length) (h' : i < trees.length), Shows shown[i].2 trees[i].2) →
      Shows (.object members) (.object trees)

/-! ## Decoding, one level at a time -/

theorem decodeItems?_cons {v : Document} {items : List Document} {trees : List Tree} :
    Value.decodeItems? (v :: items) = some trees ↔ ∃ tree rest, Value.decode? v = some tree ∧
      Value.decodeItems? items = some rest ∧ trees = tree :: rest := by
  rw [Value.decodeItems?]
  cases Value.decode? v <;> cases Value.decodeItems? items <;> simp [eq_comm]

theorem decodeItems?_eq_some_iff {items : List Document} {trees : List Tree} :
    Value.decodeItems? items = some trees ↔ items.map Value.decode? = trees.map some := by
  induction items generalizing trees with
  | nil => cases trees <;> simp [Value.decodeItems?]
  | cons v items ih =>
    rw [decodeItems?_cons]
    constructor
    · intro hex
      obtain ⟨tree, rest, hv, hrest, rfl⟩ := hex
      rw [List.map_cons, List.map_cons, hv, ih.mp hrest]
    · intro h
      match trees with
      | [] => cases h
      | tree :: trees =>
        obtain ⟨hv, hrest⟩ := List.cons.inj h
        exact ⟨tree, trees, hv, ih.mpr hrest, rfl⟩

theorem decodeMembers?_cons {k : Spelling} {v : Document} {members : List (Spelling × Document)}
    {decoded : Members (Option Tree)} :
    Value.decodeMembers? ((k, v) :: members) = some decoded ↔ ∃ key rest,
      Spelling.decode? k = some key ∧ Value.decodeMembers? members = some rest ∧
        decoded = (key, Value.decode? v) :: rest := by
  rw [Value.decodeMembers?]
  cases Spelling.decode? k <;> cases Value.decodeMembers? members <;> simp [eq_comm]

theorem decodeMembers?_eq_some_iff {members : List (Spelling × Document)}
    {decoded : Members (Option Tree)} :
    Value.decodeMembers? members = some decoded ↔ ∃ ks : List Text,
      members.map (fun m => Spelling.decode? m.1) = ks.map some ∧
        decoded = mapValues Value.decode? (ks.zip (members.map Prod.snd)) := by
  induction members generalizing decoded with
  | nil =>
    constructor
    · intro h
      cases h
      exact ⟨[], rfl, rfl⟩
    · intro hex
      obtain ⟨ks, hks, rfl⟩ := hex
      rw [List.map_eq_nil_iff.mp hks.symm]
      rfl
  | cons m members ih =>
    obtain ⟨k, v⟩ := m
    rw [decodeMembers?_cons]
    constructor
    · intro hex
      obtain ⟨key, rest, hkey, hrest, rfl⟩ := hex
      obtain ⟨ks, hks, rfl⟩ := ih.mp hrest
      exact ⟨key :: ks, by rw [List.map_cons, List.map_cons, hkey, hks], rfl⟩
    · intro hex
      obtain ⟨ks, hks, rfl⟩ := hex
      match ks with
      | [] => cases hks
      | key :: ks =>
        obtain ⟨hkey, hks⟩ := List.cons.inj hks
        exact ⟨key, _, hkey, ih.mpr ⟨ks, hks, rfl⟩, rfl⟩

theorem allPresent?_eq_some_iff {α : Type} {members : Members (Option α)} {present : Members α} :
    allPresent? members = some present ↔ members = mapValues some present := by
  induction members generalizing present with
  | nil => cases present <;> simp [allPresent?, mapValues]
  | cons m members ih =>
    obtain ⟨k, v⟩ := m
    have hcons : allPresent? ((k, v) :: members) = some present ↔ ∃ a rest, v = some a ∧
        allPresent? members = some rest ∧ present = (k, a) :: rest := by
      cases v <;> cases h : allPresent? members <;> simp [allPresent?, h, eq_comm]
    rw [hcons]
    constructor
    · intro hex
      obtain ⟨a, rest, rfl, hrest, rfl⟩ := hex
      rw [ih.mp hrest]
      rfl
    · intro h
      cases present with
      | nil => cases h
      | cons first present =>
        obtain ⟨hfirst, hrest⟩ := List.cons.inj h
        cases hfirst
        exact ⟨first.2, present, rfl, ih.mpr hrest, rfl⟩

theorem mapValues_merge {α β : Type} (f : α → β) (members : Members α) :
    merge (mapValues f members) = mapValues f (merge members) := by
  induction members using List.reverseRecOn with
  | nil => rfl
  | append_singleton members m ih =>
    obtain ⟨k, a⟩ := m
    have happend : mapValues f (members ++ [(k, a)]) = mapValues f members ++ [(k, f a)] :=
      List.map_append
    rw [happend, merge_append, merge_append, mapValues_set, ih]

/-- Decoding an object: the keys are decoded, the members merged, and then the values. -/
theorem decode?_object_iff {members : List (Spelling × Document)} {v : Tree} :
    Value.decode? (.object members) = some v ↔ ∃ (ks : List Text) (trees : Members Tree),
      members.map (fun m => Spelling.decode? m.1) = ks.map some ∧
        mapValues Value.decode? (merge (ks.zip (members.map Prod.snd))) = mapValues some trees ∧
          v = .object trees := by
  unfold Value.decode?
  constructor
  · intro h
    split at h
    · next decoded hdecoded =>
      obtain ⟨ks, hks, rfl⟩ := decodeMembers?_eq_some_iff.mp hdecoded
      obtain ⟨trees, htrees, rfl⟩ := Option.map_eq_some_iff.mp h
      rw [mapValues_merge, allPresent?_eq_some_iff] at htrees
      exact ⟨ks, trees, hks, htrees, rfl⟩
    · cases h
  · intro hex
    obtain ⟨ks, trees, hks, htrees, rfl⟩ := hex
    rw [decodeMembers?_eq_some_iff.mpr ⟨ks, hks, rfl⟩]
    show ((merge _).allPresent?).map Value.object = _
    rw [mapValues_merge, allPresent?_eq_some_iff.mpr htrees]
    rfl

/-! ## All levels -/

/-- Members have the same values under two functions if they have the same keys in the same places
and each value of one is under its function what the value in its place is under the other. -/
theorem mapValues_eq_iff {α β γ : Type} {f : α → γ} {g : β → γ} {members : Members α}
    {others : Members β} : mapValues f members = mapValues g others ↔
      keys others = keys members ∧ ∀ i (h : i < members.length) (h' : i < others.length),
        f members[i].2 = g others[i].2 := by
  constructor
  · intro h
    refine ⟨?_, fun i hi hi' => ?_⟩
    · have hkeys := congrArg keys h
      rw [keys_mapValues, keys_mapValues] at hkeys
      exact hkeys.symm
    · have hget := congrArg (fun ms => (ms[i]?).map Prod.snd) h
      simpa [mapValues, hi, hi'] using hget
  · intro hex
    obtain ⟨hkeys, hvalues⟩ := hex
    have hlength : members.length = others.length := by
      simpa [keys] using (congrArg List.length hkeys).symm
    refine List.ext_getElem (by simpa [mapValues] using hlength) fun i hi hi' => ?_
    have hi : i < members.length := by simpa [mapValues] using hi
    have hi' : i < others.length := by simpa [mapValues] using hi'
    have hkey := congrArg (fun ks => ks[i]?) hkeys
    simp only [keys, List.getElem?_map, hi, hi', List.getElem?_eq_getElem, Option.map_some,
      Option.some.injEq] at hkey
    simp only [mapValues, List.getElem_map]
    rw [hkey, hvalues i hi hi']

theorem keys_merge_zip {members : List (Spelling × Document)} {ks : List Text}
    (hks : members.map (fun m => Spelling.decode? m.1) = ks.map some) :
    keys (merge (ks.zip (members.map Prod.snd))) = ks.eraseDups := by
  have hlength : ks.length = members.length := by
    simpa using (congrArg List.length hks).symm
  rw [keys_merge, keys, List.map_fst_zip (by simp [hlength])]

mutual

theorem shows_of_decode? (d : Document) (v : Tree) (h : Value.decode? d = some v) :
    Shows d v := by
  match d with
  | .null =>
    cases h
    exact .null
  | .bool b =>
    cases h
    exact .bool b
  | .number source =>
    cases h
    exact .number source
  | .string s =>
    rw [Value.decode?] at h
    obtain ⟨t, ht, rfl⟩ := Option.map_eq_some_iff.mp h
    exact .string ht
  | .array items =>
    rw [Value.decode?] at h
    obtain ⟨trees, htrees, rfl⟩ := Option.map_eq_some_iff.mp h
    rw [decodeItems?_eq_some_iff] at htrees
    have hlength : items.length = trees.length := by
      simpa using congrArg List.length htrees
    refine .array hlength fun i hi hi' => ?_
    refine shows_item items items[i] (List.getElem_mem hi) trees[i] ?_
    have hget := congrArg (fun vs => vs[i]?) htrees
    simpa [hi, hi'] using hget
  | .object members =>
    obtain ⟨ks, trees, hks, htrees, rfl⟩ := decode?_object_iff.mp h
    obtain ⟨hkeys, hvalues⟩ := mapValues_eq_iff.mp htrees
    refine .object hks (keys_merge_zip hks) (fun m hm => mem_merge_iff.mp hm) hkeys
      fun i hi hi' => ?_
    have hlast := mem_merge_iff.mp (List.getElem_mem hi)
    exact shows_member members _ (List.of_mem_zip hlast.mem).2 _ (hvalues i hi hi')

theorem shows_item (items : List Document) (d : Document) (hd : d ∈ items) (v : Tree)
    (h : Value.decode? d = some v) : Shows d v := by
  match items with
  | [] => cases hd
  | e :: items =>
    by_cases hde : d = e
    · rw [hde] at h ⊢
      exact shows_of_decode? e v h
    · exact shows_item items d ((List.mem_cons.mp hd).resolve_left hde) v h

theorem shows_member (members : List (Spelling × Document)) (d : Document)
    (hd : d ∈ members.map Prod.snd) (v : Tree) (h : Value.decode? d = some v) : Shows d v := by
  match members with
  | [] => cases hd
  | (k, e) :: members =>
    by_cases hde : d = e
    · rw [hde] at h ⊢
      exact shows_of_decode? e v h
    · exact shows_member members d ((List.mem_cons.mp hd).resolve_left hde) v h

end

theorem decode?_of_shows {d : Document} {v : Tree} (h : Shows d v) : Value.decode? d = some v := by
  induction h with
  | null | bool | number => rfl
  | string ht => rw [Value.decode?, ht, Option.map_some]
  | @array items trees hlength _ ih =>
    have htrees : items.map Value.decode? = trees.map some := by
      refine List.ext_getElem (by simpa using hlength) fun i hi hi' => ?_
      rw [List.getElem_map, List.getElem_map]
      exact ih i (by simpa using hi) (by simpa using hi')
    rw [Value.decode?, decodeItems?_eq_some_iff.mpr htrees, Option.map_some]
  | @object members ks shown trees hks hkeys hlast htrees _ ih =>
    -- The members that are shown are those that merging leaves, in the same places.
    have hshown : merge (ks.zip (members.map Prod.snd)) = shown :=
      eq_of_keys_eq ((keys_merge_zip hks).trans hkeys.symm) (nodup_keys_merge _)
        fun m hm => mem_merge_iff.mpr (hlast m hm)
    refine decode?_object_iff.mpr ⟨ks, trees, hks, ?_, rfl⟩
    rw [hshown, mapValues_eq_iff]
    exact ⟨htrees, ih⟩

/-- Decoding finds what a document shows. -/
theorem decode?_eq_some_iff {d : Document} {v : Tree} : Value.decode? d = some v ↔ Shows d v :=
  ⟨shows_of_decode? d v, decode?_of_shows⟩

end Json
end QueryView
