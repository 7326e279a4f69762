/-
Which texts have a layout.

A text is laid out if it follows the grammar and everything that is reached in it is legible.
Reading starts from the whole document.  It reaches every element of an array, and every
member of an object but those that a later member with the same key hides.  Of what is
reached, strings and keys must spell texts: surrogates come in pairs.  Strings that are not
reached may hold anything that the grammar allows.

The main theorem, `laid_out_iff`, says that these are the texts with a layout, and that all
others are shown as they are.  Its two halves are `legible_of_decode?`, by induction on how
something is reached, and `exists_decode?`, by recursion on the document.
-/
import Mathlib.Data.List.Forall2
import Mathlib.Data.Set.List
import QueryView.Highlighter
import QueryView.Proofs.Json.Canonical

namespace QueryView
namespace Json

open Grammar Members

/-! ## What a string spells -/

inductive Spells : Spelling → Text → Prop where
  | nil : Spells [] []
  | scalar {c : Char} {s : Spelling} {t : Text} : Spells s t → Spells (.scalar c :: s) (c :: t)
  | code {n : Nat} {s : Spelling} {t : Text} : isLead n = false → isTrail n = false →
      Spells s t → Spells (.code n :: s) (Char.ofNat n :: t)
  | pair {m n : Nat} {s : Spelling} {t : Text} : isLead m = true → isTrail n = true →
      Spells s t → Spells (.code m :: .code n :: s) (pairedScalar m n :: t)

theorem decode?_of_spells {s : Spelling} {t : Text} (h : Spells s t) :
    Spelling.decode? s = some t := by
  induction h with
  | nil => rfl
  | scalar _ ih => rw [Spelling.decode?, ih, Option.map_some]
  | code hlead htrail _ ih => rw [decode?_code_cons hlead htrail, ih, Option.map_some]
  | pair hlead htrail _ ih =>
    rw [Spelling.decode?, if_pos hlead, if_pos htrail, ih, Option.map_some]

theorem spells_of_decode? {s : Spelling} {t : Text} (h : Spelling.decode? s = some t) :
    Spells s t := by
  fun_induction Spelling.decode? s generalizing t with
  | case1 =>
    cases h
    exact .nil
  | case2 c r ih =>
    obtain ⟨u, hu, rfl⟩ := Option.map_eq_some_iff.mp h
    exact .scalar (ih hu)
  | case3 m hlead n r htrail ih =>
    obtain ⟨u, hu, rfl⟩ := Option.map_eq_some_iff.mp h
    exact .pair hlead htrail (ih hu)
  | case4 | case5 | case6 => cases h
  | case7 n r hlead htrail ih =>
    obtain ⟨u, hu, rfl⟩ := Option.map_eq_some_iff.mp h
    exact .code (Bool.eq_false_iff.mpr hlead) (Bool.eq_false_iff.mpr htrail) (ih hu)

/-! ## What is reached -/

def SameKey (k k' : Spelling) : Prop := ∃ t, Spells k t ∧ Spells k' t

/-- What is reached from a document on the way inwards. -/
inductive Reached (root : Document) : Document → Prop where
  | root : Reached root root
  | item {items : List Document} {d : Document} : Reached root (.array items) → d ∈ items →
      Reached root d
  | member {before after : List (Spelling × Document)} {k : Spelling} {d : Document} :
      Reached root (.object (before ++ (k, d) :: after)) → (∀ m ∈ after, ¬ SameKey k m.1) →
      Reached root d

theorem Reached.trans {d e f : Document} (h : Reached d e) (h' : Reached e f) : Reached d f := by
  induction h' with
  | root => exact h
  | item _ hd ih => exact .item ih hd
  | member _ hlast ih => exact .member ih hlast

/-- The strings of a document that are not strings of its parts spell texts. -/
def Legible : Document → Prop
  | .string s => ∃ t, Spells s t
  | .object members => ∀ m ∈ members, ∃ t, Spells m.1 t
  | _ => True

/-! ## Members and their keys -/

/-- The members with their keys decoded. -/
def Keyed (members : List (Spelling × Document)) (keyed : Members Document) : Prop :=
  List.Forall₂ (fun m e => Spells m.1 e.1 ∧ m.2 = e.2) members keyed

theorem keyed_zip {members : List (Spelling × Document)} {ks : List Text}
    (hks : members.map (fun m => Spelling.decode? m.1) = ks.map some) :
    Keyed members (ks.zip (members.map Prod.snd)) := by
  induction members generalizing ks with
  | nil =>
    rw [List.map_eq_nil_iff.mp hks.symm]
    exact .nil
  | cons m members ih =>
    match ks with
    | [] => cases hks
    | k :: ks =>
      obtain ⟨hk, hrest⟩ := List.cons.inj hks
      exact .cons ⟨spells_of_decode? hk, rfl⟩ (ih hrest)

theorem Keyed.exists_key {members : List (Spelling × Document)} {keyed : Members Document}
    (h : Keyed members keyed) {m : Spelling × Document} (hm : m ∈ members) :
    ∃ t, Spells m.1 t ∧ t ∈ keys keyed := by
  induction h with
  | nil => cases hm
  | cons hfirst _ ih =>
    rcases List.mem_cons.mp hm with rfl | hm
    · exact ⟨_, hfirst.1, List.mem_cons_self⟩
    · obtain ⟨t, ht, hmem⟩ := ih hm
      exact ⟨t, ht, List.mem_cons_of_mem _ hmem⟩

theorem Keyed.exists_member {members : List (Spelling × Document)} {keyed : Members Document}
    (h : Keyed members keyed) {t : Text} (ht : t ∈ keys keyed) :
    ∃ m ∈ members, Spells m.1 t := by
  induction h with
  | nil => cases ht
  | cons hfirst _ ih =>
    rcases List.mem_cons.mp ht with rfl | ht
    · exact ⟨_, List.mem_cons_self, hfirst.1⟩
    · obtain ⟨m, hm, hspells⟩ := ih ht
      exact ⟨m, List.mem_cons_of_mem _ hm, hspells⟩

theorem Spells.unique {s : Spelling} {t t' : Text} (h : Spells s t) (h' : Spells s t') :
    t = t' := Option.some.inj ((decode?_of_spells h).symm.trans (decode?_of_spells h'))

/-- A member that no later one hides has the last value of its key, -/
theorem Keyed.lastValue {before after : List (Spelling × Document)} {k : Spelling}
    {d : Document} {keyed : Members Document} (h : Keyed (before ++ (k, d) :: after) keyed)
    (hlast : ∀ m ∈ after, ¬ SameKey k m.1) : ∃ t, LastValue keyed t d := by
  have htail := List.forall₂_drop_append _ _ _ h.flip
  obtain ⟨e, rest, ⟨hk, hd⟩, hrest, htail⟩ := List.forall₂_cons_right_iff.mp htail
  refine ⟨e.1, keyed.take before.length, rest, ?_, ?_⟩
  · have hd : d = e.2 := hd
    rw [hd, ← htail, List.take_append_drop]
  · intro hmem
    have hrest : Keyed after rest := hrest.flip
    obtain ⟨m, hm, hspells⟩ := hrest.exists_member hmem
    exact hlast m hm ⟨e.1, hk, hspells⟩

/-- and only such members have. -/
theorem Keyed.reached {members : List (Spelling × Document)} {keyed : Members Document}
    (h : Keyed members keyed) {t : Text} {d : Document} (hlast : LastValue keyed t d) :
    Reached (.object members) d := by
  obtain ⟨before, after, rfl, hafter⟩ := hlast
  have htail := List.forall₂_drop_append _ _ _ h
  obtain ⟨m, rest, ⟨hk, hd⟩, hrest, htail⟩ := List.forall₂_cons_right_iff.mp htail
  have hd : m.2 = d := hd
  have hsplit : members = members.take before.length ++ (m.1, d) :: rest := by
    rw [← hd, ← htail, List.take_append_drop]
  have hroot : Reached (.object members)
      (.object (members.take before.length ++ (m.1, d) :: rest)) := by
    rw [← hsplit]
    exact .root
  refine .member hroot fun m' hm' hsame => hafter ?_
  obtain ⟨u, hu, hu'⟩ := hsame
  obtain ⟨u', hspells, hmem⟩ := Keyed.exists_key hrest hm'
  have hu : t = u := Spells.unique hk hu
  rwa [hu, Spells.unique hu' hspells]

/-! ## What is decoded is legible -/

theorem exists_decode?_of_reached {d e : Document} (h : Reached d e) {v : Tree}
    (hd : Value.decode? d = some v) : ∃ u, Value.decode? e = some u := by
  induction h with
  | root => exact ⟨v, hd⟩
  | @item items e _ he ih =>
    obtain ⟨u, hu⟩ := ih
    rw [Value.decode?] at hu
    obtain ⟨trees, htrees, -⟩ := Option.map_eq_some_iff.mp hu
    have hmem := List.mem_map_of_mem (f := Value.decode?) he
    rw [decodeItems?_eq_some_iff.mp htrees] at hmem
    obtain ⟨tree, -, htree⟩ := List.mem_map.mp hmem
    exact ⟨tree, htree.symm⟩
  | @member before after k e _ hlast ih =>
    obtain ⟨u, hu⟩ := ih
    obtain ⟨ks, trees, hks, htrees, -⟩ := decode?_object_iff.mp hu
    obtain ⟨t, ht⟩ := (keyed_zip hks).lastValue hlast
    have hmem := List.mem_map_of_mem (f := fun m => (m.1, Value.decode? m.2))
      (mem_merge_iff.mpr ht)
    have hmem : (t, Value.decode? e) ∈ mapValues some trees := htrees ▸ hmem
    obtain ⟨tree, -, htree⟩ := List.mem_map.mp hmem
    exact ⟨tree.2, (congrArg Prod.snd htree).symm⟩

theorem legible_of_decode? {d : Document} {v : Tree} (h : Value.decode? d = some v) :
    Legible d := by
  cases d with
  | null | bool | number | array => exact trivial
  | string s =>
    rw [Value.decode?] at h
    obtain ⟨t, ht, -⟩ := Option.map_eq_some_iff.mp h
    exact ⟨t, spells_of_decode? ht⟩
  | object members =>
    obtain ⟨ks, -, hks, -, -⟩ := decode?_object_iff.mp h
    intro m hm
    obtain ⟨t, ht, -⟩ := (keyed_zip hks).exists_key hm
    exact ⟨t, ht⟩

/-! ## What is legible is decoded -/

theorem exists_map_eq {α β γ : Type} {f : α → γ} {g : β → γ} {xs : List α}
    (h : ∀ x ∈ xs, ∃ y, g y = f x) : ∃ ys : List β, xs.map f = ys.map g := by
  have hrange : xs.map f ∈ Set.range (List.map g) := by
    rw [Set.range_list_map]
    intro z hz
    obtain ⟨x, hx, rfl⟩ := List.mem_map.mp hz
    exact h x hx
  obtain ⟨ys, hys⟩ := hrange
  exact ⟨ys, hys.symm⟩

mutual

theorem exists_decode? (d : Document) (h : ∀ e, Reached d e → Legible e) :
    ∃ v, Value.decode? d = some v := by
  match d with
  | .null => exact ⟨_, rfl⟩
  | .bool b => exact ⟨_, rfl⟩
  | .number source => exact ⟨_, rfl⟩
  | .string s =>
    obtain ⟨t, ht⟩ : ∃ t, Spells s t := h _ .root
    exact ⟨.string t, by rw [Value.decode?, decode?_of_spells ht, Option.map_some]⟩
  | .array items =>
    have hitems : ∀ e ∈ items, ∃ v, some v = Value.decode? e := by
      intro e he
      obtain ⟨v, hv⟩ := exists_decode?_item items e he fun f hf =>
        h f ((Reached.item .root he).trans hf)
      exact ⟨v, hv.symm⟩
    obtain ⟨trees, htrees⟩ := exists_map_eq hitems
    exact ⟨.array trees, by rw [Value.decode?, decodeItems?_eq_some_iff.mpr htrees,
      Option.map_some]⟩
  | .object members =>
    have hkeys : ∀ m ∈ members, ∃ t, some t = Spelling.decode? m.1 := by
      intro m hm
      obtain ⟨t, ht⟩ := h _ .root m hm
      exact ⟨t, (decode?_of_spells ht).symm⟩
    obtain ⟨ks, hks⟩ := exists_map_eq hkeys
    have hvalues : ∀ m ∈ merge (ks.zip (members.map Prod.snd)),
        ∃ p : Text × Tree, (p.1, some p.2) = (m.1, Value.decode? m.2) := by
      intro m hm
      have hlast := mem_merge_iff.mp hm
      have hreached := (keyed_zip hks).reached hlast
      obtain ⟨v, hv⟩ := exists_decode?_member members m.2 (List.of_mem_zip hlast.mem).2
        fun f hf => h f (hreached.trans hf)
      exact ⟨(m.1, v), by rw [hv]⟩
    obtain ⟨trees, htrees⟩ := exists_map_eq hvalues
    exact ⟨.object trees, decode?_object_iff.mpr ⟨ks, trees, hks, htrees, rfl⟩⟩

theorem exists_decode?_item (items : List Document) (d : Document) (hd : d ∈ items)
    (h : ∀ e, Reached d e → Legible e) : ∃ v, Value.decode? d = some v := by
  match items with
  | [] => cases hd
  | e :: items =>
    by_cases hde : d = e
    · rw [hde] at h ⊢
      exact exists_decode? e h
    · exact exists_decode?_item items d ((List.mem_cons.mp hd).resolve_left hde) h

theorem exists_decode?_member (members : List (Spelling × Document)) (d : Document)
    (hd : d ∈ members.map Prod.snd) (h : ∀ e, Reached d e → Legible e) :
    ∃ v, Value.decode? d = some v := by
  match members with
  | [] => cases hd
  | (k, e) :: members =>
    by_cases hde : d = e
    · rw [hde] at h ⊢
      exact exists_decode? e h
    · exact exists_decode?_member members d ((List.mem_cons.mp hd).resolve_left hde) h

end

/-! ## Texts with a layout -/

/-- The text is a JSON text, and all that is reached in it is legible. -/
def IsLegible (t : Text) : Prop := ∃ d, ElementText d t ∧ ∀ e, Reached d e → Legible e

theorem exists_hasTree_iff {t : Text} : (∃ v, HasTree t v) ↔ IsLegible t := by
  constructor
  · intro h
    obtain ⟨v, d, hd, hshows⟩ := h
    refine ⟨d, hd, fun e he => ?_⟩
    obtain ⟨u, hu⟩ := exists_decode?_of_reached he (decode?_of_shows hshows)
    exact legible_of_decode? hu
  · intro h
    obtain ⟨d, hd, hlegible⟩ := h
    obtain ⟨v, hv⟩ := exists_decode? d hlegible
    exact ⟨v, d, hd, shows_of_decode? d v hv⟩

/-- The texts with a layout are the legible ones.  Any other text is shown as it is, in the
plain color and not bold. -/
theorem laid_out_iff (t : Text) :
    ((∃ ps, format? t = some ps) ↔ IsLegible t) ∧
      (¬ IsLegible t → format? t = none ∧ ∀ h : Highlighter,
        h.highlight t .json = [{ text := t, color := h.palette.plain, bold := false }]) := by
  have hiff : (∃ ps, format? t = some ps) ↔ IsLegible t := by
    rw [← exists_hasTree_iff]
    simp only [format?_eq_some_iff]
    exact ⟨fun ⟨_, v, hv, _⟩ => ⟨v, hv⟩, fun ⟨v, hv⟩ => ⟨_, v, hv, rfl⟩⟩
  refine ⟨hiff, fun hnot => ?_⟩
  have hnone : format? t = none :=
    Option.eq_none_iff_forall_ne_some.mpr fun ps hps => hnot (hiff.mp ⟨ps, hps⟩)
  refine ⟨hnone, fun h => ?_⟩
  rw [Highlighter.highlight, Highlighter.jsonTokens, hnone]
  rfl

end Json
end QueryView
