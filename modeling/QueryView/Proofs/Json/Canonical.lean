/-
The layout of a JSON text is a canonical form.

A text has a tree if it follows the grammar and everything it shows can be decoded.  What
formatting makes of the text depends on its tree alone, and is itself a text with that tree
(`format?_canonical`).  So texts with one tree have one layout, however they differ in
blanks, in the spelling of strings, or in members that are not shown, and formatting a
layout once more changes nothing.
-/
import QueryView.Proofs.Json.Layout

namespace QueryView
namespace Json

open Grammar Members

/-! ## The tree of a text -/

/-- The text follows the grammar, and the tree is what it shows. -/
def HasTree (t : Text) (v : Tree) : Prop := ∃ d, ElementText d t ∧ Shows d v

theorem tree?_eq_some_iff {t : Text} {v : Tree} : tree? t = some v ↔ HasTree t v := by
  rw [tree?, Option.bind_eq_some_iff, HasTree]
  simp only [parse?_eq_some_iff, decode?_eq_some_iff]

theorem format?_eq_some_iff {t : Text} {ps : List Token} :
    format? t = some ps ↔ ∃ v, HasTree t v ∧ Value.pieces 0 v = ps := by
  rw [format?, Option.map_eq_some_iff]
  simp only [tree?_eq_some_iff]

theorem HasTree.unique {t : Text} {v v' : Tree} (h : HasTree t v) (h' : HasTree t v') :
    v = v' := by
  rw [← tree?_eq_some_iff] at h h'
  exact Option.some.inj (h.symm.trans h')

/-! ## Trees of texts are sound -/

theorem exists_valueText_of_elementsText {items : List Document} {t : Text}
    (h : ElementsText items t) : ∀ d ∈ items, ∃ s, ValueText d s := by
  match h with
  | .last (.blanks _ hv _) =>
    intro d hd
    rw [List.mem_singleton.mp hd]
    exact ⟨_, hv⟩
  | .cons (.blanks _ hv _) hrest =>
    intro d hd
    rcases List.mem_cons.mp hd with rfl | hd
    · exact ⟨_, hv⟩
    · exact exists_valueText_of_elementsText hrest d hd

theorem exists_valueText_of_membersText {members : List (Spelling × Document)} {t : Text}
    (h : MembersText members t) : ∀ d ∈ members.map Prod.snd, ∃ s, ValueText d s := by
  match h with
  | .last (.pair _ _ _ (.blanks _ hv _)) =>
    intro d hd
    rw [List.mem_singleton.mp hd]
    exact ⟨_, hv⟩
  | .cons (.pair _ _ _ (.blanks _ hv _)) hrest =>
    intro d hd
    rcases List.mem_cons.mp hd with rfl | hd
    · exact ⟨_, hv⟩
    · exact exists_valueText_of_membersText hrest d hd

theorem sound_of_shows {d : Document} {v : Tree} (h : Shows d v) :
    ∀ s, ValueText d s → Sound v := by
  induction h with
  | null => exact fun _ _ => .null
  | bool b => exact fun _ _ => .bool b
  | number n =>
    intro s hhead
    cases hhead
    exact .number ‹_›
  | string ht => exact fun _ _ => .string _
  | @array items trees hlength _ ih =>
    intro s hs
    have hitems : ∀ d ∈ items, ∃ s, ValueText d s := by
      cases hs with
      | emptyArray _ => simp
      | array ht => exact exists_valueText_of_elementsText ht
    refine .array fun v hv => ?_
    obtain ⟨i, hi', rfl⟩ := List.mem_iff_getElem.mp hv
    have hi : i < items.length := by omega
    obtain ⟨u, hu⟩ := hitems _ (List.getElem_mem hi)
    exact ih i hi hi' u hu
  | @object members ks shown trees hks hkeys hlast htrees _ ih =>
    intro s hs
    have hmembers : ∀ d ∈ members.map Prod.snd, ∃ s, ValueText d s := by
      cases hs with
      | emptyObject _ => simp
      | object ht => exact exists_valueText_of_membersText ht
    have hlength : shown.length = trees.length := by
      simpa [keys] using (congrArg List.length htrees).symm
    refine .object ?_ fun m hm => ?_
    · rw [htrees, hkeys, ← keys_merge_zip hks]
      exact nodup_keys_merge _
    · obtain ⟨i, hi', rfl⟩ := List.mem_iff_getElem.mp hm
      have hi : i < shown.length := by omega
      have hmem := (hlast _ (List.getElem_mem hi)).mem
      obtain ⟨u, hu⟩ := hmembers _ (List.of_mem_zip hmem).2
      exact ih i hi hi' u hu

theorem HasTree.sound {t : Text} {v : Tree} (h : HasTree t v) : Sound v := by
  obtain ⟨d, ⟨_, hv, _⟩, hshows⟩ := h
  exact sound_of_shows hshows _ hv

/-! ## Layouts -/

/-- A layout is a text with the tree that it lays out. -/
theorem hasTree_concat_pieces {v : Tree} (h : Sound v) :
    HasTree (Token.concat (Value.pieces 0 v)) v := by
  refine ⟨document v, ?_, shows_document h⟩
  have hlayout := ElementText.blanks blank_nil (valueText_document 0 v h) blank_nil
  rwa [List.nil_append, List.append_nil] at hlayout

/-- A text that is laid out keeps its tree, and laying it out again changes nothing; texts
with the same tree have the same layout; and no text has two trees. -/
theorem format?_canonical :
    (∀ t ps, format? t = some ps → ∃ v, HasTree t v ∧ HasTree (Token.concat ps) v ∧
        format? (Token.concat ps) = some ps) ∧
      (∀ t t' v, HasTree t v → HasTree t' v →
        ∃ ps, format? t = some ps ∧ format? t' = some ps) ∧
      ∀ t v v', HasTree t v → HasTree t v' → v = v' := by
  refine ⟨?_, ?_, fun t v v' => HasTree.unique⟩
  · intro t ps h
    obtain ⟨v, hv, rfl⟩ := format?_eq_some_iff.mp h
    have hlayout := hasTree_concat_pieces hv.sound
    exact ⟨v, hv, hlayout, format?_eq_some_iff.mpr ⟨v, hlayout, rfl⟩⟩
  · intro t t' v h h'
    exact ⟨Value.pieces 0 v, format?_eq_some_iff.mpr ⟨v, h, rfl⟩,
      format?_eq_some_iff.mpr ⟨v, h', rfl⟩⟩

end Json
end QueryView
