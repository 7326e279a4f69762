/-
Rows of a query result are shown as what they are.

Rows are written as one compact JSON text, which a highlighter reads again and lays out.  The
writer and the reader have nothing in common but the grammar, and the main theorem,
`rows_are_shown`, says that this is enough: whatever the rows hold, the reader accepts the
text, so it is never shown as text that is not JSON, and both the text and its layout have the
tree that the rows were turned into.

What is left is what that tree says of the rows.  Items and the keys of a map keep their order,
a repeated key has its last value in its first place, an integer is written exactly, and of all
floats those are null that are no finite numbers.
-/
import Mathlib.Algebra.Group.Nat.Defs
import QueryView.Highlighter
import QueryView.Proofs.Json.Compact
import QueryView.Proofs.Json.Number
import QueryView.ResultValue

namespace QueryView

open Json Json.Grammar Json.Members

/-! ## The trees of rows are sound -/

theorem Json.sound_ofInt (i : Int) : Sound (Json.ofInt i) := .number (number_ofInt i)

theorem Json.sound_ofFloat (bits : UInt64) : Sound (Json.ofFloat bits) := by
  unfold Json.ofFloat
  split
  · next source hsource => exact .number (number_of_write? hsource)
  · exact .null

/-- Infinities and what is not a number have all bits of the exponent set. -/
theorem Json.ofFloat_eq_null_iff (bits : UInt64) :
    Json.ofFloat bits = .null ↔ bits.toNat / 2 ^ 52 % 2 ^ 11 = 2 ^ 11 - 1 := by
  have hdecode : Json.ofFloat bits = .null ↔ ∀ negative significand exponent,
      Numeric.Format.double.decode bits.toNat ≠ .finite negative significand exponent := by
    unfold Json.ofFloat
    cases Numeric.Format.double.decode bits.toNat with
    | finite negative significand exponent => simp [Numeric.Binary.write?]
    | infinite negative => simp [Numeric.Binary.write?]
    | nan => simp [Numeric.Binary.write?]
  have hexponent : Numeric.Format.double.decode bits.toNat =
      if bits.toNat / 2 ^ 52 % 2 ^ 11 = 2 ^ 11 - 1 then
        if bits.toNat % 2 ^ 52 = 0 then
          .infinite (decide (bits.toNat / 2 ^ 63 % 2 = 1))
        else .nan
      else if bits.toNat / 2 ^ 52 % 2 ^ 11 = 0 then
        .finite (decide (bits.toNat / 2 ^ 63 % 2 = 1)) (bits.toNat % 2 ^ 52)
          Numeric.Format.double.minExponent
      else .finite (decide (bits.toNat / 2 ^ 63 % 2 = 1)) (2 ^ 52 + bits.toNat % 2 ^ 52)
        (Numeric.Format.double.minExponent + (bits.toNat / 2 ^ 52 % 2 ^ 11 - 1 : Nat)) := rfl
  rw [hdecode, hexponent]
  split
  · next hspecial =>
    refine iff_of_true (fun _ _ _ => ?_) hspecial
    split <;> exact nofun
  · next hordinary =>
    refine iff_of_false (fun hnever => ?_) hordinary
    split at hnever <;> exact hnever _ _ _ rfl

namespace Attachment

theorem keys_member? {α : Type} (key : String) (f : α → Tree) (a : Option α) :
    (keys (member? key f a)).Sublist [key.toList] := by
  cases a with
  | none => exact List.nil_sublist _
  | some a => exact List.Sublist.refl _

theorem sound_member? {α : Type} (key : String) {f : α → Tree} (hf : ∀ a, Sound (f a))
    (a : Option α) : ∀ m ∈ member? key f a, Sound m.2 := by
  intro m hm
  cases a with
  | none => exact absurd hm List.not_mem_nil
  | some a =>
    rw [List.mem_singleton.mp hm]
    exact hf a

/-- An attachment is described by an object with no key twice. -/
theorem sound_tree (a : Attachment) : Sound a.tree := by
  refine .object ?_ fun m hm => ?_
  · have hkeys : (keys (("@type".toList, .string "blob".toList) ::
        (member? "contentType" .string a.contentType ++
          (member? "length" (fun n => Json.ofInt (.ofNat n)) a.length ++
            member? "digest" .string a.digest)))).Sublist
        ("@type".toList ::
          (["contentType".toList] ++ (["length".toList] ++ ["digest".toList]))) := by
      rw [keys, List.map_cons, ← keys, keys_append, keys_append]
      exact ((keys_member? _ _ _).append
        ((keys_member? _ _ _).append (keys_member? _ _ _))).cons_cons _
    exact hkeys.nodup (by decide)
  · rcases List.mem_cons.mp hm with rfl | hm
    · exact .string _
    · rcases List.mem_append.mp hm with hm | hm
      · exact sound_member? _ (fun t => .string t) _ m hm
      · rcases List.mem_append.mp hm with hm | hm
        · exact sound_member? _ (fun n => Json.sound_ofInt _) _ m hm
        · exact sound_member? _ (fun t => .string t) _ m hm

end Attachment

namespace ResultValue

theorem itemTrees_eq (items : List ResultValue) : itemTrees items = items.map tree := by
  induction items with
  | nil => rfl
  | cons v items ih => rw [itemTrees, ih, List.map_cons]

theorem entryTrees_eq (entries : List (Text × ResultValue)) :
    entryTrees entries = mapValues tree entries := by
  induction entries with
  | nil => rfl
  | cons e entries ih =>
    obtain ⟨key, v⟩ := e
    rw [entryTrees, ih]
    rfl

mutual

theorem sound_tree (v : ResultValue) : Sound v.tree := by
  match v with
  | .null => exact .null
  | .bool b => exact .bool b
  | .int i => exact Json.sound_ofInt i
  | .float bits => exact Json.sound_ofFloat bits
  | .string t => exact .string t
  | .bytes b => exact .string _
  | .attachment a => exact a.sound_tree
  | .array items =>
    rw [tree]
    exact .array (sound_itemTrees items)
  | .map entries =>
    rw [tree]
    exact .object (nodup_keys_merge _) fun m hm =>
      sound_entryTrees entries m (mem_merge_iff.mp hm).mem

theorem sound_itemTrees (items : List ResultValue) : ∀ v ∈ itemTrees items, Sound v := by
  match items with
  | [] => exact fun v hv => absurd hv List.not_mem_nil
  | v :: items =>
    rw [itemTrees]
    intro w hw
    rcases List.mem_cons.mp hw with rfl | hw
    · exact sound_tree v
    · exact sound_itemTrees items w hw

theorem sound_entryTrees (entries : List (Text × ResultValue)) :
    ∀ m ∈ entryTrees entries, Sound m.2 := by
  match entries with
  | [] => exact fun m hm => absurd hm List.not_mem_nil
  | (key, v) :: entries =>
    rw [entryTrees]
    intro m hm
    rcases List.mem_cons.mp hm with rfl | hm
    · exact sound_tree v
    · exact sound_entryTrees entries m hm

end

/-! ## What is shown -/

/-- The text of rows is JSON, it and its layout have the tree of the rows, and it is highlighted
as that layout.  In the tree an integer is an exact decimal, a float is null if it is no finite
number and only then, and a map has its keys in the order in which they come first, each with
the last of its values. -/
theorem rows_are_shown :
    (∀ rows : List ResultValue, HasTree (jsonText rows) (.array (rows.map tree)) ∧
      ∃ ps, format? (jsonText rows) = some ps ∧
        HasTree (Token.concat ps) (.array (rows.map tree)) ∧
        ∀ h : Highlighter, h.highlight (jsonText rows) .json = ps.map h.run) ∧
    (∀ i, ∃ source, tree (.int i) = .number source ∧ Number source ∧ Text.intValue source = i) ∧
    (∀ bits, tree (.float bits) = .null ↔ bits.toNat / 2 ^ 52 % 2 ^ 11 = 2 ^ 11 - 1) ∧
    ∀ entries, ∃ members, tree (.map entries) = .object members ∧
      keys members = (keys entries).eraseDups ∧
      ∀ key v, (key, v) ∈ members ↔ LastValue (mapValues tree entries) key v := by
  refine ⟨fun rows => ?_, fun i => ?_, Json.ofFloat_eq_null_iff, fun entries => ?_⟩
  · have hsound : Sound (.array (rows.map tree)) := by
      rw [← itemTrees_eq]
      exact .array (sound_itemTrees rows)
    have htext : HasTree (jsonText rows) (.array (rows.map tree)) := by
      rw [jsonText, itemTrees_eq]
      exact hasTree_compact_of_sound hsound
    have hformat : format? (jsonText rows) = some (Value.pieces 0 (.array (rows.map tree))) :=
      format?_eq_some_iff.mpr ⟨_, htext, rfl⟩
    refine ⟨htext, _, hformat, hasTree_concat_pieces hsound, fun h => ?_⟩
    rw [Highlighter.highlight, Highlighter.jsonTokens, hformat, Option.getD_some]
  · exact ⟨_, rfl, number_ofInt i, Text.intValue_ofInt i⟩
  · refine ⟨merge (mapValues tree entries), ?_, ?_, fun key v => mem_merge_iff⟩
    · rw [tree, entryTrees_eq]
    · rw [keys_merge, keys_mapValues]

end ResultValue
end QueryView
