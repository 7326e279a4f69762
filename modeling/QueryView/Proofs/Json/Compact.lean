/-
Reading a compact text.

A compact text spells the same document as a layout of the same tree, without any blanks
(`valueText_compact`).  So it has the tree that is left when the keys of what was written are
resolved (`hasTree_compact`), and laying it out gives the layout of that tree.
-/
import QueryView.Proofs.Json.Canonical

namespace QueryView
namespace Json

open Grammar Members

/-- The numbers in the tree are numbers. -/
inductive Writable : Tree → Prop where
  | null : Writable .null
  | bool (b : Bool) : Writable (.bool b)
  | number {n : Text} : Number n → Writable (.number n)
  | string (t : Text) : Writable (.string t)
  | array {items : List Tree} : (∀ v ∈ items, Writable v) → Writable (.array items)
  | object {members : Members Tree} : (∀ m ∈ members, Writable m.2) →
      Writable (.object members)

theorem Sound.writable {v : Tree} (h : Sound v) : Writable v := by
  induction h with
  | null => exact .null
  | bool b => exact .bool b
  | number hn => exact .number hn
  | string t => exact .string t
  | array _ ih => exact .array ih
  | object _ _ ih => exact .object ih

/-- A value is an element without blanks. -/
theorem elementText_of_valueText {d : Document} {t : Text} (h : ValueText d t) :
    ElementText d t := by
  have helement := ElementText.blanks blank_nil h blank_nil
  rwa [List.nil_append, List.append_nil] at helement

theorem memberText_of_valueText (k : Text) {d : Document} {t : Text} (h : ValueText d t) :
    MemberText (spell k, d) (quote k ++ ':' :: t) :=
  .pair blank_nil (stringText_quote k) blank_nil (elementText_of_valueText h)

theorem compactItems_cons_cons (v w : Tree) (items : List Tree) :
    Value.compactItems (v :: w :: items) =
      Value.compact v ++ ',' :: Value.compactItems (w :: items) := by
  rw [Value.compactItems]
  exact List.cons_ne_nil w items

theorem compactMembers_cons_cons (k : Text) (v : Tree) (m : Text × Tree) (members : Members Tree) :
    Value.compactMembers ((k, v) :: m :: members) =
      (quote k ++ ':' :: Value.compact v) ++ ',' :: Value.compactMembers (m :: members) := by
  rw [Value.compactMembers, List.append_assoc, List.cons_append]
  exact List.cons_ne_nil m members

mutual

theorem valueText_compact (v : Tree) (h : Writable v) :
    ValueText (document v) (Value.compact v) := by
  match v with
  | .null => exact .wordNull
  | .bool true => exact .wordTrue
  | .bool false => exact .wordFalse
  | .number n =>
    cases h with
    | number hn =>
      rw [Value.compact, document]
      exact .number hn
  | .string t =>
    rw [Value.compact, document]
    exact .string (stringText_quote t)
  | .array [] => exact .emptyArray blank_nil
  | .array (v :: items) =>
    cases h with
    | array hitems =>
      rw [Value.compact, document]
      exact .array (elementsText_compact (v :: items) (List.cons_ne_nil v items) hitems)
  | .object [] => exact .emptyObject blank_nil
  | .object (m :: members) =>
    cases h with
    | object hmembers =>
      rw [Value.compact, document]
      exact .object (membersText_compact (m :: members) (List.cons_ne_nil m members) hmembers)

theorem elementsText_compact (items : List Tree) (hne : items ≠ [])
    (h : ∀ v ∈ items, Writable v) :
    ElementsText (itemDocuments items) (Value.compactItems items) := by
  match items with
  | [] => exact absurd rfl hne
  | [v] =>
    have hv := valueText_compact v (h v List.mem_cons_self)
    rw [Value.compactItems]
    exact .last (elementText_of_valueText hv)
  | v :: w :: items =>
    have hv := valueText_compact v (h v List.mem_cons_self)
    have hrest := elementsText_compact (w :: items) (List.cons_ne_nil w items)
      fun u hu => h u (List.mem_cons_of_mem v hu)
    rw [compactItems_cons_cons]
    exact .cons (elementText_of_valueText hv) hrest

theorem membersText_compact (members : Members Tree) (hne : members ≠ [])
    (h : ∀ m ∈ members, Writable m.2) :
    MembersText (memberDocuments members) (Value.compactMembers members) := by
  match members with
  | [] => exact absurd rfl hne
  | [(k, v)] =>
    have hv := valueText_compact v (h _ List.mem_cons_self)
    rw [Value.compactMembers]
    exact .last (memberText_of_valueText k hv)
  | (k, v) :: m :: members =>
    have hv := valueText_compact v (h _ List.mem_cons_self)
    have hrest := membersText_compact (m :: members) (List.cons_ne_nil m members)
      fun u hu => h u (List.mem_cons_of_mem _ hu)
    rw [compactMembers_cons_cons]
    exact .cons (memberText_of_valueText k hv) hrest

end

/-- A compact text has the tree that was written, with each key once. -/
theorem hasTree_compact {v : Tree} (h : Writable v) : HasTree (Value.compact v) (resolved v) :=
  ⟨document v, elementText_of_valueText (valueText_compact v h),
    decode?_eq_some_iff.mp (decode?_document v)⟩

theorem hasTree_compact_of_sound {v : Tree} (h : Sound v) : HasTree (Value.compact v) v := by
  have htree := hasTree_compact h.writable
  rwa [resolved_of_sound v h] at htree

end Json
end QueryView
