/-
Reading a layout.

A layout spells a document again: the one in which strings are spelled as a layout spells
them, and the blanks are those of the layout (`valueText_document`).  That document shows
the tree that was laid out (`shows_document`), provided that the tree is one that texts
have: its numbers are numbers, and its objects hold each key once.  Of a tree in which keys
are repeated it shows what is left when they are resolved (`decode?_document`).
-/
import QueryView.Json.Print
import QueryView.Proofs.Json.Grammar
import QueryView.Proofs.Json.Shown

namespace QueryView
namespace Json

open Grammar Members

/-- The numbers in the tree are numbers, and no object has a key twice. -/
inductive Sound : Tree → Prop where
  | null : Sound .null
  | bool (b : Bool) : Sound (.bool b)
  | number {n : Text} : Number n → Sound (.number n)
  | string (t : Text) : Sound (.string t)
  | array {items : List Tree} : (∀ v ∈ items, Sound v) → Sound (.array items)
  | object {members : Members Tree} : (keys members).Nodup → (∀ m ∈ members, Sound m.2) →
      Sound (.object members)

/-! ## Strings -/

/-- The unit by which a layout writes a character: its code if it is a control character
without a short escape. -/
def unitOf (c : Char) : StringUnit :=
  if c.toNat < 0x20 ∧ c ∉ ['\x08', '\x0c', '\n', '\r', '\t'] then .code c.toNat else .scalar c

def spell (t : Text) : Spelling := t.map unitOf

theorem fourDigits?_code : ∀ n < 0x20, fourDigits? '0' '0' (Text.hexDigit 'a' (n / 16))
    (Text.hexDigit 'a' (n % 16)) = some n := by decide

theorem unitText_escape (c : Char) : UnitText (unitOf c) (escape c) := by
  unfold escape
  by_cases h : c ∈ ['"', '\\', '\x08', '\x0c', '\n', '\r', '\t']
  · simp only [List.mem_cons, List.not_mem_nil, or_false] at h
    rcases h with rfl | rfl | rfl | rfl | rfl | rfl | rfl <;> exact .short rfl
  · simp only [List.mem_cons, List.not_mem_nil, or_false, not_or] at h
    obtain ⟨hq, hb, h₁, h₂, h₃, h₄, h₅⟩ := h
    rw [if_neg hq, if_neg hb, if_neg h₁, if_neg h₂, if_neg h₃, if_neg h₄, if_neg h₅]
    by_cases hc : c.toNat < 0x20
    · rw [if_pos hc, unitOf, if_pos ⟨hc, by simp [h₁, h₂, h₃, h₄, h₅]⟩]
      exact .code (fourDigits?_code c.toNat hc)
    · rw [if_neg hc, unitOf, if_neg fun h => hc h.1]
      exact .plain hb hq hc

theorem unitsText_spell (t : Text) : UnitsText (spell t) (t.flatMap escape) := by
  induction t with
  | nil => exact .nil
  | cons c t ih => exact .cons (unitText_escape c) ih

theorem stringText_quote (t : Text) : StringText (spell t) (quote t) :=
  ⟨_, unitsText_spell t, rfl⟩

theorem decode?_code_cons {n : Nat} {r : Spelling} (hlead : isLead n = false)
    (htrail : isTrail n = false) :
    Spelling.decode? (.code n :: r) = (Spelling.decode? r).map (Char.ofNat n :: ·) := by
  rcases r with _ | ⟨_ | m, r⟩ <;> simp [Spelling.decode?, hlead, htrail]

theorem decode?_spell (t : Text) : Spelling.decode? (spell t) = some t := by
  induction t with
  | nil => rfl
  | cons c t ih =>
    show Spelling.decode? (unitOf c :: spell t) = _
    unfold unitOf
    split
    · next h =>
      have hlead : isLead c.toNat = false := by
        simp only [isLead, decide_eq_false_iff_not]
        omega
      have htrail : isTrail c.toNat = false := by
        simp only [isTrail, decide_eq_false_iff_not]
        omega
      rw [decode?_code_cons hlead htrail, ih, Char.ofNat_toNat]
      rfl
    · rw [Spelling.decode?, ih]
      rfl

/-! ## The document of a layout -/

mutual

def document : Tree → Document
  | .null => .null
  | .bool b => .bool b
  | .number n => .number n
  | .string t => .string (spell t)
  | .array items => .array (itemDocuments items)
  | .object members => .object (memberDocuments members)

def itemDocuments : List Tree → List Document
  | [] => []
  | v :: items => document v :: itemDocuments items

def memberDocuments : Members Tree → List (Spelling × Document)
  | [] => []
  | (k, v) :: members => (spell k, document v) :: memberDocuments members

end

/-! ## Repeated keys

A tree can be written with all members of its objects, whether their keys are repeated or not.
Whoever reads what was written sees only one member for each key. -/

mutual

/-- What is seen of a tree. -/
def resolved : Tree → Tree
  | .null => .null
  | .bool b => .bool b
  | .number n => .number n
  | .string t => .string t
  | .array items => .array (resolvedItems items)
  | .object members => .object (merge (resolvedMembers members))

def resolvedItems : List Tree → List Tree
  | [] => []
  | v :: items => resolved v :: resolvedItems items

def resolvedMembers : Members Tree → Members Tree
  | [] => []
  | (k, v) :: members => (k, resolved v) :: resolvedMembers members

end

mutual

theorem decode?_document (v : Tree) : Value.decode? (document v) = some (resolved v) := by
  match v with
  | .null => rfl
  | .bool _ => rfl
  | .number _ => rfl
  | .string t => rw [document, Value.decode?, decode?_spell, Option.map_some, resolved]
  | .array items =>
    rw [document, Value.decode?, decodeItems?_itemDocuments items, Option.map_some, resolved]
  | .object members =>
    rw [document, Value.decode?, decodeMembers?_memberDocuments members]
    show ((merge (mapValues some (resolvedMembers members))).allPresent?).map Value.object = _
    rw [mapValues_merge, allPresent?_eq_some_iff.mpr rfl, Option.map_some, resolved]

theorem decodeItems?_itemDocuments (items : List Tree) :
    Value.decodeItems? (itemDocuments items) = some (resolvedItems items) := by
  match items with
  | [] => rfl
  | v :: items =>
    have hv := decode?_document v
    have hitems := decodeItems?_itemDocuments items
    exact decodeItems?_cons.mpr ⟨_, _, hv, hitems, rfl⟩

theorem decodeMembers?_memberDocuments (members : Members Tree) :
    Value.decodeMembers? (memberDocuments members) =
      some (mapValues some (resolvedMembers members)) := by
  match members with
  | [] => rfl
  | (k, v) :: members =>
    have hv := decode?_document v
    have hmembers := decodeMembers?_memberDocuments members
    exact decodeMembers?_cons.mpr ⟨k, _, decode?_spell k, hmembers, by rw [hv]; rfl⟩

end

mutual

/-- All of a tree is seen if no key is repeated. -/
theorem resolved_of_sound (v : Tree) (h : Sound v) : resolved v = v := by
  match v with
  | .null | .bool _ | .number _ | .string _ => rw [resolved]
  | .array items =>
    cases h with
    | array hitems => rw [resolved, resolvedItems_of_sound items hitems]
  | .object members =>
    cases h with
    | object hkeys hmembers =>
      rw [resolved, resolvedMembers_of_sound members hmembers, merge_of_nodup hkeys]

theorem resolvedItems_of_sound (items : List Tree) (h : ∀ v ∈ items, Sound v) :
    resolvedItems items = items := by
  match items with
  | [] => rfl
  | v :: items =>
    have hv := resolved_of_sound v (h v List.mem_cons_self)
    have hitems := resolvedItems_of_sound items fun w hw => h w (List.mem_cons_of_mem v hw)
    rw [resolvedItems, hv, hitems]

theorem resolvedMembers_of_sound (members : Members Tree) (h : ∀ m ∈ members, Sound m.2) :
    resolvedMembers members = members := by
  match members with
  | [] => rfl
  | (k, v) :: members =>
    have hv := resolved_of_sound v (h _ List.mem_cons_self)
    have hmembers := resolvedMembers_of_sound members fun m hm => h m (List.mem_cons_of_mem _ hm)
    rw [resolvedMembers, hv, hmembers]

end

/-- The document of a layout shows the tree that is laid out. -/
theorem shows_document {v : Tree} (h : Sound v) : Shows (document v) v :=
  decode?_eq_some_iff.mp (by rw [decode?_document, resolved_of_sound v h])

/-! ## The text of a layout -/

theorem concat_cons (token : Token) (ts : List Token) :
    Token.concat (token :: ts) = token.text ++ Token.concat ts := List.flatMap_cons

theorem concat_singleton (token : Token) : Token.concat [token] = token.text :=
  List.append_nil token.text

theorem concat_append (ts us : List Token) :
    Token.concat (ts ++ us) = Token.concat ts ++ Token.concat us := List.flatMap_append

theorem concat_indentation (depth : Nat) :
    Token.concat (indentation depth) = List.replicate (2 * depth) ' ' := by
  unfold indentation
  split
  · next hdepth =>
    rw [hdepth]
    rfl
  · exact concat_singleton _

/-- What stands between a mark that ends a line and what the next line is about. -/
def newline (depth : Nat) : Text := '\n' :: Token.concat (indentation depth)

theorem blank_newline (depth : Nat) : Blank (newline depth) := by
  refine blank_cons rfl fun c hc => ?_
  rw [concat_indentation] at hc
  rw [List.eq_of_mem_replicate hc]
  rfl

theorem blank_nil : Blank [] := fun _ hc => absurd hc List.not_mem_nil

theorem concat_moreItemPieces (depth : Nat) (v : Tree) (items : List Tree) :
    Token.concat (Value.moreItemPieces depth (v :: items)) =
      ',' :: (newline depth ++ (Token.concat (Value.pieces depth v) ++
        Token.concat (Value.moreItemPieces depth items))) := by
  simp only [Value.moreItemPieces, concat_cons, concat_append]
  rfl

theorem concat_moreMemberPieces (depth : Nat) (k : Text) (v : Tree) (members : Members Tree) :
    Token.concat (Value.moreMemberPieces depth ((k, v) :: members)) = ',' :: (newline depth ++
      (quote k ++ ':' :: ' ' :: (Token.concat (Value.pieces depth v) ++
        Token.concat (Value.moreMemberPieces depth members)))) := by
  simp only [Value.moreMemberPieces, concat_cons, concat_append]
  rfl

theorem concat_pieces_array (depth : Nat) (v : Tree) (items : List Tree) :
    Token.concat (Value.pieces depth (.array (v :: items))) = '[' :: ((newline (depth + 1) ++
      (Token.concat (Value.pieces (depth + 1) v) ++
        (Token.concat (Value.moreItemPieces (depth + 1) items) ++ newline depth))) ++ [']']) := by
  simp only [Value.pieces, concat_cons, concat_append, List.append_assoc]
  rfl

theorem concat_pieces_object (depth : Nat) (k : Text) (v : Tree) (members : Members Tree) :
    Token.concat (Value.pieces depth (.object ((k, v) :: members))) =
      '{' :: ((newline (depth + 1) ++ (quote k ++ ':' :: ' ' ::
        (Token.concat (Value.pieces (depth + 1) v) ++
          (Token.concat (Value.moreMemberPieces (depth + 1) members) ++ newline depth)))) ++
            ['}']) := by
  simp only [Value.pieces, concat_cons, concat_append, List.append_assoc, List.cons_append]
  rfl

mutual

theorem valueText_document (depth : Nat) (v : Tree) (h : Sound v) :
    ValueText (document v) (Token.concat (Value.pieces depth v)) := by
  match v with
  | .null => exact .wordNull
  | .bool true => exact .wordTrue
  | .bool false => exact .wordFalse
  | .number n =>
    cases h with
    | number hn =>
      rw [Value.pieces, concat_singleton, document]
      exact .number hn
  | .string t =>
    rw [Value.pieces, concat_singleton, document]
    exact .string (stringText_quote t)
  | .array [] => exact .emptyArray blank_nil
  | .array (v :: items) =>
    cases h with
    | array hitems =>
      rw [concat_pieces_array]
      refine .array (elementsText_more (depth + 1) items ?_ _ (blank_newline depth) _ _ ?_)
      · exact fun w hw => hitems w (List.mem_cons_of_mem v hw)
      · exact valueText_document (depth + 1) v (hitems v List.mem_cons_self)
  | .object [] => exact .emptyObject blank_nil
  | .object ((k, v) :: members) =>
    cases h with
    | object _ hmembers =>
      rw [concat_pieces_object]
      refine .object (membersText_more (depth + 1) members ?_ _ (blank_newline depth) _ _ _ ?_)
      · exact fun m hm => hmembers m (List.mem_cons_of_mem _ hm)
      · exact valueText_document (depth + 1) v (hmembers _ List.mem_cons_self)

/-- The items after one of a given text. -/
theorem elementsText_more (depth : Nat) (items : List Tree) (h : ∀ v ∈ items, Sound v)
    (w : Text) (hw : Blank w) (d : Document) (t : Text) (ht : ValueText d t) :
    ElementsText (d :: itemDocuments items) (newline depth ++
      (t ++ (Token.concat (Value.moreItemPieces depth items) ++ w))) := by
  match items with
  | [] => exact .last (.blanks (blank_newline depth) ht hw)
  | v :: items =>
    have hv := valueText_document depth v (h v List.mem_cons_self)
    have hmore := elementsText_more depth items (fun w hw => h w (List.mem_cons_of_mem v hw))
      w hw _ _ hv
    have hfirst := ElementText.blanks (blank_newline depth) ht blank_nil
    rw [concat_moreItemPieces, itemDocuments]
    simpa using ElementsText.cons hfirst hmore

theorem membersText_more (depth : Nat) (members : Members Tree) (h : ∀ m ∈ members, Sound m.2)
    (w : Text) (hw : Blank w) (k : Text) (d : Document) (t : Text) (ht : ValueText d t) :
    MembersText ((spell k, d) :: memberDocuments members) (newline depth ++ (quote k ++
      ':' :: ' ' :: (t ++ (Token.concat (Value.moreMemberPieces depth members) ++ w)))) := by
  have hspace : Blank [' '] := blank_cons rfl blank_nil
  match members with
  | [] =>
    have hvalue := ElementText.blanks hspace ht hw
    exact .last (.pair (blank_newline depth) (stringText_quote k) blank_nil hvalue)
  | (k', v) :: members =>
    have hv := valueText_document depth v (h _ List.mem_cons_self)
    have hmore := membersText_more depth members (fun m hm => h m (List.mem_cons_of_mem _ hm))
      w hw k' _ _ hv
    have hvalue := ElementText.blanks hspace ht blank_nil
    have hfirst := MemberText.pair (blank_newline depth) (stringText_quote k) blank_nil hvalue
    rw [concat_moreMemberPieces, memberDocuments]
    simpa using MembersText.cons hfirst hmore

end

end Json
end QueryView
