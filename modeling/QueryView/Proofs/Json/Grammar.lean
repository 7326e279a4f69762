/-
The grammar of JSON, and the documents that the reader accepts.

The grammar is that of RFC 8259 again, now for values: `ValueText` relates a document to
the texts that spell it.  An element is a value with blanks around it, and so is a whole
JSON text.  Neither depth nor length is limited.

The reader accepts a text just when it is an element, and then it finds the document that
the text spells (`parse?_eq_some_iff`).
-/
import QueryView.Json.Document
import QueryView.Proofs.Json.Lexical

namespace QueryView
namespace Json
namespace Grammar

mutual

inductive ValueText : Document → Text → Prop where
  | wordNull : ValueText .null "null".toList
  | wordTrue : ValueText (.bool true) "true".toList
  | wordFalse : ValueText (.bool false) "false".toList
  | number {t : Text} : Number t → ValueText (.number t) t
  | string {s : Spelling} {t : Text} : StringText s t → ValueText (.string s) t
  | emptyArray {w : Text} : Blank w → ValueText (.array []) ('[' :: (w ++ [']']))
  | array {items : List Document} {t : Text} : ElementsText items t →
      ValueText (.array items) ('[' :: (t ++ [']']))
  | emptyObject {w : Text} : Blank w → ValueText (.object []) ('{' :: (w ++ ['}']))
  | object {members : List (Spelling × Document)} {t : Text} : MembersText members t →
      ValueText (.object members) ('{' :: (t ++ ['}']))

/-- A value with blanks around it. -/
inductive ElementText : Document → Text → Prop where
  | blanks {v : Document} {w t w' : Text} : Blank w → ValueText v t → Blank w' →
      ElementText v (w ++ (t ++ w'))

/-- One element or more, with commas between them. -/
inductive ElementsText : List Document → Text → Prop where
  | last {v : Document} {t : Text} : ElementText v t → ElementsText [v] t
  | cons {v : Document} {items : List Document} {t r : Text} : ElementText v t →
      ElementsText items r → ElementsText (v :: items) (t ++ ',' :: r)

inductive MemberText : Spelling × Document → Text → Prop where
  | pair {k : Spelling} {v : Document} {w s w' t : Text} : Blank w → StringText k s → Blank w' →
      ElementText v t → MemberText (k, v) (w ++ (s ++ (w' ++ ':' :: t)))

/-- One member or more, with commas between them. -/
inductive MembersText : List (Spelling × Document) → Text → Prop where
  | last {m : Spelling × Document} {t : Text} : MemberText m t → MembersText [m] t
  | cons {m : Spelling × Document} {members : List (Spelling × Document)} {t r : Text} :
      MemberText m t → MembersText members r → MembersText (m :: members) (t ++ ',' :: r)

end

/-! ## What is read was spelled

The lexemes of a text make up the text, and those of a document can be put together again to
its values, from the front to the back. -/

theorem Spelled.inv {l : Lexeme} {ls : List Lexeme} {t : Text} (h : Spelled (l :: ls) t) :
    ∃ w s r, t = w ++ (s ++ r) ∧ Blank w ∧ LexemeText l s ∧ Spelled ls r := by
  cases h with
  | cons hw hs hr => exact ⟨_, _, _, rfl, hw, hs, hr⟩

/-- A key and its colon are in front of any element that makes a member of them. -/
theorem spelled_key {k : Spelling} {ls : List Lexeme} {t : Text}
    (h : Spelled (.string k :: .colon :: ls) t) :
    ∃ s r, t = s ++ r ∧ (∀ v e, ElementText v e → MemberText (k, v) (s ++ e)) ∧
      Spelled ls r := by
  obtain ⟨w, s, r, rfl, hw, hs, hr⟩ := Spelled.inv h
  obtain ⟨w', s', r', rfl, hw', hs', hr'⟩ := Spelled.inv hr
  cases hs' with
  | colon =>
    cases hs with
    | string hk =>
      refine ⟨w ++ (s ++ (w' ++ [':'])), r', by simp, ?_, hr'⟩
      intro v e he
      simpa using MemberText.pair hw hk hw' he

mutual

theorem spelled_value (v : Document) (ls : List Lexeme) (t : Text)
    (h : Spelled (v.lexemes ++ ls) t) :
    ∃ w s r, t = w ++ (s ++ r) ∧ Blank w ∧ ValueText v s ∧ Spelled ls r := by
  match v with
  | .null =>
    obtain ⟨w, s, r, rfl, hw, hs, hr⟩ := Spelled.inv h
    cases hs
    exact ⟨w, _, r, rfl, hw, .wordNull, hr⟩
  | .bool b =>
    obtain ⟨w, s, r, rfl, hw, hs, hr⟩ := Spelled.inv h
    cases hs with
    | wordTrue => exact ⟨w, _, r, rfl, hw, .wordTrue, hr⟩
    | wordFalse => exact ⟨w, _, r, rfl, hw, .wordFalse, hr⟩
  | .number n =>
    obtain ⟨w, s, r, rfl, hw, hs, hr⟩ := Spelled.inv h
    cases hs with
    | number hn => exact ⟨w, _, r, rfl, hw, .number hn, hr⟩
  | .string k =>
    obtain ⟨w, s, r, rfl, hw, hs, hr⟩ := Spelled.inv h
    cases hs with
    | string hk => exact ⟨w, _, r, rfl, hw, .string hk, hr⟩
  | .array [] =>
    obtain ⟨w, s, r, rfl, hw, hs, hr⟩ := Spelled.inv h
    obtain ⟨w', s', r', rfl, hw', hs', hr'⟩ := Spelled.inv hr
    cases hs
    cases hs'
    exact ⟨w, _, r', by simp, hw, .emptyArray hw', hr'⟩
  | .array (v :: items) =>
    simp only [Value.lexemes, List.cons_append, List.append_assoc, List.nil_append] at h
    obtain ⟨w, s, r, rfl, hw, hs, hr⟩ := Spelled.inv h
    cases hs
    obtain ⟨u, r', rfl, hu, hr'⟩ := spelled_elements (v :: items) (by simp) ls r hr
    exact ⟨w, _, r', by simp, hw, .array hu, hr'⟩
  | .object [] =>
    obtain ⟨w, s, r, rfl, hw, hs, hr⟩ := Spelled.inv h
    obtain ⟨w', s', r', rfl, hw', hs', hr'⟩ := Spelled.inv hr
    cases hs
    cases hs'
    exact ⟨w, _, r', by simp, hw, .emptyObject hw', hr'⟩
  | .object (m :: members) =>
    simp only [Value.lexemes, List.cons_append, List.append_assoc, List.nil_append] at h
    obtain ⟨w, s, r, rfl, hw, hs, hr⟩ := Spelled.inv h
    cases hs
    obtain ⟨u, r', rfl, hu, hr'⟩ := spelled_members (m :: members) (by simp) ls r hr
    exact ⟨w, _, r', by simp, hw, .object hu, hr'⟩

theorem spelled_elements (items : List Document) (hne : items ≠ []) (ls : List Lexeme) (t : Text)
    (h : Spelled (Value.itemLexemes items ++ .closeArray :: ls) t) :
    ∃ s r, t = s ++ ']' :: r ∧ ElementsText items s ∧ Spelled ls r := by
  match items with
  | [] => exact absurd rfl hne
  | [v] =>
    simp only [Value.itemLexemes, Value.moreItemLexemes, List.append_nil] at h
    obtain ⟨w, s, r, rfl, hw, hs, hr⟩ := spelled_value v _ t h
    obtain ⟨w', s', r', rfl, hw', hs', hr'⟩ := Spelled.inv hr
    cases hs'
    exact ⟨_, r', by simp, .last (.blanks hw hs hw'), hr'⟩
  | v :: v' :: items =>
    rw [Value.itemLexemes, List.append_assoc] at h
    obtain ⟨w, s, r, rfl, hw, hs, hr⟩ := spelled_value v _ t h
    obtain ⟨w', s', r', rfl, hw', hs', hr'⟩ := Spelled.inv hr
    cases hs'
    obtain ⟨u, r'', rfl, hu, hr''⟩ := spelled_elements (v' :: items) (by simp) ls r' hr'
    exact ⟨_, r'', by simp, .cons (.blanks hw hs hw') hu, hr''⟩

theorem spelled_members (members : List (Spelling × Document)) (hne : members ≠ [])
    (ls : List Lexeme) (t : Text)
    (h : Spelled (Value.memberLexemes members ++ .closeObject :: ls) t) :
    ∃ s r, t = s ++ '}' :: r ∧ MembersText members s ∧ Spelled ls r := by
  match members with
  | [] => exact absurd rfl hne
  | [(k, v)] =>
    simp only [Value.memberLexemes, Value.moreMemberLexemes, List.append_nil] at h
    obtain ⟨s₁, r, rfl, hs₁, hr⟩ := spelled_key h
    obtain ⟨w, s, r, rfl, hw, hs, hr⟩ := spelled_value v _ r hr
    obtain ⟨w', s', r', rfl, hw', hs', hr'⟩ := Spelled.inv hr
    cases hs'
    exact ⟨_, r', by simp, .last (hs₁ _ _ (.blanks hw hs hw')), hr'⟩
  | (k, v) :: (k', v') :: members =>
    simp only [Value.memberLexemes, List.cons_append, List.append_assoc] at h
    obtain ⟨s₁, r, rfl, hs₁, hr⟩ := spelled_key h
    obtain ⟨w, s, r, rfl, hw, hs, hr⟩ := spelled_value v _ r hr
    obtain ⟨w', s', r', rfl, hw', hs', hr'⟩ := Spelled.inv hr
    cases hs'
    obtain ⟨u, r'', rfl, hu, hr''⟩ := spelled_members ((k', v') :: members) (by simp) ls r' hr'
    exact ⟨_, r'', by simp, .cons (hs₁ _ _ (.blanks hw hs hw')) hu, hr''⟩

end

/-! ## What is spelled is read -/

theorem startsOutside_blank_append {w r : Text} (hw : Blank w)
    (hr : StartsOutside extendsNumber r) : StartsOutside extendsNumber (w ++ r) := by
  cases w with
  | nil => exact hr
  | cons c w =>
    intro d hd
    cases hd
    have hc := hw c List.mem_cons_self
    simp only [isSpace, Bool.or_eq_true, beq_iff_eq] at hc
    rcases hc with ((rfl | rfl) | rfl) | rfl <;> rfl

/-- After an element, another one can only follow behind a comma. -/
theorem moreItemLexemes_of_elementsText {items : List Document} {t : Text}
    (h : ElementsText items t) :
    Value.moreItemLexemes items = .comma :: Value.itemLexemes items := by
  cases h <;> rfl

theorem moreMemberLexemes_of_membersText {members : List (Spelling × Document)} {t : Text}
    (h : MembersText members t) :
    Value.moreMemberLexemes members = .comma :: Value.memberLexemes members := by
  cases h with
  | @last m _ _ => obtain ⟨k, v⟩ := m; rfl
  | @cons m _ _ _ _ _ => obtain ⟨k, v⟩ := m; rfl

/-- A mark is read as it stands, whatever follows it. -/
theorem lexemes?_mark {l : Lexeme} {c : Char} (h : LexemeText l [c]) (hl : ∀ n, l ≠ .number n)
    (r : Text) : lexemes? (c :: r) = (lexemes? r).map (l :: ·) :=
  lexemes?_append h fun n hn => absurd hn (hl n)

mutual

theorem lexemes?_value {v : Document} {s : Text} (h : ValueText v s) (r : Text)
    (hr : StartsOutside extendsNumber r) :
    lexemes? (s ++ r) = (lexemes? r).map (v.lexemes ++ ·) := by
  match h with
  | .wordNull => exact lexemes?_append .wordNull nofun
  | .wordTrue => exact lexemes?_append .wordTrue nofun
  | .wordFalse => exact lexemes?_append .wordFalse nofun
  | .number hn => exact lexemes?_append (.number hn) fun _ _ => hr
  | .string hs => exact lexemes?_append (.string hs) nofun
  | .emptyArray hw =>
    rw [List.cons_append, List.append_assoc, lexemes?_mark .openArray nofun,
      lexemes?_blank_append hw, List.singleton_append, lexemes?_mark .closeArray nofun,
      Option.map_map]
    rfl
  | .array ht =>
    have hitems := lexemes?_elements ht (']' :: r) (by intro c hc; cases hc; rfl)
    rw [List.cons_append, List.append_assoc, lexemes?_mark .openArray nofun,
      List.singleton_append, hitems, lexemes?_mark .closeArray nofun, Option.map_map,
      Option.map_map]
    congr 1
    funext ls
    simp [Value.lexemes]
  | .emptyObject hw =>
    rw [List.cons_append, List.append_assoc, lexemes?_mark .openObject nofun,
      lexemes?_blank_append hw, List.singleton_append, lexemes?_mark .closeObject nofun,
      Option.map_map]
    rfl
  | .object ht =>
    have hmembers := lexemes?_members ht ('}' :: r) (by intro c hc; cases hc; rfl)
    rw [List.cons_append, List.append_assoc, lexemes?_mark .openObject nofun,
      List.singleton_append, hmembers, lexemes?_mark .closeObject nofun, Option.map_map,
      Option.map_map]
    congr 1
    funext ls
    simp [Value.lexemes]

theorem lexemes?_element {v : Document} {t : Text} (h : ElementText v t) (r : Text)
    (hr : StartsOutside extendsNumber r) :
    lexemes? (t ++ r) = (lexemes? r).map (v.lexemes ++ ·) := by
  match h with
  | .blanks hw ht hw' =>
    rw [List.append_assoc, List.append_assoc, lexemes?_blank_append hw,
      lexemes?_value ht _ (startsOutside_blank_append hw' hr), lexemes?_blank_append hw']

theorem lexemes?_elements {items : List Document} {t : Text} (h : ElementsText items t) (r : Text)
    (hr : StartsOutside extendsNumber r) :
    lexemes? (t ++ r) = (lexemes? r).map (Value.itemLexemes items ++ ·) := by
  match h with
  | .last ht =>
    rw [lexemes?_element ht r hr]
    simp [Value.itemLexemes, Value.moreItemLexemes]
  | .cons (r := rest) ht hrest =>
    have hitems := lexemes?_elements hrest r hr
    rw [List.append_assoc, lexemes?_element ht _ (by intro c hc; cases hc; rfl), List.cons_append,
      lexemes?_mark .comma nofun, hitems, Option.map_map, Option.map_map]
    congr 1
    funext ls
    simp [Value.itemLexemes, moreItemLexemes_of_elementsText hrest]

theorem lexemes?_member {m : Spelling × Document} {t : Text} (h : MemberText m t) (r : Text)
    (hr : StartsOutside extendsNumber r) :
    lexemes? (t ++ r) =
      (lexemes? r).map fun ls => .string m.1 :: .colon :: (m.2.lexemes ++ ls) := by
  match h with
  | .pair hw hk hw' ht =>
    rw [List.append_assoc, List.append_assoc, List.append_assoc, lexemes?_blank_append hw,
      lexemes?_append (.string hk) nofun, lexemes?_blank_append hw', List.cons_append,
      lexemes?_mark .colon nofun, lexemes?_element ht r hr, Option.map_map, Option.map_map]
    rfl

theorem lexemes?_members {members : List (Spelling × Document)} {t : Text}
    (h : MembersText members t) (r : Text) (hr : StartsOutside extendsNumber r) :
    lexemes? (t ++ r) = (lexemes? r).map (Value.memberLexemes members ++ ·) := by
  match h with
  | .last (m := (k, v)) ht =>
    rw [lexemes?_member ht r hr]
    simp [Value.memberLexemes, Value.moreMemberLexemes]
  | .cons (m := (k, v)) ht hrest =>
    have hmembers := lexemes?_members hrest r hr
    rw [List.append_assoc, lexemes?_member ht _ (by intro c hc; cases hc; rfl), List.cons_append,
      lexemes?_mark .comma nofun, hmembers, Option.map_map, Option.map_map]
    congr 1
    funext ls
    simp [Value.memberLexemes, moreMemberLexemes_of_membersText hrest]

end

/-- The reader accepts the texts of the grammar and no others. -/
theorem parse?_eq_some_iff {t : Text} {v : Document} : parse? t = some v ↔ ElementText v t := by
  constructor
  · intro h
    obtain ⟨ls, hls, hv⟩ := Option.bind_eq_some_iff.mp h
    rw [ofLexemes?_eq_some_iff] at hv
    have hspelled := lexemes?_sound hls
    rw [hv, ← List.append_nil v.lexemes] at hspelled
    obtain ⟨w, s, r, rfl, hw, hs, hr⟩ := spelled_value v [] t hspelled
    cases hr with
    | nil hr => exact .blanks hw hs hr
  · intro h
    have hread := lexemes?_element h [] (by intro c hc; cases hc)
    rw [List.append_nil, lexemes?, Option.map_some, List.append_nil] at hread
    rw [parse?, hread]
    exact ofLexemes?_eq_some_iff.mpr rfl

end Grammar
end Json
end QueryView
