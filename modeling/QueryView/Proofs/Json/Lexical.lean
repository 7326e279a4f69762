/-
The lexical grammar of JSON, and the lexemes that the reader takes.

The grammar is that of RFC 8259: what a number is, which characters a string may hold and
how they may be written, what may stand between lexemes.  It is stated as relations on
texts, apart from the functions that cut a text into lexemes, and it is shown of each of
these that it takes just what the grammar says (`cut?_sound`, `cut?_complete`).

A number has no mark at its end.  The reader takes as much as it can, so a number that the
grammar finds is the one that the reader finds if what follows cannot belong to a number.
-/
import Mathlib.Data.List.TakeWhile
import QueryView.Json.Lexeme

namespace QueryView
namespace Json
namespace Grammar

open Text

/-! ## Numbers -/

def Digits (t : Text) : Prop := t ≠ [] ∧ ∀ c ∈ t, isDigit c = true

/-- A whole number does not start with a zero, unless it is zero. -/
inductive Whole : Text → Prop where
  | zero : Whole ['0']
  | digits {c : Char} {r : Text} : isDigit c = true → c ≠ '0' → (∀ d ∈ r, isDigit d = true) →
      Whole (c :: r)

inductive Fraction : Text → Prop where
  | none : Fraction []
  | digits {d : Text} : Digits d → Fraction ('.' :: d)

inductive Exponent : Text → Prop where
  | none : Exponent []
  | digits {e : Char} {sign d : Text} : e = 'e' ∨ e = 'E' →
      sign = [] ∨ sign = ['+'] ∨ sign = ['-'] → Digits d → Exponent (e :: (sign ++ d))

inductive Number : Text → Prop where
  | parts {sign whole fraction exponent : Text} : sign = [] ∨ sign = ['-'] → Whole whole →
      Fraction fraction → Exponent exponent →
      Number (sign ++ (whole ++ (fraction ++ exponent)))

/-! ## Strings -/

/-- The ways to write one unit of a string. -/
inductive UnitText : StringUnit → Text → Prop where
  | plain {c : Char} : c ≠ '\\' → c ≠ '"' → ¬ c.toNat < 0x20 → UnitText (.scalar c) [c]
  | short {e c : Char} : shortEscape? e = some c → UnitText (.scalar c) ['\\', e]
  | code {a b c d : Char} {n : Nat} : fourDigits? a b c d = some n →
      UnitText (.code n) ['\\', 'u', a, b, c, d]

inductive UnitsText : Spelling → Text → Prop where
  | nil : UnitsText [] []
  | cons {u : StringUnit} {us : Spelling} {s t : Text} : UnitText u s → UnitsText us t →
      UnitsText (u :: us) (s ++ t)

/-- A string between its quotation marks. -/
def StringText (s : Spelling) (t : Text) : Prop := ∃ u, UnitsText s u ∧ t = '"' :: (u ++ ['"'])

/-! ## Lexemes -/

/-- The text of a lexeme. -/
inductive LexemeText : Lexeme → Text → Prop where
  | openArray : LexemeText .openArray ['[']
  | closeArray : LexemeText .closeArray [']']
  | openObject : LexemeText .openObject ['{']
  | closeObject : LexemeText .closeObject ['}']
  | comma : LexemeText .comma [',']
  | colon : LexemeText .colon [':']
  | wordNull : LexemeText .null "null".toList
  | wordTrue : LexemeText (.bool true) "true".toList
  | wordFalse : LexemeText (.bool false) "false".toList
  | number {t : Text} : Number t → LexemeText (.number t) t
  | string {s : Spelling} {t : Text} : StringText s t → LexemeText (.string s) t

/-- What may stand between lexemes. -/
def Blank (w : Text) : Prop := ∀ c ∈ w, isSpace c = true

/-! ## Numbers are found -/

/-- The text does not start with a character of the class. -/
def StartsOutside (p : Char → Bool) (r : Text) : Prop := ∀ c, r.head? = some c → p c = false

/-- The characters by which a number may go on. -/
def extendsNumber (c : Char) : Bool := isDigit c || c == '.' || c == 'e' || c == 'E'

variable {r : Text}

theorem StartsOutside.digits (h : StartsOutside extendsNumber r) : StartsOutside isDigit r := by
  intro c hc
  have hn := h c hc
  simp only [extendsNumber, Bool.or_eq_false_iff] at hn
  exact hn.1.1.1

theorem takeWhile_append_of_startsOutside {p : Char → Bool} {d : Text}
    (hd : ∀ c ∈ d, p c = true) (hr : StartsOutside p r) : (d ++ r).takeWhile p = d := by
  rw [List.takeWhile_append_of_pos hd]
  cases r with
  | nil => simp
  | cons c r => rw [List.takeWhile_cons_of_neg (by simp [hr c rfl]), List.append_nil]

theorem dropWhile_append_of_startsOutside {p : Char → Bool} {d : Text}
    (hd : ∀ c ∈ d, p c = true) (hr : StartsOutside p r) : (d ++ r).dropWhile p = r := by
  rw [List.dropWhile_append_of_pos hd]
  cases r with
  | nil => simp
  | cons c r => rw [List.dropWhile_cons_of_neg (by simp [hr c rfl])]

theorem cutDigits?_complete {d : Text} (hd : Digits d) (hr : StartsOutside isDigit r) :
    cutDigits? (d ++ r) = some (d, r) := by
  rw [cutDigits?, takeWhile_append_of_startsOutside hd.2 hr,
    dropWhile_append_of_startsOutside hd.2 hr, if_neg (by simpa using hd.1)]

theorem cutDigits?_sound {t d : Text} (h : cutDigits? t = some (d, r)) : Digits d := by
  unfold cutDigits? at h
  split at h
  · cases h
  · next hne =>
    cases h
    exact ⟨by simpa using hne, fun c hc => List.mem_takeWhile_imp hc⟩

theorem cutWhole?_complete {w : Text} (hw : Whole w) (hr : StartsOutside isDigit r) :
    cutWhole? (w ++ r) = some (w, r) := by
  cases hw with
  | zero => rfl
  | @digits c d hc hne hd =>
    rw [List.cons_append, cutWhole?, if_neg hne, if_pos hc,
      takeWhile_append_of_startsOutside hd hr, dropWhile_append_of_startsOutside hd hr]

theorem cutWhole?_sound {t w : Text} (h : cutWhole? t = some (w, r)) : Whole w := by
  unfold cutWhole? at h
  split at h
  · cases h
  · split at h
    · next hc =>
      cases h
      rw [hc]
      exact .zero
    · next hne =>
      split at h
      · next hc =>
        cases h
        exact .digits hc hne fun d hd => List.mem_takeWhile_imp hd
      · cases h

theorem cutFraction?_complete {f : Text} (hf : Fraction f) (hr : StartsOutside isDigit r)
    (hdot : r.head? ≠ some '.') : cutFraction? (f ++ r) = some (f, r) := by
  cases hf with
  | none =>
    rw [List.nil_append]
    unfold cutFraction?
    split
    · exact absurd rfl hdot
    · rfl
  | digits hd =>
    rw [List.cons_append, cutFraction?, cutDigits?_complete hd hr]
    rfl

theorem cutFraction?_sound {t f : Text} (h : cutFraction? t = some (f, r)) : Fraction f := by
  unfold cutFraction? at h
  split at h
  · obtain ⟨⟨d, r'⟩, hd, h⟩ := Option.map_eq_some_iff.mp h
    cases h
    exact .digits (cutDigits?_sound hd)
  · cases h
    exact .none

theorem cutSign_append_digits {sign d : Text} (hsign : sign = [] ∨ sign = ['+'] ∨ sign = ['-'])
    (hd : Digits d) : cutSign (sign ++ (d ++ r)) = (sign, d ++ r) := by
  obtain ⟨c, d', rfl⟩ := List.exists_cons_of_ne_nil hd.1
  have hc : isDigit c = true := hd.2 c List.mem_cons_self
  rcases hsign with rfl | rfl | rfl
  · unfold cutSign
    split
    · next h => cases h; cases hc
    · next h => cases h; cases hc
    · rfl
  · rfl
  · rfl

theorem cutSign_fst (t : Text) :
    (cutSign t).1 = [] ∨ (cutSign t).1 = ['+'] ∨ (cutSign t).1 = ['-'] := by
  unfold cutSign
  split <;> simp

theorem cutExponent?_complete {x : Text} (hx : Exponent x) (hr : StartsOutside extendsNumber r) :
    cutExponent? (x ++ r) = some (x, r) := by
  cases hx with
  | none =>
    cases r with
    | nil => rfl
    | cons c r =>
      have hc := hr c rfl
      have hne : ¬ (c = 'e' ∨ c = 'E') := by
        intro h
        rcases h with rfl | rfl <;> cases hc
      rw [List.nil_append, cutExponent?, if_neg hne]
  | @digits e sign d he hsign hd =>
    rw [List.cons_append, List.append_assoc, cutExponent?, if_pos he,
      cutSign_append_digits hsign hd, cutDigits?_complete hd hr.digits]
    rfl

theorem cutExponent?_sound {t x : Text} (h : cutExponent? t = some (x, r)) : Exponent x := by
  unfold cutExponent? at h
  split at h
  · cases h
    exact .none
  · split at h
    · next he =>
      obtain ⟨⟨d, r'⟩, hd, h⟩ := Option.map_eq_some_iff.mp h
      cases h
      exact .digits he (cutSign_fst _) (cutDigits?_sound hd)
    · cases h
      exact .none

/-- What follows the whole part of a number goes on with no digit: a fraction starts with a
point, an exponent with a letter. -/
theorem startsOutside_exponent {x : Text} (hx : Exponent x)
    (hr : StartsOutside extendsNumber r) :
    StartsOutside isDigit (x ++ r) ∧ (x ++ r).head? ≠ some '.' := by
  cases hx with
  | none =>
    refine ⟨hr.digits, fun hdot => ?_⟩
    have hc := hr _ hdot
    cases hc
  | digits he _ _ =>
    refine ⟨?_, ?_⟩
    · intro c hhead
      cases hhead
      rcases he with rfl | rfl <;> rfl
    · intro h
      cases h
      rcases he with he | he <;> cases he

theorem startsOutside_fraction {f s : Text} (hf : Fraction f) (hs : StartsOutside isDigit s) :
    StartsOutside isDigit (f ++ s) := by
  cases hf with
  | none => exact hs
  | digits _ =>
    intro c hc
    cases hc
    rfl

theorem cutUnsigned?_complete {w f x : Text} (hw : Whole w) (hf : Fraction f) (hx : Exponent x)
    (hr : StartsOutside extendsNumber r) :
    cutUnsigned? (w ++ (f ++ (x ++ r))) = some (w ++ (f ++ x), r) := by
  obtain ⟨hdigit, hdot⟩ := startsOutside_exponent hx hr
  rw [cutUnsigned?, cutWhole?_complete hw (startsOutside_fraction hf hdigit)]
  simp only [Option.bind_eq_bind, Option.bind_some, cutFraction?_complete hf hdigit hdot,
    cutExponent?_complete hx hr, Option.pure_def]

theorem cutUnsigned?_sound {t a : Text} (h : cutUnsigned? t = some (a, r)) :
    ∃ w f x, Whole w ∧ Fraction f ∧ Exponent x ∧ a = w ++ (f ++ x) := by
  simp only [cutUnsigned?, bind, Option.bind_eq_some_iff, pure, Option.some.injEq,
    Prod.mk.injEq] at h
  obtain ⟨⟨w, t₁⟩, hw, ⟨f, t₂⟩, hf, ⟨x, t₃⟩, hx, rfl, rfl⟩ := h
  exact ⟨w, f, x, cutWhole?_sound hw, cutFraction?_sound hf, cutExponent?_sound hx, rfl⟩

theorem Whole.head {w : Text} (hw : Whole w) : ∃ c d, w = c :: d ∧ isDigit c = true := by
  cases hw with
  | zero => exact ⟨'0', [], rfl, rfl⟩
  | @digits c d hc _ _ => exact ⟨c, d, rfl, hc⟩

/-- A number starts with its sign or with a digit. -/
theorem Number.head {n : Text} (hn : Number n) :
    ∃ c m, n = c :: m ∧ (c = '-' ∨ isDigit c = true) := by
  obtain @⟨sign, w, f, x, hsign, hw, _, _⟩ := hn
  rcases hsign with rfl | rfl
  · obtain ⟨c, d, rfl, hc⟩ := hw.head
    exact ⟨c, _, rfl, .inr hc⟩
  · exact ⟨'-', _, rfl, .inl rfl⟩

theorem cutNumber?_complete {n : Text} (hn : Number n) (hr : StartsOutside extendsNumber r) :
    cutNumber? (n ++ r) = some (n, r) := by
  obtain @⟨sign, w, f, x, hsign, hw, hf, hx⟩ := hn
  have hcut := cutUnsigned?_complete hw hf hx hr
  rcases hsign with rfl | rfl
  · obtain ⟨c, d, rfl, hc⟩ := hw.head
    simp only [List.nil_append, List.append_assoc]
    unfold cutNumber?
    split
    · next h =>
      cases h
      cases hc
    · exact hcut
  · simp only [List.cons_append, List.nil_append, List.append_assoc, cutNumber?, hcut]
    rfl

theorem cutNumber?_sound {t n : Text} (h : cutNumber? t = some (n, r)) : Number n := by
  unfold cutNumber? at h
  split at h
  · obtain ⟨⟨a, r'⟩, ha, h⟩ := Option.map_eq_some_iff.mp h
    cases h
    obtain ⟨w, f, x, hw, hf, hx, rfl⟩ := cutUnsigned?_sound ha
    exact .parts (.inr rfl) hw hf hx
  · obtain ⟨w, f, x, hw, hf, hx, rfl⟩ := cutUnsigned?_sound h
    exact .parts (.inl rfl) hw hf hx

/-! ## Strings are found -/

theorem cutUnit?_complete {u : StringUnit} {s : Text} (h : UnitText u s) :
    cutUnit? (s ++ r) = some (u, r) := by
  cases h with
  | @plain c hb hq hc =>
    unfold cutUnit?
    split
    · next h => exact absurd (List.cons.inj h).1 hb
    · next h => exact absurd (List.cons.inj h).1 hb
    · next h =>
      cases h
      rw [if_neg (by simp only [hb, hq, hc, or_self, not_false_iff])]
      rfl
    · next h => cases h
  | @short e c he =>
    unfold cutUnit?
    split
    · next h =>
      cases h
      cases he
    · next h =>
      cases h
      rw [he]
      rfl
    · next hnot h =>
      cases h
      exact absurd rfl (hnot e r rfl)
    · next h => cases h
  | code hn =>
    simp only [List.cons_append, List.nil_append, cutUnit?, hn]
    rfl

theorem cutUnit?_sound {t : Text} {u : StringUnit} (h : cutUnit? t = some (u, r)) :
    ∃ s, UnitText u s ∧ t = s ++ r := by
  unfold cutUnit? at h
  split at h
  · obtain ⟨n, hn, h⟩ := Option.map_eq_some_iff.mp h
    cases h
    exact ⟨_, .code hn, rfl⟩
  · obtain ⟨c, hc, h⟩ := Option.map_eq_some_iff.mp h
    cases h
    exact ⟨_, .short hc, rfl⟩
  · next c r' _ _ =>
    split at h
    · cases h
    · next hc =>
      cases h
      obtain ⟨hb, hq, hc⟩ := not_or.mp hc |>.imp_right not_or.mp
      exact ⟨_, .plain hb hq hc, rfl⟩
  · cases h

/-- No unit starts with a quotation mark, so the first of these ends the string. -/
theorem UnitText.head?_append_ne {u : StringUnit} {s : Text} (h : UnitText u s) (r : Text) :
    (s ++ r).head? ≠ some '"' := by
  cases h with
  | plain hb hq hc => simpa using hq
  | short he => simp
  | code hn => simp

theorem cutString?_complete {s : Spelling} {u : Text} (h : UnitsText s u) :
    cutString? (u ++ '"' :: r) = some (s, r) := by
  induction h with
  | nil =>
    rw [List.nil_append, cutString?, if_pos List.head?_cons]
    rfl
  | cons hu _ ih =>
    rw [List.append_assoc, cutString?, if_neg (hu.head?_append_ne _)]
    split
    · next h =>
      rw [cutUnit?_complete hu] at h
      cases h
    · next h =>
      rw [cutUnit?_complete hu] at h
      cases h
      rw [ih]
      rfl

theorem cutString?_sound {t : Text} {s : Spelling} (h : cutString? t = some (s, r)) :
    ∃ u, UnitsText s u ∧ t = u ++ '"' :: r := by
  fun_induction cutString? t generalizing s with
  | case1 t hq =>
    cases h
    obtain ⟨r, rfl⟩ := List.head?_eq_some_iff.mp hq
    exact ⟨[], .nil, rfl⟩
  | case2 => cases h
  | case3 t _ u rest hu ih =>
    obtain ⟨⟨s', r'⟩, hs, h⟩ := Option.map_eq_some_iff.mp h
    cases h
    obtain ⟨v, hv, rfl⟩ := ih hs
    obtain ⟨w, hw, rfl⟩ := cutUnit?_sound hu
    exact ⟨w ++ v, .cons hw hv, by rw [List.append_assoc]⟩

/-! ## Lexemes are found -/

theorem dropWord?_complete (word : Text) : dropWord? word (word ++ r) = some r := by
  induction word with
  | nil => rfl
  | cons c word ih => rw [List.cons_append, dropWord?, if_pos rfl, ih]

/-- Numbers need to be told apart from what follows them; all other lexemes have an end of
their own. -/
theorem cut?_complete {l : Lexeme} {s : Text} (h : LexemeText l s)
    (hr : ∀ n, l = .number n → StartsOutside extendsNumber r) :
    Lexeme.cut? (s ++ r) = some (l, r) := by
  cases h with
  | openArray | closeArray | openObject | closeObject | comma | colon => rfl
  | wordNull => exact congrArg (Option.map _) (dropWord?_complete "ull".toList)
  | wordTrue => exact congrArg (Option.map _) (dropWord?_complete "rue".toList)
  | wordFalse => exact congrArg (Option.map _) (dropWord?_complete "alse".toList)
  | number hn =>
    have hcut := cutNumber?_complete hn (hr _ rfl)
    obtain ⟨c, m, rfl, hc⟩ := hn.head
    rw [List.cons_append] at hcut ⊢
    unfold Lexeme.cut?
    split
    case h_1 h => cases h
    case h_12 =>
      rw [hcut]
      rfl
    all_goals
      next h =>
        cases h
        exact absurd hc (by decide)
  | string hs =>
    obtain ⟨u, hu, rfl⟩ := hs
    rw [List.cons_append, List.append_assoc, Lexeme.cut?, List.singleton_append,
      cutString?_complete hu]
    rfl

theorem cut?_sound {t : Text} {l : Lexeme} (h : Lexeme.cut? t = some (l, r)) :
    ∃ s, LexemeText l s ∧ t = s ++ r := by
  unfold Lexeme.cut? at h
  split at h
  case h_1 => cases h
  case h_2 => cases h; exact ⟨_, .openArray, rfl⟩
  case h_3 => cases h; exact ⟨_, .closeArray, rfl⟩
  case h_4 => cases h; exact ⟨_, .openObject, rfl⟩
  case h_5 => cases h; exact ⟨_, .closeObject, rfl⟩
  case h_6 => cases h; exact ⟨_, .comma, rfl⟩
  case h_7 => cases h; exact ⟨_, .colon, rfl⟩
  case h_8 =>
    obtain ⟨⟨s, r'⟩, hs, h⟩ := Option.map_eq_some_iff.mp h
    cases h
    obtain ⟨u, hu, rfl⟩ := cutString?_sound hs
    exact ⟨_, .string ⟨u, hu, rfl⟩, by simp⟩
  case h_9 =>
    obtain ⟨r', hw, h⟩ := Option.map_eq_some_iff.mp h
    cases h
    exact ⟨_, .wordNull, congrArg (List.cons 'n') (dropWord?_append hw).symm⟩
  case h_10 =>
    obtain ⟨r', hw, h⟩ := Option.map_eq_some_iff.mp h
    cases h
    exact ⟨_, .wordTrue, congrArg (List.cons 't') (dropWord?_append hw).symm⟩
  case h_11 =>
    obtain ⟨r', hw, h⟩ := Option.map_eq_some_iff.mp h
    cases h
    exact ⟨_, .wordFalse, congrArg (List.cons 'f') (dropWord?_append hw).symm⟩
  case h_12 =>
    obtain ⟨⟨n, r'⟩, hn, h⟩ := Option.map_eq_some_iff.mp h
    cases h
    exact ⟨n, .number (cutNumber?_sound hn), (cutNumber?_append hn).1.symm⟩

/-! ## All lexemes of a text -/

/-- A text made up of lexemes with blanks around them. -/
inductive Spelled : List Lexeme → Text → Prop where
  | nil {w : Text} : Blank w → Spelled [] w
  | cons {l : Lexeme} {ls : List Lexeme} {w s r : Text} : Blank w → LexemeText l s →
      Spelled ls r → Spelled (l :: ls) (w ++ (s ++ r))

theorem blank_cons {c : Char} {w : Text} (hc : isSpace c = true) (hw : Blank w) :
    Blank (c :: w) := by
  intro d hd
  rcases List.mem_cons.mp hd with rfl | hd
  · exact hc
  · exact hw d hd

theorem blank_append {v w : Text} (hv : Blank v) (hw : Blank w) : Blank (v ++ w) := by
  intro c hc
  exact (List.mem_append.mp hc).elim (hv c) (hw c)

theorem Spelled.blank_append {ls : List Lexeme} {w t : Text} (hw : Blank w) (h : Spelled ls t) :
    Spelled ls (w ++ t) := by
  cases h with
  | nil hv => exact .nil (Grammar.blank_append hw hv)
  | cons hv hs hr =>
    rw [← List.append_assoc]
    exact .cons (Grammar.blank_append hw hv) hs hr

theorem lexemes?_sound {t : Text} {ls : List Lexeme} (h : lexemes? t = some ls) :
    Spelled ls t := by
  fun_induction lexemes? t generalizing ls with
  | case1 =>
    cases h
    exact .nil (by simp [Blank])
  | case2 c r hc ih => exact (ih h).blank_append (w := [c]) (by simpa [Blank] using hc)
  | case3 => cases h
  | case4 c r hc l rest hl ih =>
    obtain ⟨ls', hls, rfl⟩ := Option.map_eq_some_iff.mp h
    obtain ⟨s, hs, ht⟩ := cut?_sound hl
    rw [ht]
    exact .cons (w := []) (by simp [Blank]) hs (ih hls)

theorem lexemes?_blank_append {w : Text} (hw : Blank w) (t : Text) :
    lexemes? (w ++ t) = lexemes? t := by
  induction w with
  | nil => rfl
  | cons c w ih =>
    have hc : isSpace c = true := hw c List.mem_cons_self
    rw [List.cons_append, lexemes?, if_pos hc]
    exact ih fun d hd => hw d (List.mem_cons_of_mem c hd)

theorem LexemeText.head {l : Lexeme} {s : Text} (h : LexemeText l s) :
    ∃ c m, s = c :: m ∧ isSpace c = false := by
  cases h with
  | openArray | closeArray | openObject | closeObject | comma | colon => exact ⟨_, _, rfl, rfl⟩
  | wordNull | wordTrue | wordFalse => exact ⟨_, _, rfl, rfl⟩
  | number hn =>
    obtain ⟨c, m, rfl, hc⟩ := hn.head
    refine ⟨c, m, rfl, Bool.eq_false_iff.mpr fun hspace => ?_⟩
    simp only [isSpace, Bool.or_eq_true, beq_iff_eq] at hspace
    rcases hspace with ((rfl | rfl) | rfl) | rfl <;> exact absurd hc (by decide)
  | string hs =>
    obtain ⟨u, hu, rfl⟩ := hs
    exact ⟨_, _, rfl, rfl⟩

/-- A lexeme at the front of a text is the first that is read. -/
theorem lexemes?_append {l : Lexeme} {s : Text} (h : LexemeText l s)
    (hr : ∀ n, l = .number n → StartsOutside extendsNumber r) :
    lexemes? (s ++ r) = (lexemes? r).map (l :: ·) := by
  have hcut := cut?_complete h hr
  obtain ⟨c, m, rfl, hc⟩ := h.head
  rw [List.cons_append] at hcut ⊢
  rw [lexemes?, if_neg (by simp [hc])]
  split
  · next hnone =>
    rw [hcut] at hnone
    cases hnone
  · next hsome =>
    rw [hcut] at hsome
    cases hsome
    rfl

end Grammar
end Json
end QueryView
