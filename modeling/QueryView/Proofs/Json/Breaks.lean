/-
Line ends in a JSON text.

A line end may stand between the lexemes of a JSON text, where it is a blank, and nowhere
else.  So taking line ends out of a JSON text leaves a JSON text, and one of the same
document (`ElementText.of_broken`).  Put the other way round: line ends that are put into a
text, wherever it may be, never make JSON of it, and if they leave it JSON they leave it as
it is laid out (`format?_of_broken`).
-/
import QueryView.Proofs.Json.Canonical
import QueryView.Proofs.Terminal.Wrap

namespace QueryView
namespace Json
namespace Grammar

open Terminal (Broken)

/-! ## Lexemes are on one line -/

/-- The characters that numbers are made of. -/
def standsInNumber (c : Char) : Bool := extendsNumber c || c == '+' || c == '-'

theorem standsInNumber_of_isDigit {c : Char} (h : Text.isDigit c = true) :
    standsInNumber c = true := by
  rw [standsInNumber, extendsNumber, h]
  rfl

theorem Digits.all_standsInNumber {t : Text} (h : Digits t) : t.all standsInNumber = true :=
  List.all_eq_true.mpr fun c hc => standsInNumber_of_isDigit (h.2 c hc)

theorem Whole.all_standsInNumber {t : Text} (h : Whole t) : t.all standsInNumber = true := by
  cases h with
  | zero => rfl
  | digits hc _ hr =>
    rw [List.all_cons, standsInNumber_of_isDigit hc, Bool.true_and, List.all_eq_true]
    exact fun d hd => standsInNumber_of_isDigit (hr d hd)

theorem Fraction.all_standsInNumber {t : Text} (h : Fraction t) :
    t.all standsInNumber = true := by
  cases h with
  | none => rfl
  | digits hd =>
    rw [List.all_cons, hd.all_standsInNumber]
    rfl

theorem Exponent.all_standsInNumber {t : Text} (h : Exponent t) :
    t.all standsInNumber = true := by
  cases h with
  | none => rfl
  | digits he hsign hd =>
    rw [List.all_cons, List.all_append, hd.all_standsInNumber]
    rcases he with rfl | rfl <;> rcases hsign with rfl | rfl | rfl <;> rfl

theorem Number.all_standsInNumber {t : Text} (h : Number t) : t.all standsInNumber = true := by
  obtain ⟨hsign, hwhole, hfraction, hexponent⟩ := h
  rw [List.all_append, List.all_append, List.all_append, hwhole.all_standsInNumber,
    hfraction.all_standsInNumber, hexponent.all_standsInNumber]
  rcases hsign with rfl | rfl <;> rfl

theorem Number.newline_not_mem {t : Text} (h : Number t) : '\n' ∉ t := by
  intro hmem
  cases List.all_eq_true.mp h.all_standsInNumber _ hmem

theorem fourDigits?_eq_none {a b c d x : Char} (hx : Text.hexValue? x = none)
    (h : x ∈ [a, b, c, d]) : fourDigits? a b c d = none := by
  simp only [List.mem_cons, List.not_mem_nil, or_false] at h
  unfold fourDigits?
  rcases h with rfl | rfl | rfl | rfl <;> simp [hx]

theorem UnitText.newline_not_mem {u : StringUnit} {t : Text} (h : UnitText u t) : '\n' ∉ t := by
  cases h with
  | plain _ _ hc =>
    rw [List.mem_singleton]
    rintro rfl
    exact hc (by decide)
  | @short e c he =>
    have hne : '\n' ≠ e := by
      rintro rfl
      cases he
    simp [hne]
  | @code a b c d n hn =>
    intro hmem
    have hdigits : '\n' ∈ [a, b, c, d] := by simpa using hmem
    rw [fourDigits?_eq_none (by decide) hdigits] at hn
    cases hn

theorem UnitsText.newline_not_mem {us : Spelling} {t : Text} (h : UnitsText us t) : '\n' ∉ t := by
  induction h with
  | nil => exact List.not_mem_nil
  | cons hu _ ih =>
    rw [List.mem_append, not_or]
    exact ⟨hu.newline_not_mem, ih⟩

theorem StringText.newline_not_mem {s : Spelling} {t : Text} (h : StringText s t) : '\n' ∉ t := by
  obtain ⟨u, hu, rfl⟩ := h
  simp [hu.newline_not_mem]

/-! ## Taking line ends out -/

theorem Blank.of_broken {t u : Text} (hbroken : Broken t u) (h : Blank u) : Blank t :=
  fun c hc => h c (hbroken.mem hc)

/-- What stands between two marks that are no line ends. -/
theorem enclosed_of_broken {t u : Text} {a z : Char} (ha : a ≠ '\n') (hz : z ≠ '\n')
    (hbroken : Broken t (a :: (u ++ [z]))) : ∃ s, t = a :: (s ++ [z]) ∧ Broken s u := by
  obtain ⟨r, rfl, hr⟩ := hbroken.tail ha
  obtain ⟨s, last, rfl, hs, hlast⟩ := hr.split
  have hmark : last = [z] := hlast.eq_of_not_mem (by simpa using hz.symm)
  exact ⟨s, by rw [hmark], hs⟩

mutual

theorem ValueText.of_broken {d : Document} {t u : Text} (hbroken : Broken t u)
    (h : ValueText d u) : ValueText d t := by
  match h with
  | .wordNull =>
    rw [hbroken.eq_of_not_mem (by decide)]
    exact .wordNull
  | .wordTrue =>
    rw [hbroken.eq_of_not_mem (by decide)]
    exact .wordTrue
  | .wordFalse =>
    rw [hbroken.eq_of_not_mem (by decide)]
    exact .wordFalse
  | .number hn =>
    rw [hbroken.eq_of_not_mem hn.newline_not_mem]
    exact .number hn
  | .string hs =>
    rw [hbroken.eq_of_not_mem hs.newline_not_mem]
    exact .string hs
  | .emptyArray hw =>
    obtain ⟨s, rfl, hs⟩ := enclosed_of_broken (by decide) (by decide) hbroken
    exact .emptyArray (hw.of_broken hs)
  | .array ht =>
    obtain ⟨s, rfl, hs⟩ := enclosed_of_broken (by decide) (by decide) hbroken
    exact .array (ht.of_broken hs)
  | .emptyObject hw =>
    obtain ⟨s, rfl, hs⟩ := enclosed_of_broken (by decide) (by decide) hbroken
    exact .emptyObject (hw.of_broken hs)
  | .object ht =>
    obtain ⟨s, rfl, hs⟩ := enclosed_of_broken (by decide) (by decide) hbroken
    exact .object (ht.of_broken hs)

theorem ElementText.of_broken {d : Document} {t u : Text} (hbroken : Broken t u)
    (h : ElementText d u) : ElementText d t := by
  match h with
  | .blanks hw hv hw' =>
    obtain ⟨a, r, rfl, ha, hr⟩ := hbroken.split
    obtain ⟨b, c, rfl, hb, hc⟩ := hr.split
    exact .blanks (hw.of_broken ha) (hv.of_broken hb) (hw'.of_broken hc)

theorem ElementsText.of_broken {items : List Document} {t u : Text} (hbroken : Broken t u)
    (h : ElementsText items u) : ElementsText items t := by
  match h with
  | .last he => exact .last (he.of_broken hbroken)
  | .cons he hrest =>
    obtain ⟨a, r, rfl, ha, hr⟩ := hbroken.split
    obtain ⟨b, rfl, hb⟩ := hr.tail (by decide)
    exact .cons (he.of_broken ha) (hrest.of_broken hb)

theorem MemberText.of_broken {m : Spelling × Document} {t u : Text} (hbroken : Broken t u)
    (h : MemberText m u) : MemberText m t := by
  match h with
  | .pair hw hk hw' he =>
    obtain ⟨a, r, rfl, ha, hr⟩ := hbroken.split
    obtain ⟨s, r, rfl, hs, hr⟩ := hr.split
    obtain ⟨b, r, rfl, hb, hr⟩ := hr.split
    obtain ⟨e, rfl, he'⟩ := hr.tail (by decide)
    rw [hs.eq_of_not_mem hk.newline_not_mem]
    exact .pair (hw.of_broken ha) hk (hw'.of_broken hb) (he.of_broken he')

theorem MembersText.of_broken {members : List (Spelling × Document)} {t u : Text}
    (hbroken : Broken t u) (h : MembersText members u) : MembersText members t := by
  match h with
  | .last hm => exact .last (hm.of_broken hbroken)
  | .cons hm hrest =>
    obtain ⟨a, r, rfl, ha, hr⟩ := hbroken.split
    obtain ⟨b, rfl, hb⟩ := hr.tail (by decide)
    exact .cons (hm.of_broken ha) (hrest.of_broken hb)

end

end Grammar

open Grammar Terminal

/-- Line ends that are put into a text do not make JSON of it, and where they leave it JSON
its layout stays. -/
theorem format?_of_broken {t u : Text} {ps : List Token} (hbroken : Broken t u)
    (h : format? u = some ps) : format? t = some ps := by
  obtain ⟨v, ⟨d, hd, hshows⟩, hps⟩ := format?_eq_some_iff.mp h
  exact format?_eq_some_iff.mpr ⟨v, ⟨d, hd.of_broken hbroken, hshows⟩, hps⟩

/-- A layout is laid out as it is. -/
theorem format?_concat {t : Text} {ps : List Token} (h : format? t = some ps) :
    format? (Token.concat ps) = some ps := by
  obtain ⟨v, hv, rfl⟩ := format?_eq_some_iff.mp h
  exact format?_eq_some_iff.mpr ⟨v, hasTree_concat_pieces hv.sound, rfl⟩

/-! ## The end of a layout -/

/-- A value ends with a mark or with the last character of a lexeme. -/
theorem Grammar.ValueText.getLast?_ne {d : Document} {t : Text} (h : ValueText d t) :
    t.getLast? ≠ some '\n' := by
  have hlexeme {s : Text} (hs : '\n' ∉ s) : s.getLast? ≠ some '\n' :=
    fun hlast => hs (List.mem_of_getLast? hlast)
  cases h with
  | wordNull | wordTrue | wordFalse => decide
  | number hn => exact hlexeme hn.newline_not_mem
  | string hs => exact hlexeme hs.newline_not_mem
  | emptyArray | array | emptyObject | object => simp [List.getLast?_cons]

end Json
end QueryView
