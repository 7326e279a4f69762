/-
The numbers that are written are numbers.

Integers are written in decimal, and floats with a plain point or with an exponent.  Either
way the text is a number of the grammar (`number_ofInt`, `number_of_write?`): no whole part
has a zero in front that is not all of it, no point is without digits on both sides, and no
exponent is without digits.  An integer is written exactly, so its text reads back as the
integer (`intValue_ofInt`).
-/
import QueryView.Numeric.DecimalText
import QueryView.Proofs.Json.Lexical

namespace QueryView

/-! ## Decimal digits -/

namespace Text

theorem isDigit_of_mem_ofNat {n : Nat} {c : Char} (h : c ∈ ofNat n) : isDigit c = true := by
  have hdigit : c.isDigit = true := Nat.isDigit_of_mem_toDigits (by decide) (by decide) h
  simp only [Char.isDigit, ge_iff_le, Bool.and_eq_true, decide_eq_true_eq] at hdigit
  exact decide_eq_true ⟨hdigit.1, hdigit.2⟩

theorem ofNat_ne_nil (n : Nat) : ofNat n ≠ [] := Nat.toDigits_ne_nil

/-- A number other than zero does not start with a zero. -/
theorem head?_ofNat_ne {n : Nat} (hn : n ≠ 0) : (ofNat n).head? ≠ some '0' := by
  induction n using Nat.strongRecOn with
  | ind n ih =>
    rw [ofNat, Nat.toDigits_eq_if (by decide)]
    split
    · simpa using hn
    · next hlarge =>
      have hsmaller : n / 10 ≠ 0 := by omega
      obtain ⟨c, r, hdigits⟩ := List.exists_cons_of_ne_nil (ofNat_ne_nil (n / 10))
      have hhead := ih (n / 10) (by omega) hsmaller
      rw [hdigits] at hhead
      rw [← ofNat, hdigits]
      exact hhead

theorem digitsValue_ofNat (n : Nat) : digitsValue (ofNat n) = n :=
  Nat.ofDigitChars_toDigits (by decide) (by decide)

/-- The integer that decimal digits stand for, with or without a minus sign. -/
def intValue : Text → Int
  | '-' :: digits => -digitsValue digits
  | digits => digitsValue digits

theorem intValue_ofInt (i : Int) : intValue (ofInt i) = i := by
  cases i with
  | ofNat n =>
    have hvalue : intValue (ofNat n) = digitsValue (ofNat n) := by
      unfold intValue
      split
      · next digits h =>
        have hmem : '-' ∈ ofNat n := by
          rw [h]
          exact List.mem_cons_self
        cases isDigit_of_mem_ofNat hmem
      · rfl
    rw [ofInt, hvalue, digitsValue_ofNat]
    rfl
  | negSucc n =>
    rw [ofInt, intValue, digitsValue_ofNat]
    rfl

end Text

namespace Json
namespace Grammar

open Text

theorem digits_ofNat (n : Nat) : Digits (ofNat n) := ⟨ofNat_ne_nil n, fun _ => isDigit_of_mem_ofNat⟩

/-- Digits of which the first is no zero. -/
structure Leading (t : Text) : Prop extends digits : Digits t where
  head : t.head? ≠ some '0'

theorem leading_ofNat {n : Nat} (hn : n ≠ 0) : Leading (ofNat n) :=
  ⟨digits_ofNat n, head?_ofNat_ne hn⟩

theorem Leading.exists_cons {t : Text} (h : Leading t) :
    ∃ c r, t = c :: r ∧ isDigit c = true ∧ c ≠ '0' ∧ ∀ d ∈ r, isDigit d = true := by
  obtain ⟨c, r, rfl⟩ := List.exists_cons_of_ne_nil h.digits.1
  refine ⟨c, r, rfl, h.digits.2 c List.mem_cons_self, ?_,
    fun d hd => h.digits.2 d (List.mem_cons_of_mem c hd)⟩
  rintro rfl
  exact h.head rfl

theorem Leading.append {t u : Text} (h : Leading t) (hu : ∀ c ∈ u, isDigit c = true) :
    Leading (t ++ u) := by
  obtain ⟨c, r, rfl, hc, hne, hr⟩ := h.exists_cons
  refine ⟨⟨List.cons_ne_nil _ _, fun d hd => ?_⟩, by simpa using hne⟩
  rcases List.mem_append.mp hd with hd | hd
  · exact h.digits.2 d hd
  · exact hu d hd

theorem Leading.take {t : Text} (h : Leading t) {k : Nat} (hk : k ≠ 0) : Leading (t.take k) := by
  obtain ⟨c, r, rfl, hc, hne, hr⟩ := h.exists_cons
  obtain ⟨k, rfl⟩ := Nat.exists_eq_succ_of_ne_zero hk
  rw [List.take_succ_cons]
  refine ⟨⟨List.cons_ne_nil _ _, fun d hd => ?_⟩, by simpa using hne⟩
  rcases List.mem_cons.mp hd with rfl | hd
  · exact hc
  · exact hr d (List.mem_of_mem_take hd)

theorem Leading.whole {t : Text} (h : Leading t) : Whole t := by
  obtain ⟨c, r, rfl, hc, hne, hr⟩ := h.exists_cons
  exact .digits hc hne hr

theorem whole_ofNat (n : Nat) : Whole (ofNat n) := by
  by_cases hn : n = 0
  · subst hn
    exact .zero
  · exact (leading_ofNat hn).whole

/-! ## Numbers without a sign -/

/-- A number that has no sign. -/
def Unsigned (t : Text) : Prop :=
  ∃ w f x, Whole w ∧ Fraction f ∧ Exponent x ∧ t = w ++ (f ++ x)

theorem Unsigned.number {t : Text} (h : Unsigned t) : Number t := by
  obtain ⟨w, f, x, hw, hf, hx, rfl⟩ := h
  exact .parts (.inl rfl) hw hf hx

theorem Unsigned.number_minus {t : Text} (h : Unsigned t) : Number ('-' :: t) := by
  obtain ⟨w, f, x, hw, hf, hx, rfl⟩ := h
  exact .parts (.inr rfl) hw hf hx

theorem Whole.unsigned {t : Text} (h : Whole t) : Unsigned t :=
  ⟨t, [], [], h, .none, .none, (List.append_nil t).symm⟩

theorem number_ofInt (i : Int) : Number (ofInt i) := by
  cases i with
  | ofNat n => exact (whole_ofNat n).unsigned.number
  | negSucc n => exact (whole_ofNat (n + 1)).unsigned.number_minus

theorem isDigit_of_mem_zeros {k : Nat} {c : Char} (h : c ∈ List.replicate k '0') :
    isDigit c = true := by
  rw [List.eq_of_mem_replicate h]
  rfl

/-- A plain point has digits on both sides. -/
theorem unsigned_plain {digits : Text} (h : Leading digits) (point : Int) :
    Unsigned (Numeric.DecimalStyle.plain digits point) := by
  unfold Numeric.DecimalStyle.plain
  split
  · -- All digits stand behind the point.
    have hfraction : Digits (List.replicate (-point).toNat '0' ++ digits) := by
      refine ⟨List.append_ne_nil_of_right_ne_nil _ h.digits.1, fun c hc => ?_⟩
      exact (List.mem_append.mp hc).elim isDigit_of_mem_zeros (h.digits.2 c)
    exact ⟨['0'], _, [], .zero, .digits hfraction, .none, by simp⟩
  · next hpositive =>
    split
    · -- All digits stand in front of it.
      have hwhole : Whole (digits ++ List.replicate (point - digits.length).toNat '0') :=
        (h.append fun c hc => isDigit_of_mem_zeros hc).whole
      exact ⟨_, ['.', '0'], [], hwhole, .digits ⟨List.cons_ne_nil _ _, by simp [isDigit]⟩, .none,
        by simp⟩
    · next hinside =>
      have hwhole := (h.take (k := point.toNat) (by omega)).whole
      have hfraction : Digits (digits.drop point.toNat) := by
        refine ⟨?_, fun c hc => h.digits.2 c (List.mem_of_mem_drop hc)⟩
        rw [ne_eq, List.drop_eq_nil_iff]
        omega
      exact ⟨_, _, [], hwhole, .digits hfraction, .none, by simp⟩

theorem unsigned_scientific {digits : Text} (h : Leading digits) (power : Int) :
    Unsigned (Numeric.DecimalStyle.scientific digits power) := by
  have hexponent : Exponent ('e' :: (if power < 0 then '-' else '+') :: ofNat power.natAbs) := by
    have hsign (sign : Text) (hs : sign = [] ∨ sign = ['+'] ∨ sign = ['-']) :
        Exponent ('e' :: (sign ++ ofNat power.natAbs)) := .digits (.inl rfl) hs (digits_ofNat _)
    split
    · exact hsign ['-'] (.inr (.inr rfl))
    · exact hsign ['+'] (.inr (.inl rfl))
  unfold Numeric.DecimalStyle.scientific
  split
  · next first second rest =>
    have hfirst : Whole [first] := (h.take (k := 1) (by decide)).whole
    have hfraction : Digits (second :: rest) :=
      ⟨List.cons_ne_nil _ _, fun c hc => h.digits.2 c (List.mem_cons_of_mem first hc)⟩
    exact ⟨_, _, _, hfirst, .digits hfraction, hexponent, rfl⟩
  · exact ⟨_, [], _, h.whole, .none, hexponent, rfl⟩

theorem unsigned_write (style : Numeric.DecimalStyle) (d : Numeric.Decimal) :
    Unsigned (style.write d) := by
  unfold Numeric.DecimalStyle.write
  split
  · exact ⟨['0'], ['.', '0'], [], .zero, .digits ⟨List.cons_ne_nil _ _, by simp [isDigit]⟩, .none,
      rfl⟩
  · next hdigits =>
    have hleading := leading_ofNat hdigits
    simp only
    split
    · exact unsigned_plain hleading _
    · exact unsigned_scientific hleading _

/-- What a binary number is written as is a number. -/
theorem number_of_write? {f : Numeric.Format} {style : Numeric.DecimalStyle} {x : Numeric.Binary}
    {t : Text} (h : Numeric.Binary.write? f style x = some t) : Number t := by
  cases x with
  | finite negative significand exponent =>
    cases h
    split
    · exact (unsigned_write _ _).number_minus
    · exact (unsigned_write _ _).number
  | infinite negative => cases h
  | nan => cases h

end Grammar
end Json
end QueryView
