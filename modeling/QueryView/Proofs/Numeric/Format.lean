/-
Numbers of a format.

`Fits` says which numbers a format has.  They and the bits of the format tell each other: what bits
stand for is a number of the format, and a number of the format comes back from its bits
(`decode_encode`).  Rounding makes numbers of the format and nothing else (`fits_round`), so what
is rounded can be kept by its bits.
-/
import Mathlib.Algebra.Order.Field.Power
import Mathlib.Tactic.Linarith
import QueryView.Numeric.Single

namespace QueryView
namespace Numeric
namespace Format

/-- There is room for a fraction and for numbers that are neither zero nor infinite. -/
structure Roomy (f : Format) : Prop where
  precision : 2 ≤ f.precision
  exponentBits : 2 ≤ f.exponentBits

theorem roomy_single : single.Roomy := ⟨by decide, by decide⟩

/-- The number is one of the format. -/
def Fits (f : Format) : Binary → Prop
  | .finite _ significand exponent =>
    significand < 2 ^ f.precision ∧ f.minExponent ≤ exponent ∧ exponent ≤ f.maxExponent ∧
      (2 ^ (f.precision - 1) ≤ significand ∨ exponent = f.minExponent)
  | _ => True

variable {f : Format}

theorem Roomy.two_pow_precision (hf : f.Roomy) : 2 ^ f.precision = 2 * 2 ^ (f.precision - 1) := by
  rw [← Nat.pow_succ', Nat.succ_eq_add_one, Nat.sub_add_cancel (by have := hf.precision; omega)]

theorem Roomy.two_pow_exponentBits (hf : f.Roomy) :
    2 ^ f.exponentBits = 2 * 2 ^ (f.exponentBits - 1) := by
  rw [← Nat.pow_succ', Nat.succ_eq_add_one, Nat.sub_add_cancel (by have := hf.exponentBits; omega)]

/-- The exponents between the least and the greatest are those that bits have room for. -/
theorem Roomy.maxExponent_eq (hf : f.Roomy) :
    f.maxExponent = f.minExponent + (2 ^ f.exponentBits - 3 : Nat) ∧ 4 ≤ 2 ^ f.exponentBits := by
  have htwo := hf.two_pow_exponentBits
  have hfour : 2 ^ 2 ≤ 2 ^ f.exponentBits := Nat.pow_le_pow_right (by decide) hf.exponentBits
  simp only [maxExponent, minExponent, Nat.pow_eq]
  omega

/-! ## Bits -/

/-- The bits of a sign, an exponent as it is stored, and a fraction. -/
def word (f : Format) (negative : Bool) (exponent fraction : Nat) : Nat :=
  2 ^ (f.precision - 1) * (2 ^ f.exponentBits * negative.toNat + exponent) + fraction

theorem decode_word {negative : Bool} {exponent fraction : Nat}
    (hexponent : exponent < 2 ^ f.exponentBits) (hfraction : fraction < 2 ^ (f.precision - 1)) :
    f.decode (f.word negative exponent fraction) =
      if exponent = 2 ^ f.exponentBits - 1 then
        if fraction = 0 then .infinite negative else .nan
      else if exponent = 0 then .finite negative fraction f.minExponent
      else .finite negative (2 ^ (f.precision - 1) + fraction)
        (f.minExponent + (exponent - 1 : Nat)) := by
  have hlow : f.word negative exponent fraction % 2 ^ (f.precision - 1) = fraction := by
    rw [word, Nat.mul_add_mod, Nat.mod_eq_of_lt hfraction]
  have hhigh : f.word negative exponent fraction / 2 ^ (f.precision - 1) =
      2 ^ f.exponentBits * negative.toNat + exponent := by
    rw [word, Nat.mul_add_div (Nat.two_pow_pos _), Nat.div_eq_of_lt hfraction, Nat.add_zero]
  have hsign : (2 ^ f.exponentBits * negative.toNat + exponent) / 2 ^ f.exponentBits =
      negative.toNat := by
    rw [Nat.mul_add_div (Nat.two_pow_pos _), Nat.div_eq_of_lt hexponent, Nat.add_zero]
  have hstored : (2 ^ f.exponentBits * negative.toNat + exponent) % 2 ^ f.exponentBits =
      exponent := by
    rw [Nat.mul_add_mod, Nat.mod_eq_of_lt hexponent]
  have hnegative : decide (negative.toNat % 2 = 1) = negative := by cases negative <;> rfl
  simp only [decode, Nat.pow_eq, Nat.pow_add, ← Nat.div_div_eq_div_mul, hlow, hhigh, hsign,
    hstored, hnegative]

theorem ite_add_eq_word {negative : Bool} {n exponent fraction : Nat}
    (hn : n = 2 ^ (f.precision - 1) * exponent + fraction) :
    (if negative then Nat.pow 2 (f.precision - 1 + f.exponentBits) + n else n) =
      f.word negative exponent fraction := by
  cases negative with
  | true =>
    rw [if_pos rfl, hn, word, Nat.pow_eq, Nat.pow_add, Bool.toNat_true, Nat.mul_one, Nat.mul_add,
      Nat.add_assoc]
  | false =>
    rw [if_neg Bool.false_ne_true, hn, word, Bool.toNat_false, Nat.mul_zero, Nat.zero_add]

theorem word_lt {negative : Bool} {exponent fraction : Nat}
    (hexponent : exponent < 2 ^ f.exponentBits) (hfraction : fraction < 2 ^ (f.precision - 1)) :
    f.word negative exponent fraction < 2 ^ (f.precision - 1) * (2 ^ f.exponentBits * 2) := by
  have hhigh : 2 ^ f.exponentBits * negative.toNat + exponent + 1 ≤ 2 ^ f.exponentBits * 2 := by
    cases negative <;> simp <;> omega
  calc f.word negative exponent fraction
      < 2 ^ (f.precision - 1) * (2 ^ f.exponentBits * negative.toNat + exponent) +
          2 ^ (f.precision - 1) := Nat.add_lt_add_left hfraction _
    _ = 2 ^ (f.precision - 1) * (2 ^ f.exponentBits * negative.toNat + exponent + 1) := by
      rw [Nat.mul_add _ _ 1, Nat.mul_one]
    _ ≤ 2 ^ (f.precision - 1) * (2 ^ f.exponentBits * 2) := Nat.mul_le_mul_left _ hhigh

theorem exists_word (hf : f.Roomy) {x : Binary} (hx : f.Fits x) :
    ∃ negative exponent fraction, exponent < 2 ^ f.exponentBits ∧ fraction < 2 ^ (f.precision - 1) ∧
      f.encode x = f.word negative exponent fraction ∧
      f.decode (f.word negative exponent fraction) = x := by
  obtain ⟨hmax, hfour⟩ := hf.maxExponent_eq
  cases x with
  | nan =>
    have hquarter : 2 ^ (f.precision - 1 - 1) < 2 ^ (f.precision - 1) :=
      Nat.pow_lt_pow_right (by decide) (by have := hf.precision; omega)
    have hones : 2 ^ f.exponentBits - 1 < 2 ^ f.exponentBits := by omega
    refine ⟨false, 2 ^ f.exponentBits - 1, 2 ^ (f.precision - 1 - 1), hones, hquarter, ?_, ?_⟩
    · rw [encode, word, Bool.toNat_false, Nat.mul_zero, Nat.zero_add, Nat.mul_comm]
      rfl
    · rw [decode_word hones hquarter, if_pos rfl,
        if_neg (Nat.two_pow_pos (f.precision - 1 - 1)).ne']
  | infinite negative =>
    have hones : 2 ^ f.exponentBits - 1 < 2 ^ f.exponentBits := by omega
    refine ⟨negative, 2 ^ f.exponentBits - 1, 0, hones, Nat.two_pow_pos _,
      ite_add_eq_word (Nat.mul_comm _ _), ?_⟩
    rw [decode_word hones (Nat.two_pow_pos _), if_pos rfl, if_pos rfl]
  | finite negative significand exponent =>
    obtain ⟨hsignificand, hleast, hgreatest, hleading⟩ := hx
    have hhalf := hf.two_pow_precision
    -- Without a leading one the exponent is the least there is, and zero is stored for it.
    by_cases hsmall : significand < 2 ^ (f.precision - 1)
    · refine ⟨negative, 0, significand, by omega, hsmall,
        (if_pos hsmall).trans (ite_add_eq_word (by rw [Nat.mul_zero, Nat.zero_add])), ?_⟩
      rw [decode_word (by omega) hsmall, if_neg (by omega), if_pos rfl,
        hleading.resolve_left (by omega)]
    · have hstored : (exponent - f.minExponent).toNat + 1 < 2 ^ f.exponentBits - 1 := by omega
      refine ⟨negative, (exponent - f.minExponent).toNat + 1,
        significand - 2 ^ (f.precision - 1), by omega, by omega,
        (if_neg hsmall).trans (ite_add_eq_word ?_), ?_⟩
      · rw [Nat.mul_add, Nat.mul_one, Nat.mul_comm, Nat.add_assoc, Nat.add_sub_of_le (by omega)]
        rfl
      · rw [decode_word (by omega) (by omega), if_neg (by omega), if_neg (by omega),
          Nat.add_sub_of_le (by omega), Nat.add_sub_cancel, Int.toNat_of_nonneg (by omega),
          add_sub_cancel]

theorem encode_lt (hf : f.Roomy) {x : Binary} (hx : f.Fits x) :
    f.encode x < 2 ^ (f.precision - 1) * (2 ^ f.exponentBits * 2) := by
  obtain ⟨negative, exponent, fraction, hexponent, hfraction, hencode, -⟩ := exists_word hf hx
  rw [hencode]
  exact word_lt hexponent hfraction

/-- A number of the format comes back from its bits. -/
theorem decode_encode (hf : f.Roomy) {x : Binary} (hx : f.Fits x) : f.decode (f.encode x) = x := by
  obtain ⟨negative, exponent, fraction, -, -, hencode, hdecode⟩ := exists_word hf hx
  rw [hencode, hdecode]

theorem fits_decode (hf : f.Roomy) (bits : Nat) : f.Fits (f.decode bits) := by
  obtain ⟨hmax, hfour⟩ := hf.maxExponent_eq
  have hhalf := hf.two_pow_precision
  have hfraction := Nat.mod_lt bits (Nat.two_pow_pos (f.precision - 1))
  have hexponent := Nat.mod_lt (bits / 2 ^ (f.precision - 1)) (Nat.two_pow_pos f.exponentBits)
  simp only [decode, Nat.pow_eq]
  split
  · split <;> trivial
  · split
    · exact ⟨by omega, by omega, by omega, .inr rfl⟩
    · exact ⟨by omega, by omega, by omega, .inl (Nat.le_add_right _ _)⟩

/-! ## Rounding -/

theorem le_nearest {num den n : Nat} (hden : 0 < den) (h : n * den ≤ num) :
    n ≤ nearest num den := by
  have hq : n ≤ num / den := (Nat.le_div_iff_mul_le hden).mpr h
  unfold nearest
  dsimp only
  split <;> omega

theorem nearest_le {num den n : Nat} (h : num < n * den) : nearest num den ≤ n := by
  have hq : num / den < n := Nat.div_lt_of_lt_mul (Nat.mul_comm n den ▸ h)
  unfold nearest
  dsimp only
  split <;> omega

/-- A power of two, as a quotient of two that are whole. -/
theorem two_zpow_eq (e : Int) : (2 : ℚ) ^ e = 2 ^ e.toNat / 2 ^ (-e).toNat := by
  obtain ⟨n, rfl | rfl⟩ := e.eq_nat_or_neg
  · simp
  · simp

theorem mul_scaled_le_iff {num den n : Nat} {e : Int} :
    n * (den * Nat.pow 2 e.toNat) ≤ num * Nat.pow 2 (-e).toNat ↔ (n : ℚ) * 2 ^ e * den ≤ num := by
  have hpos : (0 : ℚ) < 2 ^ (-e).toNat := by positivity
  rw [two_zpow_eq, mul_div_assoc', div_mul_eq_mul_div, div_le_iff₀ hpos, Nat.pow_eq, Nat.pow_eq,
    ← Nat.cast_le (α := ℚ)]
  push_cast
  rw [mul_assoc, mul_comm (den : ℚ)]

theorem scaled_le_iff {num den : Nat} {e : Int} :
    den * Nat.pow 2 e.toNat ≤ num * Nat.pow 2 (-e).toNat ↔ (2 : ℚ) ^ e * den ≤ num := by
  have hiff := @mul_scaled_le_iff num den 1 e
  rwa [Nat.one_mul, Nat.cast_one, one_mul] at hiff

/-- The power of two is not above the quotient, and the next one is. -/
theorem log2Quotient_spec {num den : Nat} (hnum : num ≠ 0) (hden : den ≠ 0) :
    (2 : ℚ) ^ log2Quotient num den * den ≤ num ∧
      (num : ℚ) < 2 ^ (log2Quotient num den + 1) * den := by
  have hnum_le : (2 : ℚ) ^ (num.log2 : ℤ) ≤ num := by exact_mod_cast Nat.log2_self_le hnum
  have hnum_lt : (num : ℚ) < 2 ^ (num.log2 + 1 : ℤ) := by exact_mod_cast Nat.lt_log2_self
  have hden_le : (2 : ℚ) ^ (den.log2 : ℤ) ≤ den := by exact_mod_cast Nat.log2_self_le hden
  have hden_lt : (den : ℚ) < 2 ^ (den.log2 + 1 : ℤ) := by exact_mod_cast Nat.lt_log2_self
  have habove : (num : ℚ) < 2 ^ ((num.log2 : ℤ) - den.log2 + 1) * den :=
    calc (num : ℚ) < 2 ^ (num.log2 + 1 : ℤ) := hnum_lt
      _ = 2 ^ ((num.log2 : ℤ) - den.log2 + 1) * 2 ^ (den.log2 : ℤ) := by
        rw [← zpow_add₀ two_ne_zero]
        congr 1
        omega
      _ ≤ 2 ^ ((num.log2 : ℤ) - den.log2 + 1) * den :=
        mul_le_mul_of_nonneg_left hden_le (by positivity)
  have hbelow : (2 : ℚ) ^ ((num.log2 : ℤ) - den.log2 - 1) * den ≤ num :=
    calc (2 : ℚ) ^ ((num.log2 : ℤ) - den.log2 - 1) * den
        ≤ 2 ^ ((num.log2 : ℤ) - den.log2 - 1) * 2 ^ (den.log2 + 1 : ℤ) :=
          mul_le_mul_of_nonneg_left hden_lt.le (by positivity)
      _ = 2 ^ (num.log2 : ℤ) := by
        rw [← zpow_add₀ two_ne_zero]
        congr 1
        omega
      _ ≤ num := hnum_le
  unfold log2Quotient
  dsimp only
  split
  · exact ⟨scaled_le_iff.mp ‹_›, habove⟩
  · refine ⟨hbelow, ?_⟩
    rw [Int.sub_add_cancel]
    exact not_le.mp (mt scaled_le_iff.mpr ‹_›)

/-- With the exponent that rounding takes, the significand has the bits of the format, and fewer
only if the exponent is the least one. -/
theorem nearestScaled_bounds (hf : f.Roomy) {num den : Nat} (hnum : num ≠ 0) (hden : den ≠ 0)
    {e : Int} (he : e = max (log2Quotient num den - (f.precision - 1 : Nat)) f.minExponent) :
    nearestScaled num den e ≤ 2 ^ f.precision ∧
      (2 ^ (f.precision - 1) ≤ nearestScaled num den e ∨ e = f.minExponent) := by
  obtain ⟨hle, hlt⟩ := log2Quotient_spec hnum hden
  have hprecision := hf.precision
  constructor
  · refine nearest_le (Nat.lt_of_not_le fun h => ?_)
    have hnum_ge : (2 : ℚ) ^ (f.precision + e : ℤ) * den ≤ num := by
      rw [zpow_add₀ two_ne_zero]
      exact_mod_cast mul_scaled_le_iff.mp h
    have hpow : (2 : ℚ) ^ (log2Quotient num den + 1) ≤ 2 ^ (f.precision + e : ℤ) :=
      zpow_le_zpow_right₀ one_le_two (by omega)
    exact absurd (hlt.trans_le (mul_le_mul_of_nonneg_right hpow (Nat.cast_nonneg den)))
      hnum_ge.not_gt
  · by_cases hleast : e = f.minExponent
    · exact .inr hleast
    · have hexponent : log2Quotient num den = (f.precision - 1 : Nat) + e := by omega
      refine .inl (le_nearest (Nat.mul_pos (Nat.pos_of_ne_zero hden) (Nat.two_pow_pos _))
        (mul_scaled_le_iff.mpr ?_))
      rw [hexponent, zpow_add₀ two_ne_zero] at hle
      exact_mod_cast hle

/-- Rounding makes numbers of the format. -/
theorem fits_round (hf : f.Roomy) (negative : Bool) (num : Nat) {den : Nat} (hden : den ≠ 0) :
    f.Fits (f.round negative num den) := by
  obtain ⟨hmax, hfour⟩ := hf.maxExponent_eq
  have hhalf := hf.two_pow_precision
  have hpos := Nat.two_pow_pos (f.precision - 1)
  unfold round
  by_cases hnum : num = 0
  · rw [if_pos hnum]
    exact ⟨Nat.two_pow_pos _, le_refl _, by omega, .inr rfl⟩
  · rw [if_neg hnum]
    obtain ⟨hle, hge⟩ := nearestScaled_bounds hf hnum hden rfl
    have hleast : f.minExponent ≤
      max (log2Quotient num den - (f.precision - 1 : Nat)) f.minExponent := le_max_right _ _
    dsimp only
    generalize max (log2Quotient num den - (f.precision - 1 : Nat)) f.minExponent = e at *
    generalize nearestScaled num den e = significand at *
    rw [Nat.pow_eq]
    -- A significand with one bit too many is a power of two, so half of it is exact.
    by_cases hcarry : significand = 2 ^ f.precision
    · rw [if_pos hcarry]
      dsimp only
      split
      · trivial
      · exact ⟨by rw [Nat.pow_eq]; omega, by omega, by omega, .inl le_rfl⟩
    · rw [if_neg hcarry]
      dsimp only
      split
      · trivial
      · exact ⟨by omega, hleast, by omega, hge⟩

theorem round_ne_nan (negative : Bool) (num den : Nat) : f.round negative num den ≠ .nan := by
  unfold round
  split
  · nofun
  · dsimp only
    split <;> dsimp only <;> split <;> nofun

theorem fits_ofInt (hf : f.Roomy) (i : Int) : f.Fits (f.ofInt i) := fits_round hf _ _ one_ne_zero

theorem fits_convert (hf : f.Roomy) (x : Binary) : f.Fits (f.convert x) := by
  cases x with
  | nan => trivial
  | infinite negative => trivial
  | finite negative significand exponent => exact fits_round hf _ _ (Nat.two_pow_pos _).ne'

theorem convert_eq_nan_iff {x : Binary} : f.convert x = .nan ↔ x = .nan := by
  cases x with
  | nan => exact iff_of_true rfl rfl
  | infinite negative => exact iff_of_false nofun nofun
  | finite negative significand exponent => exact iff_of_false (round_ne_nan _ _ _) nofun

end Format

namespace Single

open Format (single roomy_single)

/-- A number of 32 bits keeps its value. -/
theorem value_ofBinary {x : Binary} (hx : single.Fits x) : (ofBinary x).value = x := by
  have hlt : single.encode x < 2 ^ 32 := Format.encode_lt roomy_single hx
  rw [value, ofBinary, UInt32.toNat_ofNat_of_lt' hlt, Format.decode_encode roomy_single hx]

theorem value_ofInt (i : Int) : (ofInt i).value = single.ofInt i :=
  value_ofBinary (Format.fits_ofInt roomy_single i)

end Single
end Numeric
end QueryView
