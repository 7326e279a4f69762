/-
Values and their order.

Numbers are compared by their places on the line.  Among the numbers of a format the places of
finite ones are in the order of their values (`below_iff_lt`), and an infinity is beyond all of them
(`infinite_below_iff`, `below_infinite_iff`).  So a number that is moved into a range takes the
nearest value in it (`clamp_of_finite`, `clamp_of_infinite`); what is not a number is nowhere on the
line, and stays what it is (`clamp_of_nan`).
-/
import QueryView.Proofs.Numeric.Format

namespace QueryView
namespace Numeric
namespace Binary

/-- The value of a finite number. -/
def toRat? : Binary → Option ℚ
  | .finite negative significand exponent =>
    some (if negative then -(significand * 2 ^ exponent) else significand * 2 ^ exponent)
  | _ => none

/-- Numbers are equal if they have the same value.  What is not a number is equal to nothing. -/
def equals : Binary → Binary → Bool
  | .finite a m i, .finite b n j => toRat? (.finite a m i) == toRat? (.finite b n j)
  | .infinite a, .infinite b => a == b
  | _, _ => false

theorem equals_self_iff {x : Binary} : x.equals x = true ↔ x ≠ .nan := by
  cases x <;> simp [equals]

variable {f : Format} {x y : Binary} {a b : ℚ}

/-- The place of an infinity, if it is not negative. -/
def beyond (f : Format) : Int := (2 ^ (2 ^ f.exponentBits + f.precision) : Nat)

theorem place?_infinite (f : Format) (negative : Bool) :
    place? f (.infinite negative) = some (if negative then -beyond f else beyond f) := rfl

/-- A number of the format with a value has its place on the line, in units of the smallest number,
and no infinity is as near to zero. -/
theorem exists_place (hf : f.Roomy) (hx : f.Fits x) (ha : x.toRat? = some a) :
    ∃ p : Int, place? f x = some p ∧ a = p * 2 ^ f.minExponent ∧ -beyond f < p ∧ p < beyond f := by
  cases x with
  | nan => cases ha
  | infinite negative => cases ha
  | finite negative significand exponent =>
    obtain ⟨hmax, hfour⟩ := hf.maxExponent_eq
    obtain ⟨hsignificand, hleast, hgreatest, -⟩ := hx
    have hvalue : ((significand * 2 ^ (exponent - f.minExponent).toNat : Nat) : ℚ) *
        2 ^ f.minExponent = significand * 2 ^ exponent := by
      push_cast
      rw [mul_assoc, ← zpow_natCast, ← zpow_add₀ two_ne_zero, Int.toNat_of_nonneg (by omega),
        Int.sub_add_cancel]
    have hmagnitude : significand * 2 ^ (exponent - f.minExponent).toNat <
        2 ^ (2 ^ f.exponentBits + f.precision) :=
      calc significand * 2 ^ (exponent - f.minExponent).toNat
          < 2 ^ f.precision * 2 ^ (exponent - f.minExponent).toNat :=
            Nat.mul_lt_mul_of_pos_right hsignificand (Nat.two_pow_pos _)
        _ ≤ 2 ^ f.precision * 2 ^ 2 ^ f.exponentBits :=
            Nat.mul_le_mul_left _ (Nat.pow_le_pow_right (by decide) (by omega))
        _ = 2 ^ (2 ^ f.exponentBits + f.precision) := by rw [Nat.mul_comm, ← Nat.pow_add]
    refine ⟨_, rfl, ?_, ?_, ?_⟩
    · rw [← Option.some.inj ha, units, ← hvalue]
      cases negative <;> simp
    · rw [beyond, units, Nat.pow_eq]
      split <;> omega
    · rw [beyond, units, Nat.pow_eq]
      split <;> omega

theorem below_iff_lt (hf : f.Roomy) (hx : f.Fits x) (hy : f.Fits y) (ha : x.toRat? = some a)
    (hb : y.toRat? = some b) : below f x y = true ↔ a < b := by
  obtain ⟨p, hp, rfl, -⟩ := exists_place hf hx ha
  obtain ⟨q, hq, rfl, -⟩ := exists_place hf hy hb
  have hpos : (0 : ℚ) < 2 ^ f.minExponent := by positivity
  rw [below, hp, hq, decide_eq_true_eq, mul_lt_mul_iff_left₀ hpos, Int.cast_lt]

theorem infinite_below_iff (hf : f.Roomy) (hy : f.Fits y) (hb : y.toRat? = some b)
    {negative : Bool} : below f (.infinite negative) y = true ↔ negative = true := by
  obtain ⟨q, hq, -, hlow, hhigh⟩ := exists_place hf hy hb
  rw [below, place?_infinite, hq, decide_eq_true_eq]
  cases negative with
  | true => exact iff_of_true hlow rfl
  | false => exact iff_of_false hhigh.not_gt Bool.false_ne_true

theorem below_infinite_iff (hf : f.Roomy) (hx : f.Fits x) (ha : x.toRat? = some a)
    {negative : Bool} : below f x (.infinite negative) = true ↔ negative = false := by
  obtain ⟨p, hp, -, hlow, hhigh⟩ := exists_place hf hx ha
  rw [below, place?_infinite, hp, decide_eq_true_eq]
  cases negative with
  | true => exact iff_of_false hlow.not_gt (nofun : ¬true = false)
  | false => exact iff_of_true hhigh rfl

end Binary

namespace Single

open Binary (toRat?)
open Format (roomy_single fits_decode)

variable {low high x : Single} {l h a : ℚ}

theorem fits_value (x : Single) : Format.single.Fits x.value := fits_decode roomy_single _

theorem below_iff_lt {y : Single} {b : ℚ} (ha : toRat? x.value = some a)
    (hb : toRat? y.value = some b) : x.below y = true ↔ a < b :=
  Binary.below_iff_lt roomy_single x.fits_value y.fits_value ha hb

theorem clamp_of_finite (hl : toRat? low.value = some l) (hh : toRat? high.value = some h)
    (ha : toRat? x.value = some a) (hlh : l ≤ h) :
    toRat? (clamp low high x).value = some (max l (min h a)) := by
  rw [clamp]
  by_cases hlow : a < l
  · rw [if_pos ((below_iff_lt ha hl).mpr hlow), hl,
      max_eq_left (min_le_of_right_le hlow.le)]
  · rw [if_neg (mt (below_iff_lt ha hl).mp hlow)]
    by_cases hhigh : h < a
    · rw [if_pos ((below_iff_lt hh ha).mpr hhigh), hh, min_eq_left hhigh.le, max_eq_right hlh]
    · rw [if_neg (mt (below_iff_lt hh ha).mp hhigh), ha, min_eq_right (not_lt.mp hhigh),
        max_eq_right (not_lt.mp hlow)]

theorem clamp_of_infinite (hl : toRat? low.value = some l) (hh : toRat? high.value = some h)
    {negative : Bool} (hx : x.value = .infinite negative) :
    clamp low high x = if negative then low else high := by
  have hbelow : x.below low = true ↔ negative = true := by
    rw [below, hx]
    exact Binary.infinite_below_iff roomy_single low.fits_value hl
  have habove : high.below x = true ↔ negative = false := by
    rw [below, hx]
    exact Binary.below_infinite_iff roomy_single high.fits_value hh
  rw [clamp]
  cases negative with
  | true => rw [if_pos (hbelow.mpr rfl), if_pos rfl]
  | false => rw [if_neg (mt hbelow.mp Bool.false_ne_true), if_pos (habove.mpr rfl),
      if_neg Bool.false_ne_true]

theorem clamp_of_nan (hx : x.value = .nan) : clamp low high x = x := by
  have hbelow : x.below low = false := by rw [below, hx]; rfl
  have habove : high.below x = false := by
    rw [below, hx, Binary.below]
    cases Binary.place? Format.single high.value <;> rfl
  rw [clamp, hbelow, habove]
  rfl

/-- What is a number comes into the range. -/
theorem exists_clamp_value (hl : toRat? low.value = some l) (hh : toRat? high.value = some h)
    (hlh : l ≤ h) (hx : x.value ≠ .nan) :
    ∃ q, toRat? (clamp low high x).value = some q ∧ l ≤ q ∧ q ≤ h := by
  cases hv : x.value with
  | nan => exact absurd hv hx
  | infinite negative =>
    rw [clamp_of_infinite hl hh hv]
    cases negative with
    | true => exact ⟨l, hl, le_rfl, hlh⟩
    | false => exact ⟨h, hh, hlh, le_rfl⟩
  | finite negative significand exponent =>
    exact ⟨_, clamp_of_finite hl hh (congrArg toRat? hv) hlh, le_max_left _ _,
      max_le hlh (min_le_left _ _)⟩

end Single
end Numeric
end QueryView
