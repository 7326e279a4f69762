/-
The shortest decimal that reads back as a given number.

A number of a format stands for every real that rounds to it: an interval around it,
whose ends belong to it when its significand is even.  Among the decimals in that
interval those with the fewest digits are the ones on the coarsest grid of multiples
of a power of ten that meets it.  If a point of a grid lies in the interval, so does
one of the two points around the number itself, so two tests decide each grid; of two
points in the interval the nearer is taken, and the even one of two equally near.
-/
import QueryView.Numeric.Binary

namespace QueryView
namespace Numeric

/-- A decimal: a whole number of digits times a power of ten. -/
structure Decimal where
  digits : Nat
  exponent : Int
  deriving DecidableEq

/-- A positive number and the reals that round to it.  All three are given in quarters
of the number's last place, and `num / den` is the size of such a quarter. -/
structure Neighbourhood where
  low : Nat
  centre : Nat
  high : Nat
  /-- Whether the two ends round to the number. -/
  closed : Bool
  num : Nat
  den : Nat

namespace Neighbourhood

/-- The reals that round to a positive finite number of a format.  Below a power of
two the numbers lie twice as close. -/
def around (f : Format) (significand : Nat) (exponent : Int) : Neighbourhood :=
  let quarter := exponent - 2
  let halfBelow :=
    if significand = Nat.pow 2 (f.precision - 1) ∧ f.minExponent < exponent then 1 else 2
  { low := 4 * significand - halfBelow
    centre := 4 * significand
    high := 4 * significand + 2
    closed := decide (significand % 2 = 0)
    num := Nat.pow 2 quarter.toNat
    den := Nat.pow 2 (-quarter).toNat }

def holds (n : Neighbourhood) (k : Nat) (power : Int) : Bool :=
  let point := k * Nat.pow 10 power.toNat * n.den
  let unit := n.num * Nat.pow 10 (-power).toNat
  if n.closed then decide (n.low * unit ≤ point ∧ point ≤ n.high * unit)
  else decide (n.low * unit < point ∧ point < n.high * unit)

/-- The multiple of a power of ten just below the centre or on it, and how far it and
the next one are from the centre, in a common unit. -/
def foot (n : Neighbourhood) (power : Int) : Nat × Nat × Nat :=
  let step := Nat.pow 10 power.toNat * n.den
  let centre := n.centre * n.num * Nat.pow 10 (-power).toNat
  (centre / step, centre % step, step - centre % step)

/-- The multiple of a power of ten that reads back as the number, if there is one. -/
def onGrid? (n : Neighbourhood) (power : Int) : Option Nat :=
  let (k, down, up) := n.foot power
  match n.holds k power, n.holds (k + 1) power with
  | true, true => some (if down < up ∨ (down = up ∧ k % 2 = 0) then k else k + 1)
  | true, false => some k
  | false, true => some (k + 1)
  | false, false => none

/-- The first of a number of ever finer grids that has a decimal which reads back. -/
def search (n : Neighbourhood) : Nat → Int → Decimal
  | 0, power => ⟨(n.foot power).1, power⟩
  | steps + 1, power =>
    match n.onGrid? power with
    | some k => ⟨k, power⟩
    | none => n.search steps (power - 1)

end Neighbourhood

namespace Format

/-- A power of ten above every number with the given significand and exponent.  The
fraction is an upper bound of the logarithm of two. -/
def decimalBound (significand : Nat) (exponent : Int) : Int :=
  (((significand.log2 : Int) + exponent + 1) * 30103).fdiv 100000 + 2

/-- The shortest decimal that reads back as a positive number.  For a format of
precision `p` that takes fewer than `p` grids. -/
def shortest (f : Format) (significand : Nat) (exponent : Int) : Decimal :=
  (Neighbourhood.around f significand exponent).search f.precision
    (decimalBound significand exponent)

end Format
end Numeric
end QueryView
