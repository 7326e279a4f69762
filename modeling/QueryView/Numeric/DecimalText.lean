/-
Decimals as text.

A style says between which powers of ten a number is written with a plain point and
where it takes an exponent.  With a plain point there is always a digit on each side
of it.  With an exponent there is one digit before the point, no point if that is the
only one, and always a sign before the exponent.
-/
import QueryView.Numeric.Shortest

namespace QueryView
namespace Numeric

/-- Where decimals are written with a plain point: from ten to the power `from10` up
to but without ten to the power `below10`. -/
structure DecimalStyle where
  from10 : Int
  below10 : Int
  deriving DecidableEq

namespace DecimalStyle

/-- Digits with a plain point, which stands `point` places after the first digit. -/
def plain (digits : Text) (point : Int) : Text :=
  if point ≤ 0 then '0' :: '.' :: (List.replicate (-point).toNat '0' ++ digits)
  else if (digits.length : Int) ≤ point then
    digits ++ (List.replicate (point - digits.length).toNat '0' ++ ['.', '0'])
  else digits.take point.toNat ++ '.' :: digits.drop point.toNat

/-- Digits with an exponent, which is the power of ten of the first digit. -/
def scientific (digits : Text) (power : Int) : Text :=
  let mantissa :=
    match digits with
    | first :: second :: rest => first :: '.' :: second :: rest
    | short => short
  let sign := if power < 0 then '-' else '+'
  mantissa ++ 'e' :: sign :: Text.ofNat power.natAbs

def write (style : DecimalStyle) (d : Decimal) : Text :=
  if d.digits = 0 then "0.0".toList
  else
    let digits := Text.ofNat d.digits
    let power := digits.length + d.exponent - 1
    if style.from10 ≤ power ∧ power < style.below10 then plain digits (power + 1)
    else scientific digits power

end DecimalStyle

/-- A number of a format in a style, by the shortest decimal that reads back as it.
An infinity and what is not a number have no decimal. -/
def Binary.write? (f : Format) (style : DecimalStyle) : Binary → Option Text
  | .finite negative significand exponent =>
    let magnitude :=
      style.write (if significand = 0 then ⟨0, 0⟩ else f.shortest significand exponent)
    some (if negative then '-' :: magnitude else magnitude)
  | _ => none

end Numeric
end QueryView
