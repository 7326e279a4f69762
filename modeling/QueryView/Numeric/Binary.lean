/-
Binary floating point, in exact arithmetic.

A format says how many bits a number has and how they are shared out; a `Binary` is
what the bits stand for, with a finite number given by a natural significand and an
exponent of two.  Nothing here uses machine arithmetic, so every statement about a
float is one about natural numbers and integers.

A quotient of natural numbers becomes a number of a format by one rounding, to the
nearest number that the format has and to the even one of two that are equally near.
`Format.round` is that rounding for every use of it: decimals, integers and numbers
of a wider format all come to it as quotients.
-/
import QueryView.Text.Basic

namespace QueryView
namespace Numeric

/-- A binary interchange format: the bits of a significand, counted with the leading
one that normal numbers do not store, and the bits of an exponent. -/
structure Format where
  precision : Nat
  exponentBits : Nat
  deriving DecidableEq

/-- What the bits of a format stand for.  A finite number is its significand times
two to its exponent. -/
inductive Binary where
  | finite (negative : Bool) (significand : Nat) (exponent : Int)
  | infinite (negative : Bool)
  | nan
  deriving DecidableEq

namespace Format

def single : Format := ⟨24, 8⟩

def double : Format := ⟨53, 11⟩

/-- The exponent of the smallest numbers, which have no leading one to leave out. -/
def minExponent (f : Format) : Int := 3 - Nat.pow 2 (f.exponentBits - 1) - f.precision

def maxExponent (f : Format) : Int := Nat.pow 2 (f.exponentBits - 1) - f.precision

/-! ## Bits -/

def decode (f : Format) (bits : Nat) : Binary :=
  let stored := f.precision - 1
  let negative := decide (bits / Nat.pow 2 (stored + f.exponentBits) % 2 = 1)
  let exponent := bits / Nat.pow 2 stored % Nat.pow 2 f.exponentBits
  let fraction := bits % Nat.pow 2 stored
  if exponent = Nat.pow 2 f.exponentBits - 1 then
    if fraction = 0 then .infinite negative else .nan
  else if exponent = 0 then .finite negative fraction f.minExponent
  else .finite negative (Nat.pow 2 stored + fraction) (f.minExponent + (exponent - 1 : Nat))

/-- The bit pattern of a number of the format.  There is one pattern for all that is
not a number. -/
def encode (f : Format) (x : Binary) : Nat :=
  let stored := f.precision - 1
  let signed (negative : Bool) (n : Nat) :=
    if negative then Nat.pow 2 (stored + f.exponentBits) + n else n
  let allOnes := (Nat.pow 2 f.exponentBits - 1) * Nat.pow 2 stored
  match x with
  | .nan => allOnes + Nat.pow 2 (stored - 1)
  | .infinite negative => signed negative allOnes
  | .finite negative significand exponent =>
    if significand < Nat.pow 2 stored then signed negative significand
    else
      signed negative
        ((exponent - f.minExponent).toNat * Nat.pow 2 stored + significand)

/-! ## Rounding -/

/-- The whole number nearest to a quotient, the even one of two. -/
def nearest (num den : Nat) : Nat :=
  let q := num / den
  let r := num % den
  if 2 * r < den ∨ (2 * r = den ∧ q % 2 = 0) then q else q + 1

def nearestScaled (num den : Nat) (exponent : Int) : Nat :=
  nearest (num * Nat.pow 2 (-exponent).toNat) (den * Nat.pow 2 exponent.toNat)

/-- The greatest power of two that is not above a positive quotient. -/
def log2Quotient (num den : Nat) : Int :=
  let e : Int := (num.log2 : Int) - den.log2
  if den * Nat.pow 2 e.toNat ≤ num * Nat.pow 2 (-e).toNat then e else e - 1

/-- The number of a format that is nearest to a quotient. -/
def round (f : Format) (negative : Bool) (num den : Nat) : Binary :=
  if num = 0 then .finite negative 0 f.minExponent
  else
    let exponent := max (log2Quotient num den - (f.precision - 1 : Nat)) f.minExponent
    let significand := nearestScaled num den exponent
    let (significand, exponent) :=
      if significand = Nat.pow 2 f.precision then (Nat.pow 2 (f.precision - 1), exponent + 1)
      else (significand, exponent)
    if f.maxExponent < exponent then .infinite negative
    else .finite negative significand exponent

def ofInt (f : Format) (i : Int) : Binary := f.round (decide (i < 0)) i.natAbs 1

def convert (f : Format) : Binary → Binary
  | .nan => .nan
  | .infinite negative => .infinite negative
  | .finite negative significand exponent =>
    f.round negative (significand * Nat.pow 2 exponent.toNat) (Nat.pow 2 (-exponent).toNat)

/-- The number of a format nearest to `digits` times ten to `exponent`, where `size`
is the number of decimal digits of `digits`.  A magnitude that is far out of the
format's range is settled without computing the power of ten. -/
def ofDecimal (f : Format) (negative : Bool) (digits size : Nat) (exponent : Int) : Binary :=
  if digits = 0 then .finite negative 0 f.minExponent
  else if f.maxExponent + f.precision < size + exponent - 1 then .infinite negative
  else if size + exponent < f.minExponent - 1 then .finite negative 0 f.minExponent
  else f.round negative (digits * Nat.pow 10 exponent.toNat) (Nat.pow 10 (-exponent).toNat)

end Format

namespace Binary

/-! ## Order -/

/-- A finite number in units of the smallest positive number of a format. -/
def units (f : Format) (negative : Bool) (significand : Nat) (exponent : Int) : Int :=
  let magnitude : Int := (significand * Nat.pow 2 (exponent - f.minExponent).toNat : Nat)
  if negative then -magnitude else magnitude

/-- A place on the line for every number of a format: its units, with an infinity
beyond all of them. -/
def place? (f : Format) : Binary → Option Int
  | .nan => none
  | .infinite negative =>
    let beyond : Int := Nat.pow 2 (Nat.pow 2 f.exponentBits + f.precision)
    some (if negative then -beyond else beyond)
  | .finite negative significand exponent => some (units f negative significand exponent)

/-- One number is below another.  What is not a number is below nothing. -/
def below (f : Format) (x y : Binary) : Bool :=
  match place? f x, place? f y with
  | some a, some b => decide (a < b)
  | _, _ => false

end Binary
end Numeric
end QueryView
