/-
TOML numbers, dates and times.

A number may have an underscore between any two of its digits, and no zero before
others.  An integer fits 64 bits; with a sign it is decimal, without one it may be
hexadecimal, octal or binary.  A float has a fraction, an exponent or both, or is one
of the words `inf` and `nan`.

A date or a time is checked and then forgotten: days fit their months, and seconds go
up to sixty for the sake of leap seconds.
-/
import QueryView.Toml.Value

namespace QueryView
namespace Toml

/-! ## Digits -/

/-- The digits that go on from a digit, without the underscores between them, and what
follows. -/
def moreDigits (p : Char → Bool) : Text → Text × Text
  | [] => ([], [])
  | [c] => if p c then ([c], []) else ([], [c])
  | c :: d :: r =>
    if p c then (c :: (moreDigits p (d :: r)).1, (moreDigits p (d :: r)).2)
    else if c = '_' ∧ p d then (d :: (moreDigits p r).1, (moreDigits p r).2)
    else ([], c :: d :: r)

/-- One digit or more, and what follows. -/
def digits? (p : Char → Bool) : Text → Option (Text × Text)
  | [] => none
  | c :: r => if p c then some (c :: (moreDigits p r).1, (moreDigits p r).2) else none

/-- The digits of a whole number: a zero, or digits that do not start with one. -/
def whole? : Text → Option (Text × Text)
  | '0' :: r => some (['0'], r)
  | t => digits? Text.isDigit t

/-- A sign, which may be absent, and what follows.  The flag says that it is a minus. -/
def sign : Text → Bool × Text
  | '+' :: r => (false, r)
  | '-' :: r => (true, r)
  | t => (false, t)

/-! ## Integers -/

/-- An integer of 64 bits. -/
def inRange (i : Int) : Bool := decide (-Nat.pow 2 63 ≤ i ∧ i < Nat.pow 2 63)

/-- The number of digits in some base. -/
def ofDigits (base : Nat) (digits : Text) : Nat :=
  digits.foldl (fun n c => base * n + (Text.hexValue? c).getD 0) 0

/-- The digits of a base below seventeen. -/
def isDigitOf (base : Nat) (c : Char) : Bool := (Text.hexValue? c).any fun n => decide (n < base)

/-- A number in a base that its first characters name. -/
def based? (base : Nat) (t : Text) : Option (Int × Text) :=
  (digits? (isDigitOf base) t).map fun d => (Int.ofNat (ofDigits base d.1), d.2)

def integer? (t : Text) : Option (Int × Text) :=
  let read : Option (Int × Text) :=
    match t with
    | '0' :: 'x' :: r => based? 16 r
    | '0' :: 'o' :: r => based? 8 r
    | '0' :: 'b' :: r => based? 2 r
    | _ =>
      (whole? (sign t).2).map fun d =>
        let n := Int.ofNat (Text.digitsValue d.1)
        (if (sign t).1 then -n else n, d.2)
  read.filter fun n => inRange n.1

/-! ## Floats -/

def fraction? : Text → Option (Text × Text)
  | '.' :: r => digits? Text.isDigit r
  | _ => none

def exponent? : Text → Option (Int × Text)
  | [] => none
  | c :: r =>
    if c = 'e' ∨ c = 'E' then
      (digits? Text.isDigit (sign r).2).map fun d =>
        let n := Int.ofNat (Text.digitsValue d.1)
        (if (sign r).1 then -n else n, d.2)
    else none

/-- The number of 64 bits that is nearest to a decimal, with its digits before and after
the point.  One too large to be finite is refused if it is positive. -/
def decimal? (negative : Bool) (whole fraction : Text) (exponent : Int) :
    Option Numeric.Binary :=
  let digits := (whole ++ fraction).dropWhile (· == '0')
  let x := Numeric.Format.double.ofDecimal negative (Text.digitsValue digits) digits.length
    (exponent - fraction.length)
  if x = .infinite false then none else some x

def digitFloat? (t : Text) : Option (Numeric.Binary × Text) := do
  let (negative, t) := sign t
  let (whole, t) ← whole? t
  match fraction? t with
  | some (fraction, t) =>
    let (exponent, t) := (exponent? t).getD (0, t)
    let x ← decimal? negative whole fraction exponent
    return (x, t)
  | none =>
    let (exponent, t) ← exponent? t
    let x ← decimal? negative whole [] exponent
    return (x, t)

def wordFloat? (t : Text) : Option (Numeric.Binary × Text) :=
  match (sign t).2 with
  | 'i' :: 'n' :: 'f' :: r => some (.infinite (sign t).1, r)
  | 'n' :: 'a' :: 'n' :: r => some (.nan, r)
  | _ => none

/-! ## Dates and times -/

/-- A number of exactly `count` digits from `low` to `high`. -/
def field? (count low high : Nat) (t : Text) : Option (Nat × Text) :=
  let digits := t.take count
  let n := Text.digitsValue digits
  if digits.length = count ∧ digits.all Text.isDigit ∧ low ≤ n ∧ n ≤ high then
    some (n, t.drop count)
  else none

/-- What follows a character. -/
def after? (c : Char) : Text → Option Text
  | d :: r => if c = d then some r else none
  | [] => none

def daysIn (year month : Nat) : Nat :=
  if month = 2 then
    if year % 4 = 0 ∧ (year % 100 ≠ 0 ∨ year % 400 = 0) then 29 else 28
  else if month ∈ [4, 6, 9, 11] then 30
  else 31

def afterDate? (t : Text) : Option Text := do
  let (year, t) ← field? 4 0 9999 t
  let t ← after? '-' t
  let (month, t) ← field? 2 1 12 t
  let t ← after? '-' t
  let (_, t) ← field? 2 1 (daysIn year month) t
  return t

def afterTime? (t : Text) : Option Text := do
  let (_, t) ← field? 2 0 23 t
  let t ← after? ':' t
  let (_, t) ← field? 2 0 59 t
  let t ← after? ':' t
  let (_, t) ← field? 2 0 60 t
  match t with
  | '.' :: d :: r => return if Text.isDigit d then r.dropWhile Text.isDigit else t
  | _ => return t

def afterOffset? : Text → Option Text
  | [] => none
  | c :: t => do
    if c = 'Z' ∨ c = 'z' then return t
    if c ≠ '+' ∧ c ≠ '-' then none
    let (_, t) ← field? 2 0 23 t
    let t ← after? ':' t
    let (_, t) ← field? 2 0 59 t
    return t

/-- What follows a date, a time, or a date and a time with or without an offset. -/
def afterMoment? (t : Text) : Option Text :=
  match afterDate? t with
  | none => afterTime? t
  | some r =>
    match r with
    | [] => some []
    | c :: r' =>
      if c = 'T' ∨ c = 't' ∨ c = ' ' then
        match afterTime? r' with
        | some rest => some ((afterOffset? rest).getD rest)
        | none => some r
      else some r

/-! ## Any of them -/

/-- A value that starts like a number. -/
def numeral? (t : Text) : Option (Value × Text) :=
  match afterMoment? t with
  | some r => some (.moment, r)
  | none =>
    match digitFloat? t with
    | some (x, r) => some (.float x, r)
    | none =>
      match wordFloat? t with
      | some (x, r) => some (.float x, r)
      | none => (integer? t).map fun n => (.integer n.1, n.2)

end Toml
end QueryView
