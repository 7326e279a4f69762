/-
Text as the library reads it, and the two notions of a character class that its
rules use.

Every rule of the library looks at text one character at a time, so text is a
list of characters: recursion on it is recursion on the data, and a statement
about a rule is a statement about lists.  Conversion to and from `String` belongs
to whoever reads input or prints output.

`isBlank` is the Unicode property `White_Space`.  It is wider than the class of
the same name in the core library, which knows ASCII only.  Letters and digits, by
contrast, are ASCII throughout: the grammars that use them admit no others.
-/

namespace QueryView

/-- A text is the list of its characters. -/
abbrev Text := List Char

namespace Text

/-! ## Blanks -/

/-- Bounds of the ranges of characters with the property `White_Space`. -/
def blankRanges : List (Nat × Nat) :=
  [(0x9, 0xD), (0x20, 0x20), (0x85, 0x85), (0xA0, 0xA0), (0x1680, 0x1680), (0x2000, 0x200A),
   (0x2028, 0x2029), (0x202F, 0x202F), (0x205F, 0x205F), (0x3000, 0x3000)]

/-- A character lies in one of the listed ranges, both ends included. -/
def inRanges (ranges : List (Nat × Nat)) (c : Char) : Bool :=
  ranges.any fun r => decide (r.1 ≤ c.toNat ∧ c.toNat ≤ r.2)

def isBlank (c : Char) : Bool := inRanges blankRanges c

def trimStart (t : Text) : Text := t.dropWhile isBlank

def trimEnd (t : Text) : Text := (t.reverse.dropWhile isBlank).reverse

def trim (t : Text) : Text := trimEnd (trimStart t)

/-- The text without the line ends that close it. -/
def dropFinalNewlines (t : Text) : Text := (t.reverse.dropWhile (· == '\n')).reverse

/-! ## ASCII letters and digits -/

def isLetter (c : Char) : Bool :=
  decide ('a' ≤ c ∧ c ≤ 'z') || decide ('A' ≤ c ∧ c ≤ 'Z')

def isDigit (c : Char) : Bool := decide ('0' ≤ c ∧ c ≤ '9')

/-- What holds of the characters from `a` to `b`, one after the other, holds of each of them. -/
@[elab_as_elim]
theorem between_induction {a b : Char} {motive : Char → Prop} (c : Char) (hc : a ≤ c ∧ c ≤ b)
    (h : ∀ i < b.toNat + 1 - a.toNat, motive (Char.ofNat (a.toNat + i))) : motive c := by
  have ha : a.toNat ≤ c.toNat := hc.1
  have hb : c.toNat ≤ b.toNat := hc.2
  have hmotive := h (c.toNat - a.toNat) (by omega)
  rwa [Nat.add_sub_cancel' ha, Char.ofNat_toNat] at hmotive

/-- The text with its ASCII capitals made small.  Other scripts keep their case. -/
def lower (t : Text) : Text := t.map Char.toLower

def upper (t : Text) : Text := t.map Char.toUpper

/-- Two texts that differ at most in the case of ASCII letters. -/
def sameLetters (s t : Text) : Bool := lower s == lower t

/-- The natural number a run of decimal digits stands for. -/
def digitsValue (t : Text) : Nat := t.foldl (fun n c => 10 * n + (c.toNat - '0'.toNat)) 0

def hexValue? (c : Char) : Option Nat :=
  if isDigit c then some (c.toNat - '0'.toNat)
  else if 'a' ≤ c ∧ c ≤ 'f' then some (c.toNat - 'a'.toNat + 10)
  else if 'A' ≤ c ∧ c ≤ 'F' then some (c.toNat - 'A'.toNat + 10)
  else none

/-- The hexadecimal digit of a number below sixteen, with the letters from `base`. -/
def hexDigit (base : Char) (n : Nat) : Char :=
  if n < 10 then Char.ofNat ('0'.toNat + n) else Char.ofNat (base.toNat + (n - 10))

def ofNat (n : Nat) : Text := Nat.toDigits 10 n

/-- The decimal digits of an integer, after a minus sign if it is negative. -/
def ofInt : Int → Text
  | .ofNat n => ofNat n
  | .negSucc n => '-' :: ofNat (n + 1)

end Text
end QueryView
