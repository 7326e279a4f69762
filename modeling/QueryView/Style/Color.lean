/-
Colors of 24 bits and their hexadecimal spelling.

A color is written as `#` and six digits, two to a channel, with capital letters.
It is read from the same spelling with or without the `#`, in either case and with
blanks around it; anything else names no color, and the failure carries the text
as it was given.
-/
import QueryView.Failure

namespace QueryView

structure Color where
  red : UInt8
  green : UInt8
  blue : UInt8
  deriving DecidableEq

namespace Color

def black : Color := ⟨0, 0, 0⟩

def white : Color := ⟨255, 255, 255⟩

/-- The color of six hexadecimal digits read as one number. -/
def ofCode (n : Nat) : Color :=
  ⟨UInt8.ofNat (n / 65536), UInt8.ofNat (n / 256), UInt8.ofNat n⟩

def channelDigits (x : UInt8) : Text :=
  [Text.hexDigit 'A' (x.toNat / 16), Text.hexDigit 'A' (x.toNat % 16)]

def hex (c : Color) : Text :=
  '#' :: (channelDigits c.red ++ channelDigits c.green ++ channelDigits c.blue)

def channel? (a b : Char) : Option UInt8 :=
  match Text.hexValue? a, Text.hexValue? b with
  | some x, some y => some (UInt8.ofNat (16 * x + y))
  | _, _ => none

/-- The color of exactly six hexadecimal digits. -/
def ofDigits? : Text → Option Color
  | [a, b, c, d, e, f] =>
    match channel? a b, channel? c d, channel? e f with
    | some red, some green, some blue => some ⟨red, green, blue⟩
    | _, _, _ => none
  | _ => none

def dropHash : Text → Text
  | '#' :: t => t
  | t => t

def ofHex (t : Text) : Except Failure Color :=
  match ofDigits? (dropHash (Text.trim t)) with
  | some c => .ok c
  | none => .error (.invalidColor t)

end Color
end QueryView
