/-
JSON values.

`Value σ` is a JSON document in which strings and keys have the type `σ`.  Two
types matter: `Value Spelling`, in which strings are held as their source spells
them, and `Value Text`, in which they are decoded.  Keeping one type for both lets
decoding be a statement about strings alone, and it keeps the two apart: a
document can be well formed although one of its strings decodes to no text.

A number is kept as its source text.  Nothing in the library computes with it, and
the text is what a reader of the document wants to see again.
-/
import QueryView.Json.Members

namespace QueryView
namespace Json

/-- One element of a string in a JSON source: a character, written as itself or by
one of the short escapes, or a UTF-16 code unit written as `\u` and four digits. -/
inductive StringUnit where
  | scalar (c : Char)
  | code (n : Nat)
  deriving DecidableEq

/-- A string as its source spells it. -/
abbrev Spelling := List StringUnit

/-- A JSON value whose strings have the type `σ`. -/
inductive Value (σ : Type) where
  | null
  | bool (b : Bool)
  | number (source : Text)
  | string (s : σ)
  | array (items : List (Value σ))
  | object (members : List (σ × Value σ))

abbrev Tree := Value Text

/-! ## Decoding strings -/

def isLead (n : Nat) : Bool := decide (0xD800 ≤ n ∧ n < 0xDC00)

def isTrail (n : Nat) : Bool := decide (0xDC00 ≤ n ∧ n < 0xE000)

def pairedScalar (lead trail : Nat) : Char :=
  Char.ofNat (0x10000 + (lead - 0xD800) * 0x400 + (trail - 0xDC00))

/-- The text that a string spells.  A code unit of a surrogate pair without its
partner spells no text. -/
def Spelling.decode? : Spelling → Option Text
  | [] => some []
  | .scalar c :: r => (Spelling.decode? r).map (c :: ·)
  | .code n :: r =>
    if isLead n then
      match r with
      | .code m :: r' =>
        if isTrail m then (Spelling.decode? r').map (pairedScalar n m :: ·) else none
      | _ => none
    else if isTrail n then none
    else (Spelling.decode? r).map (Char.ofNat n :: ·)

end Json
end QueryView
