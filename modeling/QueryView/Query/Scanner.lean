/-
The lexer on UTF-8.

A text kept as UTF-8 is not taken apart from the front.  The lexer keeps the whole text and
the offset that it has come to, finds the offset at which the next token ends, and slices
the token out of the text.  Each of these steps fails if an offset is not a place in the
text, and a character is not found there; `Step.outside` and `Ending.outside` tell of such
a failure.  The rules and their order are those of `cut`.
-/
import QueryView.Query.Lexer
import QueryView.Text.Offset

namespace QueryView
namespace Query

/-- A query and the offset up to which it was read. -/
structure Scanner where
  text : Text
  pos : Nat

namespace Scanner

open String (utf8Len)

def start (t : Text) : Scanner := ⟨t, 0⟩

/-! ## Where a token ends -/

/-- The offset of the first character from `pos` on that does not satisfy `p`. -/
def scanWhile? (t : Text) (pos : Nat) (p : Char → Bool) : Option Nat := do
  let rest ← t.dropBytes? pos
  return ((Text.findChar? (fun c => !p c) rest).map (pos + ·)).getD (utf8Len t)

/-- The end of a string with the quote `q`, from an offset inside of it. -/
def scanString (t : Text) (q : Char) (pos : Nat) : Nat :=
  match _hc : t.charAt? pos with
  | none => utf8Len t
  | some c =>
    if c = '\\' then
      match t.charAt? (pos + c.utf8Size) with
      | some d => scanString t q (pos + c.utf8Size + d.utf8Size)
      | none => scanString t q (pos + c.utf8Size)
    else if c = q then
      if t.charAt? (pos + c.utf8Size) = some q then
        scanString t q (pos + c.utf8Size + q.utf8Size)
      else pos + c.utf8Size
    else scanString t q (pos + c.utf8Size)
termination_by utf8Len t - pos
decreasing_by
  all_goals
    have hle := Text.add_utf8Size_le_of_charAt? _hc
    have hpos := c.utf8Size_pos
    omega

/-- The end of a line comment: the newline is not part of it. -/
def scanLineComment? (t : Text) (pos : Nat) : Option Nat := do
  let rest ← t.dropBytes? pos
  return ((Text.findChar? (· == '\n') rest).map (pos + ·)).getD (utf8Len t)

def scanBlockComment? (t : Text) (pos : Nat) : Option Nat := do
  let rest ← t.dropBytes? (pos + 2)
  return ((Text.findWord? ['*', '/'] rest).map (pos + 2 + · + 2)).getD (utf8Len t)

/-- The class of the token that starts with the character `c` at `pos`, and where it ends. -/
def classify? (t : Text) (pos : Nat) (c : Char) : Option (TokenClass × Nat) := do
  let rest ← t.dropBytes? pos
  if Text.isBlank c then return (.plain, ← scanWhile? t pos Text.isBlank)
  else if isQuote c then return (.string, scanString t c (pos + c.utf8Size))
  else if ['-', '-'].isPrefixOf rest then return (.comment, ← scanLineComment? t pos)
  else if ['/', '*'].isPrefixOf rest then return (.comment, ← scanBlockComment? t pos)
  else if startsWord c then
    let stop ← scanWhile? t pos continuesWord
    let word ← t.slice? pos stop
    return (if isKeyword word then .keyword else .plain, stop)
  else if Text.isDigit c || (c == '-' && (t.charAt? (pos + 1)).any Text.isDigit) then
    return (.number, ← scanWhile? t (pos + c.utf8Size) continuesNumber)
  else return (.plain, pos + c.utf8Size)

/-! ## Reading on -/

/-- What reading on from some offset comes to. -/
inductive Step where
  | ended
  | found (token : Token) (next : Scanner)
  /-- The text was to be cut where it cannot be cut. -/
  | outside

def step (s : Scanner) : Step :=
  match s.text.charAt? s.pos with
  | none => .ended
  | some c =>
    match classify? s.text s.pos c with
    | none => .outside
    | some (kind, stop) =>
      match s.text.slice? s.pos stop with
      | none => .outside
      | some word => .found ⟨kind, word⟩ { s with pos := stop }

inductive Ending where
  | ended
  | outside
  /-- It did not, within the steps that it was given. -/
  | unfinished
  deriving DecidableEq

/-- The tokens found in at most `n` steps. -/
def run : Nat → Scanner → List Token × Ending
  | 0, _ => ([], .unfinished)
  | n + 1, s =>
    match s.step with
    | .ended => ([], .ended)
    | .outside => ([], .outside)
    | .found token next => (token :: (run n next).1, (run n next).2)

end Scanner
end Query
end QueryView
