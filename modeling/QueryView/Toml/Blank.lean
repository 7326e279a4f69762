/-
What may stand between the parts of a TOML text.

Blanks inside a line are spaces and tabs.  A line ends with a line feed, with or
without a carriage return before it, or with the text.  A comment goes from `#` to the
end of its line.  No control character other than the tab may stand in a comment or
in a string.
-/
import QueryView.Text.Basic

namespace QueryView
namespace Toml

def isSpace (c : Char) : Bool := c == ' ' || c == '\t'

/-- A character that may stand in comments and strings. -/
def isVisible (c : Char) : Bool := c == '\t' || decide (0x20 ≤ c.toNat ∧ c.toNat ≠ 0x7F)

def skipSpaces (t : Text) : Text := t.dropWhile isSpace

/-- What follows the line end that a text starts with. -/
def afterNewline? : Text → Option Text
  | '\n' :: r => some r
  | '\r' :: '\n' :: r => some r
  | _ => none

/-- The text without blanks, line ends and comments at its start.  The flag says that
the text starts inside a comment. -/
def skipFill : Bool → Text → Text
  | _, [] => []
  | inComment, c :: r =>
    if inComment && isVisible c then skipFill true r
    else if isSpace c || c == '\n' then skipFill false r
    else if c = '#' then skipFill true r
    else if c = '\r' then
      match r with
      | '\n' :: r' => skipFill false r'
      | _ => c :: r
    else c :: r

/-- What follows the rest of a line that holds nothing but blanks and a comment. -/
def endLine? (t : Text) : Option Text :=
  let t := skipSpaces t
  let t := if t.head? = some '#' then t.dropWhile isVisible else t
  if t.isEmpty then some [] else afterNewline? t

end Toml
end QueryView
