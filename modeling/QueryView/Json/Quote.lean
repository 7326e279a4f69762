/-
Strings as JSON writes them.

A text is written between quotation marks.  The mark itself and the backslash are
escaped, and so is every character below U+0020: by a short escape where there is
one, by its code in four small hexadecimal digits elsewhere.  All other characters
stand for themselves.
-/
import QueryView.Json.Value

namespace QueryView
namespace Json

def escape (c : Char) : Text :=
  if c = '"' then ['\\', '"']
  else if c = '\\' then ['\\', '\\']
  else if c = '\x08' then ['\\', 'b']
  else if c = '\x0c' then ['\\', 'f']
  else if c = '\n' then ['\\', 'n']
  else if c = '\r' then ['\\', 'r']
  else if c = '\t' then ['\\', 't']
  else if c.toNat < 0x20 then
    ['\\', 'u', '0', '0', Text.hexDigit 'a' (c.toNat / 16), Text.hexDigit 'a' (c.toNat % 16)]
  else [c]

def quote (t : Text) : Text := '"' :: (t.flatMap escape ++ ['"'])

end Json
end QueryView
