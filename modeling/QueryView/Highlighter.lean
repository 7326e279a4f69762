/-
From a text to colored runs.

A highlighter is a palette and a color for text without highlighting.  It changes
nothing, so the same text in the same language always gives the same runs.  A query
is cut into tokens and nothing of it is lost; a JSON document is laid out anew; a
text that was to be JSON and is not, like a text without a language, is one run.
-/
import QueryView.Language
import QueryView.Query.Lexer
import QueryView.Json.Print
import QueryView.Style.Palette
import QueryView.Style.Run

namespace QueryView

structure Highlighter where
  palette : Palette
  plainTextColor : Color
  deriving DecidableEq

namespace Highlighter

/-- A highlighter that shows unhighlighted text in the palette's own plain color. -/
def ofPalette (p : Palette) : Highlighter := ⟨p, p.plain⟩

def run (h : Highlighter) (t : Token) : Run :=
  { text := t.text, color := h.palette.colorOf t.kind, bold := t.kind.isBold }

/-- The tokens of a JSON text: its layout, or the text itself if it has none. -/
def jsonTokens (t : Text) : List Token := (Json.format? t).getD [⟨.plain, t⟩]

def highlight (h : Highlighter) (t : Text) : Language → RunSequence
  | .query => (Query.tokens t).map h.run
  | .json => (jsonTokens t).map h.run
  | .plain => [{ text := t, color := h.plainTextColor }]

end Highlighter

/-- The runs of a text in the colors of a palette. -/
def highlight (p : Palette) (t : Text) (language : Language) : RunSequence :=
  (Highlighter.ofPalette p).highlight t language

end QueryView
