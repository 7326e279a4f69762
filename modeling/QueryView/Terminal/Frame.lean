/-
Runs as the text of a terminal frame.

A frame starts with a margin, and every line after it starts with the same margin.
Characters are placed one after the other: a line end of the text starts a new line,
and so does a character that would go past the wrap limit, unless it is the first of
its line.  The column goes on from one run to the next, so how a text is cut into
runs has no influence on where its lines break.

With escapes on, each run is wrapped in the sequences that select its color and
weight and turn them off again; the margin before the first run carries none.
-/
import QueryView.Layout
import QueryView.Style.Run
import QueryView.Text.Width

namespace QueryView
namespace Terminal

/-! ## Lines -/

/-- What decides where lines break: the margin of a line and the columns beside it, of
which zero means that there is no limit. -/
structure Ruler where
  margin : Text
  limit : Nat

namespace Ruler

/-- The ruler of a terminal of a given width under a layout.  A width of zero sets no
limit, and neither does one that the margin uses up. -/
def ofLayout (wrapWidth : Nat) (layout : Layout) : Ruler where
  margin := List.replicate layout.padding ' '
  limit := wrapWidth - layout.padding

def newLine (r : Ruler) : Text := '\n' :: r.margin

/-- A character goes past the limit at a column that is not the first. -/
def overflows (r : Ruler) (column : Nat) (c : Char) : Bool :=
  decide (0 < r.limit ∧ 0 < column ∧ r.limit < column + Text.width c)

/-- What a character adds to the frame at a column, and the column after it. -/
def place (r : Ruler) (column : Nat) (c : Char) : Text × Nat :=
  if c = '\n' then (r.newLine, 0)
  else if r.overflows column c then (r.newLine ++ [c], Text.width c)
  else ([c], column + Text.width c)

/-- What a text adds to the frame from a column on, and the column after it. -/
def layOut (r : Ruler) : Nat → Text → Text × Nat
  | column, [] => ([], column)
  | column, c :: t =>
    ((r.place column c).1 ++ (layOut r (r.place column c).2 t).1,
      (layOut r (r.place column c).2 t).2)

/-- The runs with their texts laid out, from a column on. -/
def layOutRuns (r : Ruler) : Nat → RunSequence → RunSequence
  | _, [] => []
  | column, run :: runs =>
    { run with text := (r.layOut column run.text).1 } ::
      layOutRuns r (r.layOut column run.text).2 runs

end Ruler

/-! ## Escapes -/

/-- An escape sequence from the characters that follow its introducer. -/
def escapeSequence (body : Text) : Text := '\x1b' :: '[' :: body

def selectAttributes (parameters : List Nat) : Text :=
  escapeSequence (((parameters.map Text.ofNat).intersperse [';']).flatten ++ ['m'])

def selectColor (c : Color) : Text :=
  selectAttributes [38, 2, c.red.toNat, c.green.toNat, c.blue.toNat]

def selectBold : Text := selectAttributes [1]

def selectDim : Text := selectAttributes [2]

def selectNormalIntensity : Text := selectAttributes [22]

def resetAttributes : Text := selectAttributes [0]

def clearScreen : Text := escapeSequence ['2', 'J'] ++ escapeSequence ['1', ';', '1', 'H']

/-- A run that is laid out already, between the sequences for its color and weight.
Attributes and color are turned off one after the other. -/
def paint (escapes : Bool) (run : Run) : Text :=
  if escapes then
    selectColor run.color ++ ((if run.bold then selectBold else []) ++
      (run.text ++ (resetAttributes ++ resetAttributes)))
  else run.text

/-! ## Frames -/

/-- The line that stands in place of an empty text. -/
def placeholderLine (escapes : Bool) (margin placeholder : Text) : Text :=
  if escapes then selectDim ++ (margin ++ placeholder ++ selectNormalIntensity)
  else margin ++ placeholder

/-- The frame of a sequence of runs.  If they show nothing it is the placeholder, or
empty if there is none. -/
def frame (escapes : Bool) (wrapWidth : Nat) (layout : Layout) (runs : RunSequence) : Text :=
  let ruler := Ruler.ofLayout wrapWidth layout
  if RunSequence.showsNothing runs then
    match layout.placeholder with
    | some placeholder => placeholderLine escapes ruler.margin placeholder
    | none => []
  else ruler.margin ++ (ruler.layOutRuns 0 runs).flatMap (paint escapes)

end Terminal
end QueryView
