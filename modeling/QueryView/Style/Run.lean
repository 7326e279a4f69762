/-
Runs: pieces of text that share one color and one weight.

A highlighter answers with a sequence of runs, replaced as a whole on every pass.
What a sequence shows is the concatenation of its texts, `RunSequence.text`.
-/
import QueryView.Style.Color

namespace QueryView

/-- A piece of text in one color and weight. -/
structure Run where
  text : Text
  color : Color
  bold : Bool := false
  deriving DecidableEq

/-- The runs of one highlighting pass, in order. -/
abbrev RunSequence := List Run

namespace RunSequence

/-- The text that a sequence of runs shows. -/
def text (runs : RunSequence) : Text := runs.flatMap Run.text

/-- No run shows anything.  A sequence can show nothing and still hold runs. -/
def showsNothing (runs : RunSequence) : Bool := runs.all fun run => run.text.isEmpty

@[simp] theorem text_nil : text [] = [] := rfl

@[simp] theorem text_cons (run : Run) (runs : RunSequence) :
    text (run :: runs) = run.text ++ text runs := rfl

/-- The two ways to say that a sequence shows nothing agree. -/
theorem showsNothing_iff (runs : RunSequence) : showsNothing runs = true ↔ text runs = [] := by
  simp [showsNothing, text]

end RunSequence
end QueryView
