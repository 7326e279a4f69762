/-
The state of a surface, from which everything it shows follows.
-/
import QueryView.Highlighter
import QueryView.Layout

namespace QueryView
namespace Surface

structure State where
  text : Text
  language : Language
  /-- The color of text that is not highlighted; without one the theme decides. -/
  plainTextColor : Option Color
  theme : Theme
  layout : Layout
  deriving DecidableEq

namespace State

def initial (theme : Theme) : State where
  text := []
  language := Language.standard
  plainTextColor := none
  theme := theme
  layout := Layout.standard

def effectivePlainTextColor (s : State) : Color :=
  s.plainTextColor.getD s.theme.plainTextColor

def highlighter (s : State) : Highlighter where
  palette := s.theme.palette
  plainTextColor := s.effectivePlainTextColor

def runs (s : State) : RunSequence := s.highlighter.highlight s.text s.language

end State

/-- A change of one setting of a layout, or of all of them. -/
inductive LayoutChange where
  | fontSize (x : Numeric.Single)
  | fontFamily (family : Text)
  | padding (n : Nat)
  | placeholder (t : Option Text)
  | readOnly (on : Bool)
  | autosize (on : Bool)
  | all (layout : Layout)
  deriving DecidableEq

namespace LayoutChange

def apply (layout : Layout) : LayoutChange → Layout
  | fontSize x => { layout with fontSize := x }
  | fontFamily family => { layout with fontFamily := family }
  | padding n => { layout with padding := n }
  | placeholder t => { layout with placeholder := t }
  | readOnly on => { layout with readOnly := on }
  | autosize on => { layout with autosize := on }
  | all new => new

end LayoutChange
end Surface
end QueryView
