/-
How a text is shown, apart from its colors.

The same layout goes to the layer that takes input and to the layer that shows
colors, so that the two stay aligned.
-/
import QueryView.Numeric.Single

namespace QueryView

structure Layout where
  fontSize : Numeric.Single
  fontFamily : Text
  /-- The space around the text, in pixels or cells. -/
  padding : Nat
  /-- What is shown in place of an empty text. -/
  placeholder : Option Text
  readOnly : Bool
  autosize : Bool
  deriving DecidableEq

namespace Layout

def standard : Layout where
  fontSize := Numeric.Single.ofInt 14
  fontFamily := "monospace".toList
  padding := 4
  placeholder := none
  readOnly := false
  autosize := true

end Layout
end QueryView
