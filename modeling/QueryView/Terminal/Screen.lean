/-
A screen: the latest frame, and the sink that it is written to.

Rendering replaces the frame.  Presenting writes the frame out, after clearing the
screen if that is asked for; it can happen with every rendering or wait until it is
called for.  A failure to write leaves frame and layout as they are.
-/
import QueryView.Terminal.Frame
import QueryView.Terminal.Sink
import QueryView.Text.Utf8

namespace QueryView
namespace Terminal

/-- A render layer that writes to a sink. -/
structure Screen where
  sink : Sink := {}
  frame : Text := []
  /-- Every rendering is written out at once. -/
  autoPresent : Bool := true
  /-- The column limit, zero for none. -/
  wrapWidth : Nat := 0
  /-- Colors and weights are written as escape sequences. -/
  escapes : Bool := true
  /-- The screen is cleared before a frame is written. -/
  clears : Bool := false
  layout : Layout := Layout.standard

namespace Screen

def applyLayout (s : Screen) (layout : Layout) : Screen := { s with layout }

/-- What presenting writes before the frame. -/
def opening (s : Screen) : Text := if s.clears && s.escapes then clearScreen else []

/-- Writes the frame out.  The first failure ends it. -/
def present (s : Screen) : Except Failure Unit × Screen :=
  match s.sink.write (Text.utf8 s.opening) with
  | (.error e, sink) => (.error e, { s with sink })
  | (.ok (), sink) =>
    match sink.write (Text.utf8 s.frame) with
    | (.error e, sink) => (.error e, { s with sink })
    | (.ok (), sink) => (sink.flush, { s with sink })

/-- Replaces the frame by that of a sequence of runs, and writes it out if every
rendering is. -/
def render (s : Screen) (runs : RunSequence) : Except Failure Unit × Screen :=
  let shown := { s with frame := Terminal.frame s.escapes s.wrapWidth s.layout runs }
  if s.autoPresent then shown.present else (.ok (), shown)

end Screen
end Terminal
end QueryView
