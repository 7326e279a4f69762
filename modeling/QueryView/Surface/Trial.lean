/-
Layers to try a surface out with.

The editable layer keeps at most a given number of the characters that are written to it,
as a field of limited length does.  The render layer can be told to fail or to panic; while
it works it keeps what it was given, and shows it on a screen if it has one.
-/
import QueryView.Surface.Buffer
import QueryView.Terminal.Screen

namespace QueryView
namespace Surface

structure LimitedBuffer where
  /-- How many characters of a programmatic write are kept; without it, all. -/
  capacity : Option Nat := none
  buffer : Buffer := {}

namespace LimitedBuffer

def kept (b : LimitedBuffer) (t : Text) : Text :=
  match b.capacity with
  | some n => t.take n
  | none => t

/-- Replaces the text by the part of another that is kept. -/
def write (b : LimitedBuffer) (t : Text) : LimitedBuffer × List Text :=
  let (buffer, reports) := b.buffer.write (b.kept t)
  ({ b with buffer }, reports)

/-- Replaces the text as a user would, who is not held to the limit. -/
def type (b : LimitedBuffer) (t : Text) : LimitedBuffer × List Text :=
  let (buffer, reports) := b.buffer.type t
  ({ b with buffer }, reports)

instance : EditableLayer LimitedBuffer where
  write := write
  text b := b.buffer.text
  applyLayout b layout := { b with buffer := { b.buffer with layout } }

end LimitedBuffer

inductive DisplayMode where
  | works
  | fails (failure : Failure)
  | panics (reason : Text)
  deriving DecidableEq

/-- A render layer that can be told to fail. -/
structure Display where
  mode : DisplayMode := .works
  /-- What was shown last, if anything was. -/
  frame : Option RunSequence := none
  screen : Option Terminal.Screen := none
  layout : Layout := Layout.standard

namespace Display

/-- Keeps runs and shows them, if the display works. -/
def render (d : Display) (runs : RunSequence) : Display × Rendering :=
  match d.mode with
  | .fails failure => (d, .failed failure)
  | .panics reason => (d, .panicked reason)
  | .works =>
    match d.screen with
    | none => ({ d with frame := some runs }, .shown)
    | some screen =>
      let (result, screen) := screen.render runs
      ({ d with frame := some runs, screen := some screen }, Rendering.ofResult result)

def present (d : Display) : Display × Except Failure Unit :=
  match d.screen with
  | none => (d, .ok ())
  | some screen =>
    let (result, screen) := screen.present
    ({ d with screen := some screen }, result)

instance : RenderLayer Display where
  render := render
  applyLayout d layout :=
    { d with layout, screen := d.screen.map fun s => s.applyLayout layout }

end Display
end Surface
end QueryView
