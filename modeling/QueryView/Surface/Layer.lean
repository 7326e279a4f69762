/-
The two layers of a surface.

The editable layer takes input and holds raw text.  The render layer shows colored runs
and never takes input.  A surface knows its layers only through the operations below, so
whatever it guarantees holds for every layer.

Writing to an editable layer may make it report changes, the way native text controls
report programmatic writes.  A write therefore answers with the layer as it is after the
write and with the texts that it reports, in order.  Rendering may fail, and it may panic.
-/
import QueryView.Failure
import QueryView.Layout
import QueryView.Style.Run

namespace QueryView
namespace Surface

/-- A layer that takes input. -/
class EditableLayer (E : Type) where
  /-- Overwrites the raw text, and tells which changes the layer reports. -/
  write : E → Text → E × List Text
  text : E → Text
  applyLayout : E → Layout → E

inductive Rendering where
  | shown
  | failed (failure : Failure)
  | panicked (reason : Text)
  deriving DecidableEq

/-- The rendering that the result of a device means. -/
def Rendering.ofResult : Except Failure Unit → Rendering
  | .ok () => .shown
  | .error failure => .failed failure

/-- A layer that shows runs. -/
class RenderLayer (R : Type) where
  /-- Replaces everything shown. -/
  render : R → RunSequence → R × Rendering
  applyLayout : R → Layout → R

end Surface
end QueryView
