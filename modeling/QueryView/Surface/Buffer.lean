/-
An editable layer in memory.

A buffer stores what is written to it and reports every write, programmatic or typed.
Typing, unlike writing, is ignored while the layout says that the text is read-only.
-/
import QueryView.Surface.Layer

namespace QueryView
namespace Surface

/-- A text with its layout. -/
structure Buffer where
  text : Text := []
  layout : Layout := Layout.standard
  deriving DecidableEq

namespace Buffer

/-- Replaces the text and reports it. -/
def write (b : Buffer) (t : Text) : Buffer × List Text := ({ b with text := t }, [t])

/-- Replaces the text as a user would. -/
def type (b : Buffer) (t : Text) : Buffer × List Text :=
  if b.layout.readOnly then (b, []) else b.write t

instance : EditableLayer Buffer where
  write := write
  text := text
  applyLayout b layout := { b with layout }

end Buffer
end Surface
end QueryView
