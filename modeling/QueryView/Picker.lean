/-
Requests to a platform's dialog for files and folders.

Platforms differ in what their dialogs can do.  A request says what is wanted; fitting
it to a platform takes out what that platform cannot honor, so that the dialog is never
asked for something it would ignore.
-/
import QueryView.Text.Basic

namespace QueryView
namespace Picker

inductive Kind where
  | openFile
  | saveFile
  | folder
  deriving DecidableEq

def Kind.name : Kind → Text
  | openFile => "OpenFile".toList
  | saveFile => "SaveFile".toList
  | folder => "Folder".toList

structure Filter where
  name : Text
  extensions : List Text
  deriving DecidableEq

structure Capabilities where
  initialDirectory : Bool := true
  title : Bool := true
  filters : Bool := true
  deriving DecidableEq

structure Request where
  kind : Kind := .openFile
  title : Option Text := none
  initialDirectory : Option Text := none
  filters : List Filter := []
  deriving DecidableEq

/-- A request without what a platform cannot honor.  A folder has no extension, so
filters never reach a dialog for folders. -/
def Request.fit (r : Request) (can : Capabilities) : Request where
  kind := r.kind
  title := if can.title then r.title else none
  initialDirectory := if can.initialDirectory then r.initialDirectory else none
  filters := if can.filters ∧ r.kind ≠ .folder then r.filters else []

end Picker
end QueryView
