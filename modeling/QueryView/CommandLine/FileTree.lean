/-
Files and directories, and how a path finds its way among them.

A path is followed name by name from the working directory, or from the root if it starts
with `/`.  An empty name and the name `.` stay where they are, and `..` goes back to the
directory around.  The way breaks off at the first name that cannot be followed: every
name needs a directory to start from, a stay included, so a path that goes on after a file
fails even if it only adds a `/`.

Lengths are those of the UTF-8 encoding.  A path that is too long fails before anything
is looked up, and a name that is too long fails when its turn comes.
-/
import QueryView.Failure
import QueryView.Text.Path

namespace QueryView
namespace CommandLine

inductive FileTree where
  | file (bytes : List UInt8)
  | directory (entries : List (Text × FileTree))

namespace FileTree

def maxNameLength : Nat := 255

def maxPathLength : Nat := 4095

def byteLength (t : Text) : Nat := t.foldr (fun c bytes => c.utf8Size + bytes) 0

/-- What a list of names leads to from a place in a tree.  `around` holds the directories
that the place lies in, from the innermost to the root. -/
def follow : List Text → FileTree → List FileTree → Except DeviceFailure FileTree
  | [], place, _ => .ok place
  | _ :: _, .file _, _ => .error .notDirectory
  | name :: rest, .directory entries, around =>
    if name = [] ∨ name = ['.'] then follow rest (.directory entries) around
    else if name = ['.', '.'] then
      match around with
      | [] => follow rest (.directory entries) []
      | outer :: further => follow rest outer further
    else if maxNameLength < byteLength name then .error .nameTooLong
    else
      match List.lookup name entries with
      | none => .error .notFound
      | some place => follow rest place (.directory entries :: around)

def find (place : FileTree) (around : List FileTree) (path : Text) :
    Except DeviceFailure FileTree :=
  if path = [] then .error .notFound
  else if maxPathLength < byteLength path then .error .nameTooLong
  else
    let names := Text.splitAtEvery '/' path
    if path.head? = some '/' then follow names (around.getLast?.getD place) []
    else follow names place around

def read (place : FileTree) (around : List FileTree) (path : Text) :
    Except DeviceFailure (List UInt8) :=
  match find place around path with
  | .error cause => .error cause
  | .ok (.file bytes) => .ok bytes
  | .ok (.directory _) => .error .isDirectory

end FileTree
end CommandLine
end QueryView
