/-
File names written as paths with `/` between their components.

A path is looked at through its components: empty components and the component
`.` name nothing, so `a//b/.` has the components `a` and `b`.  An extension is what
follows the last dot of the last component, and a dot that opens the component
opens no extension.
-/
import QueryView.Text.Basic

namespace QueryView
namespace Text

/-- The pieces of a text between the places where `sep` stands. -/
def splitAtEvery (sep : Char) (t : Text) : List Text :=
  t.foldr (fun c pieces =>
    if c = sep then [] :: pieces
    else match pieces with
      | [] => [[c]]
      | piece :: rest => (c :: piece) :: rest) [[]]

/-- The components of a path that name something. -/
def components (path : Text) : List Text :=
  (splitAtEvery '/' path).filter fun piece => piece != [] && piece != ['.']

/-- What follows the last dot of a file name, if a dot stands after its first character. -/
def extensionOfName? (name : Text) : Option Text :=
  if name = ['.', '.'] then none
  else
    let reversed := name.reverse
    match reversed.dropWhile (· != '.') with
    | _ :: _ :: _ => some (reversed.takeWhile (· != '.')).reverse
    | _ => none

def extension? (path : Text) : Option Text :=
  (components path).getLast?.bind extensionOfName?

/-- The path of `name` inside the directory `directory`.  An absolute name stands
for itself, and the empty directory adds nothing. -/
def joinPath (directory name : Text) : Text :=
  if name.head? = some '/' || directory = [] then name
  else if directory.getLast? = some '/' then directory ++ name
  else directory ++ '/' :: name

end Text
end QueryView
