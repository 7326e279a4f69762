/-
Two ways to write a tree: laid out for reading, and compact.

Laid out, a container that is not empty takes a line for each of its elements,
two spaces deeper than the container itself.  The result is a list of pieces with
their token classes, so that a highlighter can color it without reading it again.
Compact, nothing stands between the marks.  Numbers keep their source text in both.
-/
import QueryView.Json.Tree
import QueryView.Json.Quote
import QueryView.Style.TokenClass

namespace QueryView
namespace Json

def mark (s : String) : Token := ⟨.plain, s.toList⟩

/-- The indentation of a line at a given depth.  The outermost level has none. -/
def indentation (depth : Nat) : List Token :=
  if depth = 0 then [] else [⟨.plain, List.replicate (2 * depth) ' '⟩]

namespace Value

mutual

/-- The pieces of a tree that stands at a given depth. -/
def pieces (depth : Nat) : Tree → List Token
  | .null => [⟨.boolean, "null".toList⟩]
  | .bool true => [⟨.boolean, "true".toList⟩]
  | .bool false => [⟨.boolean, "false".toList⟩]
  | .number source => [⟨.number, source⟩]
  | .string s => [⟨.string, quote s⟩]
  | .array [] => [mark "[]"]
  | .array (v :: items) =>
    mark "[\n" :: (indentation (depth + 1) ++ (pieces (depth + 1) v ++
      (moreItemPieces (depth + 1) items ++ mark "\n" :: (indentation depth ++ [mark "]"]))))
  | .object [] => [mark "\x7b\x7d"]
  | .object ((key, v) :: members) =>
    mark "\x7b\n" :: (indentation (depth + 1) ++ (⟨.propertyName, quote key⟩ :: mark ": " ::
      (pieces (depth + 1) v ++ (moreMemberPieces (depth + 1) members ++
        mark "\n" :: (indentation depth ++ [mark "\x7d"])))))

def moreItemPieces (depth : Nat) : List Tree → List Token
  | [] => []
  | v :: rest =>
    mark ",\n" :: (indentation depth ++ (pieces depth v ++ moreItemPieces depth rest))

def moreMemberPieces (depth : Nat) : Members Tree → List Token
  | [] => []
  | (key, v) :: rest =>
    mark ",\n" :: (indentation depth ++ (⟨.propertyName, quote key⟩ :: mark ": " ::
      (pieces depth v ++ moreMemberPieces depth rest)))

end

mutual

def compact : Tree → Text
  | .null => "null".toList
  | .bool true => "true".toList
  | .bool false => "false".toList
  | .number source => source
  | .string s => quote s
  | .array items => '[' :: (compactItems items ++ [']'])
  | .object members => '{' :: (compactMembers members ++ ['}'])

def compactItems : List Tree → Text
  | [] => []
  | [v] => compact v
  | v :: rest => compact v ++ ',' :: compactItems rest

def compactMembers : Members Tree → Text
  | [] => []
  | [(key, v)] => quote key ++ ':' :: compact v
  | (key, v) :: rest => quote key ++ ':' :: (compact v ++ ',' :: compactMembers rest)

end

end Value

/-- The pieces of a JSON text laid out anew, if it is one. -/
def format? (t : Text) : Option (List Token) := (tree? t).map (Value.pieces 0)

end Json
end QueryView
