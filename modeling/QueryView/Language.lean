/-
The languages a text can be highlighted as, by name and by file extension.
-/
import QueryView.Text.Path

namespace QueryView

/-- How a text is cut into runs. -/
inductive Language where
  /-- A query, cut into tokens and otherwise left alone. -/
  | query
  /-- A JSON document, laid out anew. -/
  | json
  | plain
  deriving DecidableEq

namespace Language

/-- The language in force where none is chosen. -/
def standard : Language := plain

def name : Language → Text
  | query => "SQL".toList
  | json => "JSON".toList
  | plain => "Plain".toList

/-- Words that mean the query language, both as names and as file extensions. -/
def queryWords : List Text := ["sql".toList, "n1ql".toList, "sqlpp".toList]

def plainWords : List Text := ["plain".toList, "plaintext".toList, "text".toList]

/-- The language a text names, in either case and with blanks around it. -/
def ofName? (t : Text) : Option Language :=
  let word := Text.lower (Text.trim t)
  if word ∈ queryWords then some query
  else if word = "json".toList then some json
  else if word ∈ plainWords then some plain
  else none

/-- The language of a file, judged by the extension of its name alone. -/
def ofPath (path : Text) : Language :=
  match (Text.extension? path).map Text.lower with
  | some word =>
    if word ∈ queryWords then query
    else if word = "json".toList then json
    else plain
  | none => plain

end Language
end QueryView
