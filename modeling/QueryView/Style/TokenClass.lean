/-
Classes of tokens, and tokens as pieces of text with a class.

The same seven classes serve queries and JSON: a highlighter cuts its input into
tokens, and a palette gives each class its color.  Only keywords are drawn bold.
-/
import QueryView.Text.Basic

namespace QueryView

/-- What a piece of highlighted text is. -/
inductive TokenClass where
  /-- Blanks, punctuation, identifiers: everything without a class of its own. -/
  | plain
  | keyword
  | string
  | number
  | comment
  /-- The key of a JSON object member. -/
  | propertyName
  /-- The JSON literals `true`, `false` and `null`. -/
  | boolean
  deriving DecidableEq

namespace TokenClass

/-- Every class, in the order in which palettes list their colors. -/
def all : List TokenClass := [plain, keyword, string, number, comment, propertyName, boolean]

def name : TokenClass → Text
  | plain => "Default".toList
  | keyword => "Keyword".toList
  | string => "String".toList
  | number => "Number".toList
  | comment => "Comment".toList
  | propertyName => "PropertyName".toList
  | boolean => "Boolean".toList

/-- The class of a given name.  Names are matched exactly. -/
def ofName? (t : Text) : Option TokenClass := all.find? fun c => c.name == t

/-- A class is found under its own name. -/
theorem ofName?_name (c : TokenClass) : ofName? c.name = some c := by cases c <;> rfl

/-- Keywords are drawn bold, and nothing else is. -/
def isBold : TokenClass → Bool
  | keyword => true
  | _ => false

theorem isBold_iff (c : TokenClass) : c.isBold = true ↔ c = keyword := by
  cases c <;> simp [isBold]

end TokenClass

/-- A piece of text and its class. -/
structure Token where
  kind : TokenClass
  text : Text
  deriving DecidableEq

namespace Token

/-- The texts of a list of tokens, one after the other. -/
def concat (tokens : List Token) : Text := tokens.flatMap Token.text

end Token
end QueryView
