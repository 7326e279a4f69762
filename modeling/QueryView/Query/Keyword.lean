/-
The reserved words of the query language.

A word is reserved in any mix of capitals and small letters.  The order of the
list is the order in which the words are shown to a user.
-/
import QueryView.Text.Basic

namespace QueryView
namespace Query

def keywords : List Text :=
  ["SELECT", "FROM", "WHERE", "GROUP", "BY", "HAVING", "ORDER", "LIMIT", "OFFSET", "JOIN",
   "INNER", "LEFT", "RIGHT", "FULL", "OUTER", "ON", "AS", "AND", "OR", "NOT", "IN", "IS", "NULL",
   "ARRAY", "FOR", "WHEN", "THEN", "ELSE", "END", "DISTINCT", "ANY", "EVERY", "SATISFIES", "LIKE",
   "BETWEEN", "CASE", "LET", "USE", "KEYS", "INSERT", "UPDATE", "DELETE", "UNNEST", "META",
   "TRUE", "FALSE", "UNION", "ALL", "EXCEPT", "INTERSECT", "UPSERT", "VALUES", "RETURNING",
   "EXISTS", "PRIMARY", "KEY", "SET"].map String.toList

/-- A word is reserved, whatever the case of its letters. -/
def isKeyword (word : Text) : Bool := keywords.any fun k => Text.sameLetters k word

end Query
end QueryView
