/-
TOML values, as TOML 1.0 has them.

A table is a list of keys and values, in the order in which a text gives them; no key
occurs twice.  An integer is one of 64 bits, a float a number of the 64 bit format.
Of a date or a time nothing is kept but that there is one: no setting takes it.
-/
import QueryView.Numeric.Binary

namespace QueryView
namespace Toml

/-- A TOML value. -/
inductive Value where
  | string (t : Text)
  | integer (i : Int)
  | float (x : Numeric.Binary)
  | boolean (b : Bool)
  /-- A date, a time of day, or both. -/
  | moment
  | array (items : List Value)
  | table (entries : List (Text × Value))

/-- The keys and values of a table, in order. -/
abbrev Table := List (Text × Value)

namespace Table

def get? (table : Table) (key : Text) : Option Value := List.lookup key table

end Table
end Toml
end QueryView
