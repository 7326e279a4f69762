/-
Dates and times that are written as a table.

A table may stand for a date or a time: its first key is then `momentKey`, it has no
other, and the string under that key spells the moment out.  A table that starts with
this key and is no such spelling is unsound, and so is every value that holds it.

Which texts spell a moment out is left open here (`spells`), because releases of toml_datetime
differ in it: older ones took the hour 24 and offsets of a whole day.  Now it is the spelling
of dates and times outside of strings, and nothing may stand before or after it (`isMoment`).
-/
import QueryView.Toml.Scalar

namespace QueryView
namespace Toml

/-- The text is a date, a time, or a date and a time with or without an offset. -/
def isMoment (t : Text) : Bool := afterMoment? t == some []

/-- The key of a table that stands for a date or a time. -/
def momentKey : Text := "$__toml_private_datetime".toList

variable (spells : Text → Bool)

/-- The value is a string that spells a moment out. -/
def Value.spellsMoment : Value → Bool
  | .string t => spells t
  | _ => false

mutual

/-- Every table of the value that claims to be a moment is one. -/
def Value.isSound : Value → Bool
  | .array items => areSound items
  | .table [] => true
  | .table ((key, v) :: rest) =>
    if key = momentKey then v.spellsMoment spells && rest.isEmpty
    else v.isSound && areSoundEntries rest
  | _ => true

def areSound : List Value → Bool
  | [] => true
  | v :: rest => v.isSound && areSound rest

def areSoundEntries : List (Text × Value) → Bool
  | [] => true
  | (_, v) :: rest => v.isSound && areSoundEntries rest

end

end Toml
end QueryView
