/-
From documents to trees: decoding what a document shows.

A tree is a document whose strings are texts and whose objects hold each key once.
Decoding follows what a reader of the document would see.  All keys of an object
are decoded, since they decide which members there are; of its values only those
are needed that no later member with the same key replaces.  A string that spells
no text therefore spoils a document only where it is needed.
-/
import QueryView.Json.Document

namespace QueryView
namespace Json

namespace Members

variable {α : Type}

/-- The members with their values, if every value is there. -/
def allPresent? : Members (Option α) → Option (Members α)
  | [] => some []
  | (key, value) :: rest =>
    match value, allPresent? rest with
    | some v, some members => some ((key, v) :: members)
    | _, _ => none

end Members

namespace Value

mutual

/-- The tree that a document stands for, unless a string that it needs spells no text. -/
def decode? : Document → Option Tree
  | .null => some .null
  | .bool b => some (.bool b)
  | .number source => some (.number source)
  | .string s => (Spelling.decode? s).map .string
  | .array items => (decodeItems? items).map .array
  | .object members =>
    match decodeMembers? members with
    | some decoded => ((Members.merge decoded).allPresent?).map .object
    | none => none

def decodeItems? : List Document → Option (List Tree)
  | [] => some []
  | v :: rest =>
    match decode? v, decodeItems? rest with
    | some tree, some trees => some (tree :: trees)
    | _, _ => none

/-- The decoded keys of an object, each with the tree of its value if it has one. -/
def decodeMembers? : List (Spelling × Document) → Option (Members (Option Tree))
  | [] => some []
  | (k, v) :: rest =>
    match Spelling.decode? k, decodeMembers? rest with
    | some key, some members => some ((key, decode? v) :: members)
    | _, _ => none

end

end Value

/-- The tree of a text, if the text is JSON and everything it shows can be decoded. -/
def tree? (t : Text) : Option Tree := (parse? t).bind Value.decode?

end Json
end QueryView
