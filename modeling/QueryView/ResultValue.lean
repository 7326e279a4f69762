/-
Rows of a query result, as JSON.

A result value is what a database hands over: besides the values that JSON knows
there are byte strings, floats that are no numbers, and attachments.  Bytes become
base 64, an attachment becomes a small object that describes it, and a float without
a decimal becomes null.  A map keeps the order of its entries, and an entry whose key
came before replaces the earlier value in its place.
-/
import QueryView.Json.Print
import QueryView.Numeric.DecimalText
import QueryView.Text.Base64

namespace QueryView

/-- What a database reports about an attachment. -/
structure Attachment where
  contentType : Option Text := none
  length : Option Nat := none
  digest : Option Text := none
  deriving DecidableEq

/-- A value of a query result.  A float is given by its 64 bits. -/
inductive ResultValue where
  | null
  | bool (b : Bool)
  | int (i : Int)
  | float (bits : UInt64)
  | string (t : Text)
  | bytes (b : List UInt8)
  | attachment (a : Attachment)
  | array (items : List ResultValue)
  | map (entries : List (Text × ResultValue))

namespace Json

/-- A float is written with a plain point from a hundred-thousandth up to ten to the
sixteenth, and with an exponent elsewhere. -/
def floatStyle : Numeric.DecimalStyle := ⟨-5, 16⟩

/-- The number that a float of 64 bits is written as, or null if it has none. -/
def ofFloat (bits : UInt64) : Tree :=
  match Numeric.Binary.write? Numeric.Format.double floatStyle
      (Numeric.Format.double.decode bits.toNat) with
  | some source => .number source
  | none => .null

def ofInt (i : Int) : Tree := .number (Text.ofInt i)

end Json

namespace Attachment

/-- A member of a description, if there is something to say. -/
def member? {α : Type} (key : String) (f : α → Json.Tree) : Option α → Json.Members Json.Tree
  | some a => [(key.toList, f a)]
  | none => []

def tree (a : Attachment) : Json.Tree :=
  .object (("@type".toList, .string "blob".toList) ::
    (member? "contentType" .string a.contentType ++
      (member? "length" (fun n => Json.ofInt (.ofNat n)) a.length ++
        member? "digest" .string a.digest)))

end Attachment

namespace ResultValue

mutual

def tree : ResultValue → Json.Tree
  | .null => .null
  | .bool b => .bool b
  | .int i => Json.ofInt i
  | .float bits => Json.ofFloat bits
  | .string t => .string t
  | .bytes b => .string (Text.base64 b)
  | .attachment a => a.tree
  | .array items => .array (itemTrees items)
  | .map entries => .object (Json.Members.merge (entryTrees entries))

def itemTrees : List ResultValue → List Json.Tree
  | [] => []
  | v :: rest => tree v :: itemTrees rest

/-- The entries of a map as JSON, with every repetition of a key. -/
def entryTrees : List (Text × ResultValue) → Json.Members Json.Tree
  | [] => []
  | (key, v) :: rest => (key, tree v) :: entryTrees rest

end

/-- The rows of a result as one JSON text. -/
def jsonText (rows : List ResultValue) : Text := Json.Value.compact (.array (itemTrees rows))

end ResultValue
end QueryView
