/-
Numbers of 32 bits, and the two ways the library handles them: it keeps them by
their bits, so that two of them are the same when nothing can tell them apart, and
it compares them by their value.
-/
import QueryView.Numeric.Binary

namespace QueryView
namespace Numeric

structure Single where
  bits : UInt32
  deriving DecidableEq

namespace Single

def value (x : Single) : Binary := Format.single.decode x.bits.toNat

def ofBinary (x : Binary) : Single := ⟨UInt32.ofNat (Format.single.encode x)⟩

def ofInt (i : Int) : Single := ofBinary (Format.single.ofInt i)

def isNaN (x : Single) : Bool := decide (x.value = .nan)

def below (x y : Single) : Bool := Binary.below Format.single x.value y.value

/-- A number moved into the range from `low` to `high`.  What is not a number stays
what it is. -/
def clamp (low high x : Single) : Single :=
  if x.below low then low else if high.below x then high else x

end Single
end Numeric
end QueryView
