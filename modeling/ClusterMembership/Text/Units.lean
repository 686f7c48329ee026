/-!
# Lengths and order of texts in UTF-16 units

A text is measured, and texts are put in order, by the 16-bit units of its UTF-16 form: a character beyond
the basic plane counts twice and sorts by its leading surrogate.
-/

namespace ClusterMembership.Text

def unitsOfChar (c : Char) : List Nat :=
  let code := c.toNat
  if code < 0x10000 then [code]
  else [0xD800 + (code - 0x10000) / 0x400, 0xDC00 + (code - 0x10000) % 0x400]

def units (text : String) : List Nat := text.toList.flatMap unitsOfChar

def unitLength (text : String) : Nat := (units text).length

/-- Lexicographic order on lists of units, a proper beginning first. -/
def unitsAtMost : List Nat → List Nat → Bool
  | [], _ => true
  | _ :: _, [] => false
  | a :: as, b :: bs => a < b || (a = b && unitsAtMost as bs)

def atMost (a b : String) : Bool := unitsAtMost (units a) (units b)

def sorted (texts : List String) : List String := texts.mergeSort atMost

end ClusterMembership.Text
