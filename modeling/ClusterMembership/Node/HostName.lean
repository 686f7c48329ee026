import ClusterMembership.Text.Classes
import ClusterMembership.Text.Units

/-!
# Host names

A host name is a row of labels with points between them.  A label has from 1 to 63 ASCII letters, digits and
hyphens, with no hyphen at either end.  Names are read once from left to right.
-/

namespace ClusterMembership.HostName

def greatestLength : Nat := 253

def greatestLabel : Nat := 63

/-- Whether the rest of a host name is well formed, after `length` characters of the label at hand, the last
of them a hyphen or not. -/
def readLabels (length : Nat) (afterHyphen : Bool) : List Char → Bool
  | [] => length != 0 && !afterHyphen
  | c :: rest =>
    if c = '.' then length != 0 && !afterHyphen && readLabels 0 false rest
    else if c = '-' then length != 0 && length < greatestLabel && readLabels (length + 1) true rest
    else
      (Text.isLetter c || Text.isDigit c) && length < greatestLabel &&
        readLabels (length + 1) false rest

def isWellFormed (text : String) : Bool := readLabels 0 false text.toList

def isTooLong (text : String) : Bool := greatestLength < Text.unitLength text

end ClusterMembership.HostName
