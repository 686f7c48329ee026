import ClusterMembership.Text.Classes
import ClusterMembership.Text.Units

/-!
# The order of listings

Listings of datanodes are sorted by names the way a reader looks them up: first without regard to case,
with the hyphen before the point, both before the digits and the digits before the letters; among names
that differ in case only, the small letter comes first at the first difference.
-/

namespace ClusterMembership.Text

/-- The rank of a character when case does not matter. -/
def listingRank (c : Char) : Nat :=
  if c = '-' then 0
  else if c = '.' then 1
  else if isDigit c then 2 + (c.toNat - '0'.toNat)
  else if isLetter c then 12 + (c.toLower.toNat - 'a'.toNat)
  else 64 + c.toNat

def caseRank (c : Char) : Nat := if 'A' ≤ c && c ≤ 'Z' then 1 else 0

/-- What a name is listed by: ranks without case, then cases. -/
def listingKey (name : String) : List Nat × List Nat :=
  (name.toList.map listingRank, name.toList.map caseRank)

/-- Whether two names are listed as equal. -/
def listedAlike (a b : String) : Bool := listingKey a = listingKey b

def listedAtMost (a b : String) : Bool :=
  let (ranks, cases) := listingKey a
  let (ranks', cases') := listingKey b
  if ranks = ranks' then unitsAtMost cases cases' else unitsAtMost ranks ranks'

end ClusterMembership.Text
