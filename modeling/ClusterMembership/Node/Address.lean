import ClusterMembership.Text.Classes
import ClusterMembership.Text.Split

/-!
# IP addresses

An address of version 4 is four decimal octets with points between them.  One of version 6 is eight groups of
hexadecimal digits with colons between them, where two colons stand for one or more groups of zeros and an
address of version 4 may stand for the last two groups; a zone may follow after a percent sign.
-/

namespace ClusterMembership.Address

open Text

/-- A decimal number up to 255 without needless zeros. -/
def isOctet (chars : List Char) : Bool :=
  match chars with
  | [a] => isDigit a
  | [a, b] => isDigit a && a ≠ '0' && isDigit b
  | [a, b, c] =>
    isDigit a && isDigit b && isDigit c && a ≠ '0' &&
      decide ((a.toNat - 48) * 100 + (b.toNat - 48) * 10 + (c.toNat - 48) ≤ 255)
  | _ => false

def isVersion4 (chars : List Char) : Bool :=
  let octets := pieces '.' chars
  octets.length = 4 && octets.all isOctet

/-- One to four hexadecimal digits. -/
def isGroup (chars : List Char) : Bool :=
  1 ≤ chars.length && chars.length ≤ 4 && chars.all isHexDigit

/-- How many groups a row of groups stands for when each is well formed; the last may be an address of
version 4, which stands for two. -/
def countGroups? : List (List Char) → Option Nat
  | [] => some 0
  | [last] => if isGroup last then some 1 else if isVersion4 last then some 2 else none
  | group :: rest => if isGroup group then (countGroups? rest).map (· + 1) else none

/-- How many groups stand before a double colon, where none is an address of version 4. -/
def countBefore? (chars : List Char) : Option Nat :=
  if chars.isEmpty then some 0
  else
    let groups := pieces ':' chars
    if groups.all isGroup then some groups.length else none

/-- How many groups stand after a double colon. -/
def countAfter? (chars : List Char) : Option Nat :=
  if chars.isEmpty then some 0 else countGroups? (pieces ':' chars)

/-- Whether an address of version 6 without zone is well formed: eight groups, or at most seven around a
double colon. -/
def isVersion6Body (chars : List Char) : Bool :=
  match cutAtDouble? ':' chars with
  | none => countGroups? (pieces ':' chars) = some 8
  | some (before, after) =>
    match countBefore? before, countAfter? after with
    | some b, some a => b + a ≤ 7
    | _, _ => false

/-- A zone: letters, digits, hyphens, points and colons. -/
def isZone (chars : List Char) : Bool :=
  !chars.isEmpty && chars.all fun c ↦ isLetter c || isDigit c || c = '-' || c = '.' || c = ':'

def isVersion6 (chars : List Char) : Bool :=
  match cutAt? '%' chars with
  | none => isVersion6Body chars
  | some (body, zone) => isVersion6Body body && isZone zone

def isValid (text : String) : Bool := isVersion4 text.toList || isVersion6 text.toList

end ClusterMembership.Address
