import ClusterMembership.Number.Shortest

/-!
# The written form of numbers

Numbers are written with the fewest digits that read back.  The point is placed positionally while the
value lies below 10^21 and not below 10^-6; outside that range the first digit is followed by the others
and a signed exponent.
-/

namespace ClusterMembership.Number

/-- Positional notation ends where the point would stand after more digits than this. -/
def greatestPoint : Int := 21

/-- Positional notation ends where this many zeros would follow the point. -/
def leastPoint : Int := -6

def zeros (count : Nat) : List Char := List.replicate count '0'

def layOut (digits : List Char) (point : Int) : List Char :=
  let length : Int := digits.length
  if length ≤ point && point ≤ greatestPoint then digits ++ zeros (point - length).toNat
  else if 0 < point && point ≤ greatestPoint then
    digits.take point.toNat ++ '.' :: digits.drop point.toNat
  else if leastPoint < point && point ≤ 0 then '0' :: '.' :: zeros (-point).toNat ++ digits
  else
    let exponent := point - 1
    let mark := if exponent < 0 then '-' else '+'
    let scale := 'e' :: mark :: Nat.toDigits 10 exponent.natAbs
    match digits with
    | [] => scale
    | [digit] => digit :: scale
    | digit :: rest => digit :: '.' :: rest ++ scale

/-- The least integer above which not every integer is a double. -/
def exactLimit : Nat := 9007199254740992

/-- The characters of a finite value.  An integer of at most 53 bits is written out in full. -/
def finiteText (q : Rat) : List Char :=
  let magnitude :=
    if q.den = 1 && q.num.natAbs < exactLimit then Nat.toDigits 10 q.num.natAbs
    else
      let (digits, point) := shortest q.abs
      layOut digits point
  if q < 0 then '-' :: magnitude else magnitude

def text : Number → String
  | finite q => String.ofList (finiteText q)
  | positiveInfinity => "Infinity"
  | negativeInfinity => "-Infinity"
  | notANumber => "NaN"

end ClusterMembership.Number
