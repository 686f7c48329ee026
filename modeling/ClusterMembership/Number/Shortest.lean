import ClusterMembership.Number

/-!
# Shortest decimals

The decimal of a double is the one with the fewest significant digits among those that round to it, and
of several such the nearest.  For a growing number of digits the two neighbours of the value on the
decimal grid are compared with the interval of rationals that round to the value; seventeen digits always
suffice.
-/

namespace ClusterMembership.Number

/-- The decimal exponent of a positive rational: the least power of ten above it. -/
def decimalExponent (q : Rat) : Int :=
  let guess : Int :=
    ((Nat.toDigits 10 q.num.natAbs).length : Int) - ((Nat.toDigits 10 q.den).length : Int)
  if q < power 10 guess then guess else guess + 1

/-- The least integer with 53 binary digits; below it the distance between neighbours halves. -/
def leastSignificand : Int := 4503599627370496

/-- Whether a rational rounds to the given positive double: the distance to either neighbour is halved,
and an end of the interval belongs to the value with the even significand. -/
def roundsTo (q candidate : Rat) : Bool :=
  let exponent := spacingExponent q
  let gap := power 2 exponent
  let significand := (q / gap).floor
  let below := if significand = leastSignificand && -1074 < exponent then gap / 4 else gap / 2
  let above := gap / 2
  if significand % 2 = 0 then q - below ≤ candidate && candidate ≤ q + above
  else q - below < candidate && candidate < q + above

/-- The nearest decimal of a given number of digits that rounds to the value, as a multiple of the grid's
unit. -/
def onGrid? (q : Rat) (exponent : Int) (digits : Nat) : Option Nat :=
  let unit := power 10 (exponent - digits)
  let low := (q / unit).floor.toNat
  let fitsLow := 0 < low && roundsTo q (low * unit)
  let fitsHigh := roundsTo q ((low + 1 : Nat) * unit)
  if fitsLow && fitsHigh then
    if q - low * unit ≤ (low + 1 : Nat) * unit - q then some low else some (low + 1)
  else if fitsLow then some low
  else if fitsHigh then some (low + 1)
  else none

/-- The digits of the shortest decimal of a positive double, without zeros at the end, and the place of
the decimal point counted from before the first digit. -/
def shortest (q : Rat) : List Char × Int :=
  let exponent := decimalExponent q
  let found := (List.range 17).findSome? fun index ↦
    (onGrid? q exponent (index + 1)).map fun significand ↦ (significand, index + 1)
  let (significand, length) := found.getD (0, 0)
  let digits := Nat.toDigits 10 significand
  let point := exponent + ((digits.length : Int) - (length : Int))
  ((digits.reverse.dropWhile (· = '0')).reverse, point)

end ClusterMembership.Number
