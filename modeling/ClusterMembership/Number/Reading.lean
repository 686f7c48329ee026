import ClusterMembership.Number
import ClusterMembership.Text.Classes

/-!
# Reading numbers from texts

A text denotes a number when, without the blanks at its ends, it is empty (zero), a decimal with optional
sign, fraction and exponent, an infinity with optional sign, or an integer in base sixteen, eight or two
after its mark.  Every other text denotes no number.
-/

namespace ClusterMembership.Number

open Text

/-- The natural number that digits of a base denote, given the value of each digit. -/
def foldDigits (base : Nat) (digitValue : Char → Nat) (digits : List Char) : Nat :=
  digits.foldl (fun total digit ↦ total * base + digitValue digit) 0

/-- The value of a digit up to base thirty-six. -/
def digitValue (c : Char) : Nat :=
  if isDigit c then c.toNat - '0'.toNat
  else if 'a' ≤ c && c ≤ 'z' then c.toNat - 'a'.toNat + 10
  else c.toNat - 'A'.toNat + 10

/-- The double nearest to a scaled significand without leading zeros.  Scales far outside the range of
doubles are settled without computing the power. -/
def ofDecimal (significand : List Char) (exponent : Int) : Number :=
  let digits := significand.length
  if significand.isEmpty then finite 0
  else if 400 < exponent + digits then positiveInfinity
  else if exponent + digits < -400 then finite 0
  else ofRat (foldDigits 10 digitValue significand * power 10 exponent)

/-- The double nearest to a decimal given by the digits before and after the point. -/
def ofDigits (whole fraction : List Char) (exponent : Int) : Number :=
  ofDecimal ((whole ++ fraction).dropWhile (· = '0')) (exponent - fraction.length)

def readExponent? : List Char → Option Int
  | [] => some 0
  | mark :: rest =>
    if mark = 'e' || mark = 'E' then
      let (negative, digits) := match rest with
        | '-' :: digits => (true, digits)
        | '+' :: digits => (false, digits)
        | digits => (false, digits)
      if digits.isEmpty || !digits.all isDigit then none
      else
        let magnitude : Int := foldDigits 10 digitValue digits
        some (if negative then -magnitude else magnitude)
    else none

/-- An unsigned decimal: digits, a point and digits, an exponent; one digit at least. -/
def readDecimal? (chars : List Char) : Option Number :=
  let whole := chars.takeWhile isDigit
  let afterWhole := chars.dropWhile isDigit
  let (fraction, afterFraction) := match afterWhole with
    | '.' :: rest => (rest.takeWhile isDigit, rest.dropWhile isDigit)
    | rest => ([], rest)
  if whole.isEmpty && fraction.isEmpty then none
  else (readExponent? afterFraction).map (ofDigits whole fraction)

/-- An integer whose digits all belong to a base. -/
def readBase? (base : Nat) (digits : List Char) : Option Number :=
  if digits.isEmpty then none
  else if digits.all fun c ↦ (isDigit c || isLetter c) && digitValue c < base then
    some (ofNat (foldDigits base digitValue digits))
  else none

/-- A decimal or an infinity, without sign. -/
def readMagnitude? (chars : List Char) : Option Number :=
  if chars = "Infinity".toList then some positiveInfinity else readDecimal? chars

def negate : Number → Number
  | finite a => finite (-a)
  | positiveInfinity => negativeInfinity
  | negativeInfinity => positiveInfinity
  | notANumber => notANumber

def read (text : String) : Number :=
  let result := match trimChars text.toList with
    | [] => some (finite 0)
    | '0' :: mark :: digits =>
      if mark = 'x' || mark = 'X' then readBase? 16 digits
      else if mark = 'o' || mark = 'O' then readBase? 8 digits
      else if mark = 'b' || mark = 'B' then readBase? 2 digits
      else readDecimal? ('0' :: mark :: digits)
    | '-' :: rest => (readMagnitude? rest).map negate
    | '+' :: rest => readMagnitude? rest
    | chars => readMagnitude? chars
  result.getD notANumber

end ClusterMembership.Number
