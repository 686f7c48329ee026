import ClusterMembership.Number.Reading

/-!
# Written durations

A duration is a decimal number, then blanks, then a unit in any case: milliseconds, seconds, minutes, hours or
days.  Without a unit the number counts milliseconds.  Blanks at either end do not matter, and the result is
rounded to a whole number of milliseconds.
-/

namespace ClusterMembership.Duration

open Text

inductive TimeUnit where
  | milliseconds | seconds | minutes | hours | days
  deriving DecidableEq, Inhabited

namespace TimeUnit

def factor : TimeUnit → Nat
  | milliseconds => 1
  | seconds => 1000
  | minutes => 60000
  | hours => 3600000
  | days => 86400000

/-- The unit that the end of a duration names; nothing at all names milliseconds. -/
def read? (chars : List Char) : Option TimeUnit :=
  match chars.map Char.toLower with
  | [] | ['m', 's'] => some milliseconds
  | ['s'] => some seconds
  | ['m'] => some minutes
  | ['h'] => some hours
  | ['d'] => some days
  | _ => none

end TimeUnit

/-- The fraction after a whole number and what follows it; a point without digits is no fraction. -/
def readFraction : List Char → List Char × List Char
  | '.' :: rest =>
    let digits := rest.takeWhile isDigit
    if digits.isEmpty then ([], '.' :: rest) else (digits, rest.dropWhile isDigit)
  | rest => ([], rest)

def readChars? (chars : List Char) : Option Number :=
  let whole := chars.takeWhile isDigit
  if whole.isEmpty then none
  else
    let (fraction, rest) := readFraction (chars.dropWhile isDigit)
    (TimeUnit.read? (rest.dropWhile isBlank)).map fun unit ↦
      (Number.ofDigits whole fraction 0 * Number.ofNat unit.factor).roundHalfUp

def read? (text : String) : Option Number := readChars? (trimChars text.toList)

end ClusterMembership.Duration
