/-!
# Written instants

An instant is a whole number of milliseconds since the start of 1970 in universal time.  It is written as
a date of the proleptic Gregorian calendar and a time of day with milliseconds; years outside 0 to 9999 take a
sign and six digits.
-/

namespace ClusterMembership

/-- Milliseconds since the start of 1970. -/
abbrev Instant := Int

namespace Instant

def dayLength : Int := 86400000

/-- Year, month and day of a number of days since the start of 1970.  Days are counted from the first of
March of year zero, so that the leap day ends a year of the count and an era has 146097 days. -/
def civilDate (days : Int) : Int × Nat × Nat :=
  let shifted := days + 719468
  let era := shifted.fdiv 146097
  let dayOfEra := (shifted - era * 146097).toNat
  let yearOfEra :=
    (dayOfEra - dayOfEra / 1460 + dayOfEra / 36524 - dayOfEra / 146096) / 365
  let dayOfYear := dayOfEra - (365 * yearOfEra + yearOfEra / 4 - yearOfEra / 100)
  let monthFromMarch := (5 * dayOfYear + 2) / 153
  let day := dayOfYear - (153 * monthFromMarch + 2) / 5 + 1
  let month := if monthFromMarch < 10 then monthFromMarch + 3 else monthFromMarch - 9
  let year := (yearOfEra : Int) + era * 400 + (if month ≤ 2 then 1 else 0)
  (year, month, day)

/-- The decimal digits of a number, with zeros in front up to a width. -/
def padded (width n : Nat) : String :=
  let digits := Nat.toDigits 10 n
  String.ofList (List.replicate (width - digits.length) '0' ++ digits)

/-- A year in four digits, or signed and in six outside 0 to 9999. -/
def yearText (year : Int) : String :=
  if 0 ≤ year && year ≤ 9999 then padded 4 year.toNat
  else (if year < 0 then "-" else "+") ++ padded 6 year.natAbs

def text (instant : Instant) : String :=
  let days := Int.fdiv instant dayLength
  let ofDay := (instant - days * dayLength).toNat
  let (year, month, day) := civilDate days
  let hours := padded 2 (ofDay / 3600000)
  let minutes := padded 2 (ofDay / 60000 % 60)
  let seconds := padded 2 (ofDay / 1000 % 60)
  let millis := padded 3 (ofDay % 1000)
  s!"{yearText year}-{padded 2 month}-{padded 2 day}T{hours}:{minutes}:{seconds}.{millis}Z"

end Instant

end ClusterMembership
