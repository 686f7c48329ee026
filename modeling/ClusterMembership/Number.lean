/-!
# Double-precision numbers

A number is a rational that a 64-bit floating-point word can hold, an infinity, or no number at all.
Arithmetic is carried out exactly on the rationals and rounded once, to the nearest representable value
and to the even neighbour on a tie; beyond the largest finite value the result is an infinity.  The sign of
a zero is not kept, since no answer of the service shows it.
-/

namespace ClusterMembership

/-- A double-precision value. -/
inductive Number where
  | finite (value : Rat)
  | positiveInfinity
  | negativeInfinity
  | notANumber
  deriving DecidableEq

namespace Number

/-! ## Rounding -/

/-- The integer nearest to a rational, the even one when two are equally near. -/
def roundHalfEven (q : Rat) : Int :=
  let below := q.floor
  let excess := q - below
  if excess < 1 / 2 then below
  else if 1 / 2 < excess then below + 1
  else if below % 2 = 0 then below
  else below + 1

def power (base : Nat) (exponent : Int) : Rat :=
  if 0 ≤ exponent then (base.pow exponent.toNat : Rat)
  else 1 / (base.pow (-exponent).toNat : Rat)

/-- The exponent of the greatest power of two that does not exceed a nonzero magnitude. -/
def binaryExponent (q : Rat) : Int :=
  let guess : Int := (q.num.natAbs.log2 : Int) - (q.den.log2 : Int)
  if power 2 guess ≤ q.abs then guess else guess - 1

/-- The exponent of the distance between representable neighbours around a nonzero value: 53 significant
bits, and no finer than the smallest positive value. -/
def spacingExponent (q : Rat) : Int := max (binaryExponent q - 52) (-1074)

/-- Round a rational to the nearest double. -/
def ofRat (q : Rat) : Number :=
  if q = 0 then finite 0
  else
    let spacing := power 2 (spacingExponent q)
    let rounded := (roundHalfEven (q / spacing) : Rat) * spacing
    if power 2 1024 ≤ rounded then positiveInfinity
    else if rounded ≤ -power 2 1024 then negativeInfinity
    else finite rounded

def ofInt (n : Int) : Number := ofRat n

def ofNat (n : Nat) : Number := ofRat n

instance (n : Nat) : OfNat Number n := ⟨ofNat n⟩

instance : Inhabited Number := ⟨finite 0⟩

/-! ## Arithmetic -/

/-- Sum, rounded once. -/
def add : Number → Number → Number
  | finite a, finite b => ofRat (a + b)
  | notANumber, _ | _, notANumber => notANumber
  | positiveInfinity, negativeInfinity | negativeInfinity, positiveInfinity => notANumber
  | positiveInfinity, _ | _, positiveInfinity => positiveInfinity
  | negativeInfinity, _ | _, negativeInfinity => negativeInfinity

/-- An infinity with the sign of a rational; zero has none. -/
def infinityLike (sign : Rat) : Number :=
  if 0 < sign then positiveInfinity else if sign < 0 then negativeInfinity else notANumber

/-- Product, rounded once. -/
def mul : Number → Number → Number
  | finite a, finite b => ofRat (a * b)
  | notANumber, _ | _, notANumber => notANumber
  | positiveInfinity, finite b | finite b, positiveInfinity => infinityLike b
  | negativeInfinity, finite b | finite b, negativeInfinity => infinityLike (-b)
  | positiveInfinity, positiveInfinity | negativeInfinity, negativeInfinity => positiveInfinity
  | positiveInfinity, negativeInfinity | negativeInfinity, positiveInfinity => negativeInfinity

instance : Add Number := ⟨add⟩
instance : Mul Number := ⟨mul⟩

/-- The nearest integer, a half going up. -/
def roundHalfUp : Number → Number
  | finite a => finite ((a + 1 / 2).floor : Int)
  | other => other

/-! ## Comparison -/

/-- Strictly smaller; never so when one side is no number. -/
def less : Number → Number → Bool
  | finite a, finite b => a < b
  | negativeInfinity, finite _ | negativeInfinity, positiveInfinity => true
  | finite _, positiveInfinity => true
  | _, _ => false

/-- Equal as numbers; what is no number differs from itself. -/
def equal : Number → Number → Bool
  | notANumber, notANumber => false
  | a, b => a = b

/-- Smaller or equal; never so when one side is no number. -/
def atMost (a b : Number) : Bool := a.less b || a.equal b

def isFinite : Number → Bool
  | finite _ => true
  | _ => false

def isInteger : Number → Bool
  | finite a => a.den = 1
  | _ => false

/-- The smaller of two, undefined when one of them is. -/
def minimum (a b : Number) : Number :=
  if a = notANumber || b = notANumber then notANumber else if b.less a then b else a

/-- The integer part toward zero of a finite value. -/
def truncate? : Number → Option Int
  | finite a => some (if 0 ≤ a then a.floor else -(-a).floor)
  | _ => none

end Number

end ClusterMembership
