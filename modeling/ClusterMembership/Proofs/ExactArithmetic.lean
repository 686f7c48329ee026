import Mathlib.Algebra.Order.Field.Basic
import Mathlib.Algebra.Order.Ring.Unbundled.Rat
import Mathlib.Data.Rat.Cast.Order
import Mathlib.Tactic.FieldSimp
import Mathlib.Tactic.Linarith
import Mathlib.Tactic.NormNum
import Mathlib.Tactic.Positivity
import ClusterMembership.Number

/-!
# Exact arithmetic

A result is rounded to a multiple of the distance between neighbours, so a rational that is such a multiple is not
changed.  Up to 2^53 that distance is at most one, except at the end, where it is two.  Hence every natural number up to
2^53 is a double, and a product of natural numbers that does not exceed 2^53 is exact.
-/

namespace ClusterMembership.Number

/-! ## Comparison -/

theorem less_finite_iff (a b : Rat) : (finite a).less (.finite b) = true ↔ a < b := decide_eq_true_iff

theorem atMost_finite_iff (a b : Rat) : (finite a).atMost (.finite b) = true ↔ a ≤ b := by
  unfold atMost equal
  rw [Bool.or_eq_true, less_finite_iff, decide_eq_true_eq, finite.injEq, le_iff_lt_or_eq]

/-! ## Integers -/

theorem exists_intCast_of_isInteger {number : Number} (h : number.isInteger = true) : ∃ k : Int, number = finite k := by
  cases number with
  | finite a =>
    have hden : a.den = 1 := of_decide_eq_true h
    exact ⟨a.num, congrArg finite (Rat.den_eq_one_iff a |>.mp hden).symm⟩
  | _ => cases h

theorem isInteger_natCast (n : Nat) : (finite n).isInteger = true := decide_eq_true (Rat.den_natCast n)

/-! ## Rounding -/

theorem roundHalfEven_intCast (k : Int) : roundHalfEven k = k := by
  unfold roundHalfEven
  simp [Rat.floor_intCast]

theorem roundHalfUp_natCast (n : Nat) : (finite n).roundHalfUp = finite n := by
  have hlow : (n : Int) ≤ ((n : Rat) + 1 / 2).floor := by
    rw [Rat.le_floor_iff, Int.cast_natCast]
    linarith
  have hhigh : ((n : Rat) + 1 / 2).floor < n + 1 := by
    rw [Rat.floor_lt_iff]
    push_cast
    linarith
  have hfloor : ((n : Rat) + 1 / 2).floor = n := by omega
  rw [roundHalfUp, hfloor, Int.cast_natCast]

theorem power_natCast (base n : Nat) : power base n = (base : Rat) ^ n := by
  simp [power]

theorem power_neg_natCast (base n : Nat) : power base (-n) = 1 / (base : Rat) ^ n := by
  unfold power
  split
  · next hle =>
    obtain rfl : n = 0 := by omega
    simp
  · simp

/-- A multiple of the distance between its neighbours is not changed by rounding. -/
theorem ofRat_of_multiple {q : Rat} {k : Int} (hmultiple : q = k * power 2 (spacingExponent q))
    (hpositive : 0 < power 2 (spacingExponent q)) (hbound : |q| < 2 ^ 1024) : ofRat q = finite q := by
  by_cases hzero : q = 0
  · rw [hzero, ofRat, if_pos rfl]
  · have hquotient : q / power 2 (spacingExponent q) = k := by
      rw [div_eq_iff hpositive.ne']
      exact hmultiple
    have hlimit : power 2 1024 = 2 ^ 1024 := power_natCast 2 1024
    obtain ⟨hlow, hhigh⟩ := abs_lt.mp hbound
    unfold ofRat
    simp only [hquotient, roundHalfEven_intCast, ← hmultiple, hlimit]
    rw [if_neg hzero, if_neg (not_le.mpr hhigh), if_neg (not_le.mpr hlow)]

/-! ## Natural numbers -/

theorem binaryExponent_natCast {n : Nat} (h : n ≠ 0) : binaryExponent n = n.log2 := by
  have hleast : power 2 n.log2 ≤ n := by
    rw [power_natCast]
    exact_mod_cast Nat.log2_self_le h
  have hone : Nat.log2 1 = 0 := by decide
  have hguess : ((n : Rat).num.natAbs.log2 : Int) - ((n : Rat).den.log2 : Int) = n.log2 := by simp [hone]
  have habs : (n : Rat).abs = n := Rat.abs_of_nonneg (Nat.cast_nonneg n)
  simp only [binaryExponent, hguess, habs]
  rw [if_pos hleast]

/-- A natural number up to 2^53 is a multiple of the distance between its neighbours.  Below 2^53 that distance divides
one, and at 2^53 itself it is two. -/
theorem exists_multiple_natCast {n : Nat} (hnonzero : n ≠ 0) (hbound : n ≤ 2 ^ 53) :
    ∃ k : Int, (n : Rat) = k * power 2 (spacingExponent n) ∧ 0 < power 2 (spacingExponent n) := by
  have hexponent : spacingExponent n = n.log2 - 52 := by
    rw [spacingExponent, binaryExponent_natCast hnonzero]
    omega
  rw [hexponent]
  by_cases hbelow : n.log2 ≤ 52
  · obtain ⟨m, hm⟩ : ∃ m : Nat, (n.log2 : Int) - 52 = -m := ⟨52 - n.log2, by omega⟩
    rw [hm, power_neg_natCast]
    refine ⟨n * 2 ^ m, ?_, by positivity⟩
    push_cast
    field_simp
  · have hleast : 2 ^ 53 ≤ n := by
      calc
        2 ^ 53 ≤ 2 ^ n.log2 := Nat.pow_le_pow_right (by decide) (by omega)
        _ ≤ n := Nat.log2_self_le hnonzero
    obtain rfl : n = 2 ^ 53 := le_antisymm hbound hleast
    have hone : ((2 ^ 53 : Nat).log2 : Int) - 52 = (1 : Nat) := by rw [Nat.log2_two_pow]; rfl
    rw [hone, power_natCast]
    exact ⟨2 ^ 52, by norm_num, by norm_num⟩

/-- Every natural number up to 2^53 is a double. -/
theorem ofRat_natCast {n : Nat} (h : n ≤ 2 ^ 53) : ofRat n = finite n := by
  by_cases hzero : n = 0
  · rw [hzero, Nat.cast_zero, ofRat, if_pos rfl]
  · obtain ⟨k, hmultiple, hpositive⟩ := exists_multiple_natCast hzero h
    apply ofRat_of_multiple hmultiple hpositive
    calc
      |(n : Rat)| = n := abs_of_nonneg (Nat.cast_nonneg n)
      _ ≤ 2 ^ 53 := by exact_mod_cast h
      _ < 2 ^ 1024 := pow_lt_pow_right₀ (by norm_num) (by norm_num)

theorem ofNat_eq_finite {n : Nat} (h : n ≤ 2 ^ 53) : ofNat n = finite n := ofRat_natCast h

/-- A product that is at most 2^53 is exact. -/
theorem finite_mul_finite {a b : Nat} (h : a * b ≤ 2 ^ 53) : finite a * finite b = finite (a * b : Nat) := by
  have hproduct : finite a * finite b = ofRat (a * b : Nat) := by
    rw [Nat.cast_mul]
    rfl
  rw [hproduct, ofRat_natCast h]

end ClusterMembership.Number
