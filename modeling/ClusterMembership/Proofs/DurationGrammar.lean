import Mathlib.Data.List.TakeWhile
import Mathlib.Data.Nat.Digits.Defs
import ClusterMembership.Duration
import ClusterMembership.Proofs.ExactArithmetic

/-!
# The grammar of durations

A duration is spelled by digits, perhaps a point with more digits, blanks, and perhaps the symbol of a unit.  No part
can begin with a character that the part before it could take, so reading as much as possible of one part after the
other finds the spelling when there is one.  Without a fraction the digits denote a natural number, leading zeros do not
count, and the product with the factor of the unit is exact up to 2^53.
-/

namespace ClusterMembership

/-- A scan stops where the characters that have its property end. -/
theorem Text.span_append {p : Char → Bool} {front rest : List Char} (hfront : ∀ c ∈ front, p c = true)
    (hrest : ∀ c ∈ rest.head?, p c = false) :
    (front ++ rest).takeWhile p = front ∧ (front ++ rest).dropWhile p = rest := by
  rw [List.takeWhile_append_of_pos hfront, List.dropWhile_append_of_pos hfront]
  cases rest with
  | nil => simp
  | cons c rest =>
    have hc : p c = false := hrest c rfl
    simp [hc]

/-! ## Decimal numbers -/

namespace Number

open Text

/-- The natural number that decimal digits denote, the most significant digit first. -/
def decimalValue (digits : List Char) : Nat := Nat.ofDigits 10 (digits.reverse.map fun c ↦ c.toNat - '0'.toNat)

theorem decimalValue_cons (c : Char) (digits : List Char) :
    decimalValue (c :: digits) = (c.toNat - '0'.toNat) * 10 ^ digits.length + decimalValue digits := by
  unfold decimalValue
  rw [List.reverse_cons, List.map_append, Nat.ofDigits_append, List.length_map, List.length_reverse]
  simp [Nat.mul_comm, Nat.add_comm]

theorem foldDigits_eq_decimalValue {digits : List Char} (hdigits : ∀ c ∈ digits, isDigit c = true) :
    foldDigits 10 digitValue digits = decimalValue digits := by
  unfold foldDigits decimalValue
  rw [Nat.ofDigits_eq_foldr, List.foldr_map, List.foldr_reverse]
  apply List.foldl_ext
  intro total c hc
  have hvalue : digitValue c = c.toNat - '0'.toNat := if_pos (hdigits c hc)
  rw [hvalue, Nat.mul_comm, Nat.add_comm]
  rfl

/-- Leading zeros do not count. -/
theorem decimalValue_dropWhile_zero (digits : List Char) :
    decimalValue (digits.dropWhile (· = '0')) = decimalValue digits := by
  induction digits with
  | nil => rfl
  | cons c digits ih =>
    by_cases hzero : c = '0'
    · rw [List.dropWhile_cons_of_pos (by simpa using hzero), ih, decimalValue_cons, hzero]
      simp
    · rw [List.dropWhile_cons_of_neg (by simpa using hzero)]

/-- A number of so many digits, the first of which is not zero, is at least that power of ten. -/
theorem pow_length_le_decimalValue {c : Char} (hdigit : isDigit c = true) (hzero : c ≠ '0') (digits : List Char) :
    10 ^ digits.length ≤ decimalValue (c :: digits) := by
  have hrange := (isDigit_iff c).mp hdigit
  have hcode : c.toNat ≠ 48 := fun h ↦ hzero (Char.toNat_inj.mp h)
  have hfirst : 1 ≤ c.toNat - '0'.toNat := by
    change 1 ≤ c.toNat - 48
    omega
  calc
    10 ^ digits.length ≤ (c.toNat - '0'.toNat) * 10 ^ digits.length := Nat.le_mul_of_pos_left _ hfirst
    _ ≤ (c.toNat - '0'.toNat) * 10 ^ digits.length + decimalValue digits := Nat.le_add_right _ _
    _ = decimalValue (c :: digits) := (decimalValue_cons c digits).symm

/-- Digits without leading zeros are read as the number that they denote, up to 2^53.  There are so few of them that
the reading does not give up on the power of ten. -/
theorem ofDecimal_eq_finite {c : Char} {digits : List Char} (hdigits : ∀ d ∈ c :: digits, isDigit d = true)
    (hzero : c ≠ '0') (hbound : decimalValue (c :: digits) ≤ 2 ^ 53) :
    ofDecimal (c :: digits) 0 = finite (decimalValue (c :: digits)) := by
  have hlength : digits.length < 16 := by
    by_contra hlong
    have hpower : 10 ^ 16 ≤ 2 ^ 53 := by
      calc
        10 ^ 16 ≤ 10 ^ digits.length := Nat.pow_le_pow_right (by decide) (Nat.le_of_not_lt hlong)
        _ ≤ decimalValue (c :: digits) := pow_length_le_decimalValue (hdigits c List.mem_cons_self) hzero digits
        _ ≤ 2 ^ 53 := hbound
    exact absurd hpower (by decide)
  have hone : power 10 0 = 1 := rfl
  simp only [ofDecimal, List.isEmpty_cons, List.length_cons]
  rw [if_neg (by decide), if_neg (by omega), if_neg (by omega), hone, mul_one, foldDigits_eq_decimalValue hdigits]
  exact ofRat_natCast hbound

/-- Digits without a fraction are read as the number that they denote, up to 2^53. -/
theorem ofDigits_eq_finite {whole : List Char} (hwhole : ∀ c ∈ whole, isDigit c = true)
    (hbound : decimalValue whole ≤ 2 ^ 53) : ofDigits whole [] 0 = finite (decimalValue whole) := by
  have hexponent : (0 : Int) - ([] : List Char).length = 0 := rfl
  unfold ofDigits
  rw [List.append_nil, hexponent]
  rw [← decimalValue_dropWhile_zero] at hbound ⊢
  cases hsignificand : whole.dropWhile (· = '0') with
  | nil => rfl
  | cons c digits =>
    rw [hsignificand] at hbound
    apply ofDecimal_eq_finite _ _ hbound
    · exact fun d hd ↦ hwhole d ((List.dropWhile_sublist _).mem (hsignificand ▸ hd))
    · have hhead := List.head?_dropWhile_not (fun c : Char ↦ decide (c = '0')) whole
      rw [hsignificand] at hhead
      simpa using hhead

end Number

namespace Duration

open Text

/-! ## Units -/

/-- How a unit is written in small letters. -/
def TimeUnit.symbol : TimeUnit → String
  | milliseconds => "ms"
  | seconds => "s"
  | minutes => "m"
  | hours => "h"
  | days => "d"

/-- A unit is named by its symbol in letters of any case, and milliseconds are named by nothing too. -/
def TimeUnit.IsNamedBy (unit : TimeUnit) (letters : List Char) : Prop :=
  letters.map Char.toLower = unit.symbol.toList ∨ letters = [] ∧ unit = milliseconds

theorem TimeUnit.read?_eq_some_iff (letters : List Char) (unit : TimeUnit) :
    read? letters = some unit ↔ unit.IsNamedBy letters := by
  unfold read? IsNamedBy
  rw [← List.map_eq_nil_iff (f := Char.toLower)]
  generalize letters.map Char.toLower = lowered
  split <;> cases unit <;> simp_all [symbol]

theorem TimeUnit.IsNamedBy.isLetter {unit : TimeUnit} {letters : List Char} (h : unit.IsNamedBy letters) :
    ∀ c ∈ letters, isLetter c = true := by
  intro c hc
  have hlower : c.toLower ∈ unit.symbol.toList := by
    rcases h with hsymbol | ⟨rfl, -⟩
    · exact hsymbol ▸ List.mem_map_of_mem hc
    · exact absurd hc List.not_mem_nil
  have hsymbol : unit.symbol.toList.all (fun d ↦ 97 ≤ d.toNat && d.toNat ≤ 122) = true := by cases unit <;> rfl
  have hsmall := List.all_eq_true.mp hsymbol c.toLower hlower
  simp only [Bool.and_eq_true, decide_eq_true_eq, toNat_toLower] at hsmall
  rw [isLetter_iff]
  split at hsmall <;> omega

/-! ## Spellings -/

/-- A fraction as it is written: the point and its digits, and no point without digits. -/
def fractionChars (fraction : List Char) : List Char := if fraction = [] then [] else '.' :: fraction

structure Spelling where
  whole : List Char
  fraction : List Char
  blanks : List Char
  letters : List Char
  unit : TimeUnit
  whole_ne_nil : whole ≠ []
  isDigit_whole : ∀ c ∈ whole, isDigit c = true
  isDigit_fraction : ∀ c ∈ fraction, isDigit c = true
  isBlank_blanks : ∀ c ∈ blanks, isBlank c = true
  isNamedBy_letters : unit.IsNamedBy letters

namespace Spelling

def chars (spelling : Spelling) : List Char :=
  spelling.whole ++ (fractionChars spelling.fraction ++ (spelling.blanks ++ spelling.letters))

/-- The number of units that a duration without fraction counts. -/
def count (spelling : Spelling) : Nat := Number.decimalValue spelling.whole

def milliseconds (spelling : Spelling) : Number :=
  (Number.ofDigits spelling.whole spelling.fraction 0 * Number.ofNat spelling.unit.factor).roundHalfUp

end Spelling

/-! ## Reading finds the spelling -/

theorem readFraction_of_no_point {rest : List Char} (h : ∀ c ∈ rest.head?, c ≠ '.') :
    readFraction rest = ([], rest) := by
  cases rest with
  | nil => rfl
  | cons c rest =>
    have hc : c ≠ '.' := h c rfl
    unfold readFraction
    split
    · next heq => exact absurd (List.cons.inj heq).1 hc
    · rfl

/-- A fraction is read to its end when neither a digit nor a point follows. -/
theorem readFraction_append {fraction rest : List Char} (hfraction : ∀ c ∈ fraction, isDigit c = true)
    (hrest : ∀ c ∈ rest.head?, isDigit c = false ∧ c ≠ '.') :
    readFraction (fractionChars fraction ++ rest) = (fraction, rest) := by
  by_cases hnone : fraction = []
  · subst hnone
    exact readFraction_of_no_point fun c hc ↦ (hrest c hc).2
  · obtain ⟨hdigits, hafter⟩ := span_append hfraction fun c hc ↦ (hrest c hc).1
    have hsome : fraction.isEmpty = false := by simpa using hnone
    rw [fractionChars, if_neg hnone, List.cons_append]
    simp [readFraction, hdigits, hafter, hsome]

/-- What is read as a fraction and what is left are what was there. -/
theorem fractionChars_readFraction (chars : List Char) :
    fractionChars (readFraction chars).1 ++ (readFraction chars).2 = chars ∧
      ∀ c ∈ (readFraction chars).1, isDigit c = true := by
  unfold readFraction
  split
  · next rest =>
    simp only
    split
    · simp [fractionChars]
    · next hdigits =>
      have hsome : rest.takeWhile isDigit ≠ [] := by simpa using hdigits
      rw [fractionChars, if_neg hsome, List.cons_append, List.takeWhile_append_dropWhile]
      exact ⟨rfl, fun c hc ↦ List.mem_takeWhile_imp hc⟩
  · simp [fractionChars]

namespace Spelling

variable (spelling : Spelling)

theorem isBlank_eq_false_of_mem_letters {c : Char} (h : c ∈ spelling.letters) : isBlank c = false := by
  have hletter := (isLetter_iff c).mp (spelling.isNamedBy_letters.isLetter c h)
  apply Bool.eq_false_iff.mpr
  intro hblank
  have hcode := toNat_of_isBlank hblank
  omega

/-- Neither blanks nor letters go on with a number. -/
theorem ends_number {c : Char} (h : c ∈ spelling.blanks ++ spelling.letters) : isDigit c = false ∧ c ≠ '.' := by
  have hcode : c.toNat ≤ 32 ∨ 58 ≤ c.toNat := by
    rcases List.mem_append.mp h with hblank | hletter
    · have hblank := toNat_of_isBlank (spelling.isBlank_blanks c hblank)
      omega
    · have hletter := (isLetter_iff c).mp (spelling.isNamedBy_letters.isLetter c hletter)
      omega
  constructor
  · apply Bool.eq_false_iff.mpr
    intro hdigit
    have hrange := (isDigit_iff c).mp hdigit
    omega
  · rintro rfl
    exact absurd hcode (by decide)

/-- The digits before the point end there, or where the blanks and letters begin. -/
theorem ends_whole {c : Char}
    (h : c ∈ (fractionChars spelling.fraction ++ (spelling.blanks ++ spelling.letters)).head?) : isDigit c = false := by
  by_cases hnone : spelling.fraction = []
  · rw [fractionChars, if_pos hnone, List.nil_append] at h
    exact (spelling.ends_number (List.mem_of_mem_head? h)).1
  · rw [fractionChars, if_neg hnone] at h
    obtain rfl : '.' = c := Option.some.inj h
    rfl

/-- What is spelled is read as its milliseconds. -/
theorem readChars?_chars : readChars? spelling.chars = some spelling.milliseconds := by
  obtain ⟨hwhole, hafterWhole⟩ := span_append spelling.isDigit_whole fun c hc ↦ spelling.ends_whole hc
  have hfraction := readFraction_append spelling.isDigit_fraction fun c hc ↦
    spelling.ends_number (List.mem_of_mem_head? hc)
  obtain ⟨-, hafterBlanks⟩ := span_append spelling.isBlank_blanks fun c hc ↦
    spelling.isBlank_eq_false_of_mem_letters (List.mem_of_mem_head? hc)
  have hunit := (TimeUnit.read?_eq_some_iff spelling.letters spelling.unit).mpr spelling.isNamedBy_letters
  have hsome : spelling.whole.isEmpty = false := by simpa using spelling.whole_ne_nil
  unfold readChars? chars
  simp only [hwhole, hafterWhole, hfraction, hafterBlanks, hunit, hsome]
  rfl

end Spelling

/-- Only what is spelled as a duration is read as one. -/
theorem exists_spelling_of_readChars? {chars : List Char} {number : Number} (h : readChars? chars = some number) :
    ∃ spelling : Spelling, spelling.chars = chars := by
  unfold readChars? at h
  simp only at h
  split at h
  · cases h
  · next hwhole =>
    obtain ⟨hchars, hfraction⟩ := fractionChars_readFraction (chars.dropWhile isDigit)
    set read := readFraction (chars.dropWhile isDigit)
    obtain ⟨unit, hunit, -⟩ := Option.map_eq_some_iff.mp h
    refine ⟨⟨chars.takeWhile isDigit, read.1, read.2.takeWhile isBlank, read.2.dropWhile isBlank, unit, ?_, ?_,
      hfraction, ?_, ?_⟩, ?_⟩
    · simpa using hwhole
    · exact fun c hc ↦ List.mem_takeWhile_imp hc
    · exact fun c hc ↦ List.mem_takeWhile_imp hc
    · exact (TimeUnit.read?_eq_some_iff _ unit).mp hunit
    · unfold Spelling.chars
      rw [List.takeWhile_append_dropWhile, hchars, List.takeWhile_append_dropWhile]

/-! ## Whole durations -/

/-- Without a fraction and up to 2^53 milliseconds, neither the scaling nor the rounding changes anything. -/
theorem Spelling.milliseconds_eq_finite {spelling : Spelling} (hfraction : spelling.fraction = [])
    (hbound : spelling.count * spelling.unit.factor ≤ 2 ^ 53) :
    spelling.milliseconds = .finite (spelling.count * spelling.unit.factor : Nat) := by
  have hpositive : 1 ≤ spelling.unit.factor := by cases spelling.unit <;> decide
  have hfactor : spelling.unit.factor ≤ 2 ^ 53 := by cases spelling.unit <;> decide
  have hcount : spelling.count ≤ 2 ^ 53 := (Nat.le_mul_of_pos_right _ hpositive).trans hbound
  calc
    spelling.milliseconds = (Number.finite spelling.count * .finite spelling.unit.factor).roundHalfUp := by
      rw [milliseconds, hfraction, Number.ofDigits_eq_finite spelling.isDigit_whole hcount,
        Number.ofNat_eq_finite hfactor]
      rfl
    _ = (Number.finite (spelling.count * spelling.unit.factor : Nat)).roundHalfUp := by
      rw [Number.finite_mul_finite hbound]
    _ = .finite (spelling.count * spelling.unit.factor : Nat) := Number.roundHalfUp_natCast _

/-- A text denotes a duration exactly when it is spelled as one between its blanks.  Without a fraction and up to 2^53
milliseconds, it denotes its number times the milliseconds in its unit. -/
theorem duration_read_as_spelled (text : String) :
    ((read? text).isSome = true ↔ ∃ spelling : Spelling, spelling.chars = trimChars text.toList) ∧
      ∀ spelling : Spelling, spelling.chars = trimChars text.toList → spelling.fraction = [] →
        ∀ factor, (spelling.unit, factor) ∈ [(TimeUnit.milliseconds, 1), (.seconds, 1000), (.minutes, 60000),
            (.hours, 3600000), (.days, 86400000)] →
          spelling.count * factor ≤ 2 ^ 53 → read? text = some (.finite (spelling.count * factor : Nat)) := by
  unfold read?
  refine ⟨⟨?_, ?_⟩, ?_⟩
  · intro hread
    obtain ⟨number, hnumber⟩ := Option.isSome_iff_exists.mp hread
    exact exists_spelling_of_readChars? hnumber
  · rintro ⟨spelling, hspelled⟩
    rw [← hspelled, spelling.readChars?_chars]
    rfl
  · intro spelling hspelled hfraction factor hfactor hbound
    obtain rfl : spelling.unit.factor = factor := by
      revert hfactor
      cases spelling.unit <;> simp [TimeUnit.factor, eq_comm]
    rw [← hspelled, spelling.readChars?_chars, Spelling.milliseconds_eq_finite hfraction hbound]

/-- Seven minutes, with leading zeros, a blank and a capital. -/
theorem duration_read_as_spelled_of_minutes :
    ∃ spelling : Spelling, spelling.chars = trimChars " 007 M\n".toList ∧ spelling.fraction = [] ∧
      spelling.unit = .minutes ∧ spelling.count * 60000 ≤ 2 ^ 53 ∧
      read? " 007 M\n" = some (.finite (7 * 60000 : Nat)) := by
  let spelling : Spelling := ⟨"007".toList, [], [' '], ['M'], .minutes, by decide, List.all_eq_true.mp rfl,
    List.all_eq_true.mp rfl, List.all_eq_true.mp rfl, .inl rfl⟩
  have hspelled : spelling.chars = trimChars " 007 M\n".toList := by decide
  have hcount : spelling.count = 7 := rfl
  have hbound : spelling.count * 60000 ≤ 2 ^ 53 := by
    rw [hcount]
    norm_num
  have hread := (duration_read_as_spelled " 007 M\n").2 spelling hspelled rfl 60000 (by simp [spelling]) hbound
  rw [hcount] at hread
  exact ⟨spelling, hspelled, rfl, rfl, hbound, hread⟩

end Duration

end ClusterMembership
