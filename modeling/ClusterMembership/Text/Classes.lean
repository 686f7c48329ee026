/-!
# Classes of characters

Blank are the ASCII blanks from tab to carriage return, the space, the no-break space, the Unicode space
separators, the line and paragraph separators and the byte-order mark.  Letters, digits and the folding of
capitals are those of ASCII, since no setting, address or identifier has others.
-/

namespace ClusterMembership.Text

def blankRanges : List (Nat × Nat) :=
  [(0x09, 0x0D), (0x20, 0x20), (0xA0, 0xA0), (0x1680, 0x1680), (0x2000, 0x200A), (0x2028, 0x2029),
    (0x202F, 0x202F), (0x205F, 0x205F), (0x3000, 0x3000), (0xFEFF, 0xFEFF)]

def isBlank (c : Char) : Bool :=
  blankRanges.any fun range ↦ range.1 ≤ c.toNat && c.toNat ≤ range.2

/-- Drop the blanks at both ends. -/
def trimChars (chars : List Char) : List Char :=
  ((chars.dropWhile isBlank).reverse.dropWhile isBlank).reverse

def trim (text : String) : String := String.ofList (trimChars text.toList)

def isBlankText (text : String) : Bool := text.toList.all isBlank

/-- An ASCII capital becomes the small letter, all else stays. -/
def lowerAscii (text : String) : String := String.ofList (text.toList.map Char.toLower)

def isDigit (c : Char) : Bool := '0' ≤ c && c ≤ '9'

def isLetter (c : Char) : Bool := ('a' ≤ c && c ≤ 'z') || ('A' ≤ c && c ≤ 'Z')

def isHexDigit (c : Char) : Bool :=
  isDigit c || ('a' ≤ c && c ≤ 'f') || ('A' ≤ c && c ≤ 'F')

/-! ## Codes -/

theorem isDigit_iff (c : Char) : isDigit c = true ↔ 48 ≤ c.toNat ∧ c.toNat ≤ 57 := by
  simp only [isDigit, Bool.and_eq_true, decide_eq_true_eq]
  exact Iff.rfl

theorem isLetter_iff (c : Char) :
    isLetter c = true ↔ 97 ≤ c.toNat ∧ c.toNat ≤ 122 ∨ 65 ≤ c.toNat ∧ c.toNat ≤ 90 := by
  simp only [isLetter, Bool.or_eq_true, Bool.and_eq_true, decide_eq_true_eq]
  exact Iff.rfl

/-- The blanks lie below the digits and the point or beyond ASCII. -/
theorem toNat_of_isBlank {c : Char} (h : isBlank c = true) : c.toNat ≤ 32 ∨ 160 ≤ c.toNat := by
  obtain ⟨range, hrange, hcode⟩ := List.any_eq_true.mp h
  have hranges : ∀ range ∈ blankRanges, range.2 ≤ 32 ∨ 160 ≤ range.1 := by decide
  have hends := hranges range hrange
  simp only [Bool.and_eq_true, decide_eq_true_eq] at hcode
  omega

theorem toNat_toLower (c : Char) :
    c.toLower.toNat = if 65 ≤ c.toNat ∧ c.toNat ≤ 90 then c.toNat + 32 else c.toNat := by
  by_cases hcapital : 65 ≤ c.toNat ∧ c.toNat ≤ 90
  · have hrange : c.val ≥ 'A'.val ∧ c.val ≤ 'Z'.val := hcapital
    have hbound : c.val.toNat ≤ 90 := hcapital.2
    have hgap : ('a'.val - 'A'.val).toNat = 32 := rfl
    have hlower : c.toLower.val = c.val + ('a'.val - 'A'.val) := congrArg Char.val (dif_pos hrange)
    rw [if_pos hcapital, Char.toNat, hlower, UInt32.toNat_add, Char.toNat]
    omega
  · have hrange : ¬ (c.val ≥ 'A'.val ∧ c.val ≤ 'Z'.val) := hcapital
    have hlower : c.toLower = c := dif_neg hrange
    rw [if_neg hcapital, hlower]

end ClusterMembership.Text
