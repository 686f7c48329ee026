import ClusterMembership.Node.Validation
import ClusterMembership.Proofs.LocationGrammar
import ClusterMembership.Proofs.TextOrder

/-!
# The grammar of host names

A host name is cut at its points into labels.  The check reads the name once from left to right and keeps of the label
at hand only its length and whether it ends with a hyphen.  That is enough to tell whether what was read can still begin
a label, and when the next point or the end comes, whether it is one.  So the check accepts exactly the names whose
pieces between points are labels, and of the other texts it says which are empty, which too long and which of another
form.
-/

namespace ClusterMembership

/-- The piece before the first separator begins with what stands in front and has no separator. -/
theorem Text.exists_pieces_append {separator : Char} {start : List Char} (h : separator ∉ start) (rest : List Char) :
    ∃ more others, pieces separator (start ++ rest) = (start ++ more) :: others := by
  induction start with
  | nil =>
    obtain ⟨piece, others, hrest⟩ := List.exists_cons_of_ne_nil (pieces_ne_nil separator rest)
    exact ⟨piece, others, hrest⟩
  | cons c start ih =>
    obtain ⟨hc, hstart⟩ : separator ≠ c ∧ separator ∉ start := by simpa using h
    obtain ⟨more, others, hrest⟩ := ih hstart
    exact ⟨more, others, pieces_cons_of_ne (Ne.symm hc) hrest⟩

theorem Text.one_le_unitLength_iff (text : String) : 1 ≤ unitLength text ↔ text ≠ "" := by
  constructor
  · rintro h rfl
    exact absurd h (by decide)
  · intro h
    obtain ⟨c, rest, hchars⟩ := List.exists_cons_of_ne_nil fun hnil ↦ h (String.toList_inj.mp hnil)
    have hunits : units text ≠ [] := by
      unfold units
      rw [hchars, List.flatMap_cons]
      exact List.append_ne_nil_of_left_ne_nil (unitsOfChar_ne_nil c) _
    exact List.length_pos_iff.mpr hunits

namespace HostName

/-! ## Labels -/

/-- A character that a label may have: an ASCII letter, a digit or a hyphen. -/
def IsPlain (c : Char) : Prop := Text.isLetter c = true ∨ Text.isDigit c = true ∨ c = '-'

/-- Characters that can begin a label: no more than a label has, and no hyphen in front. -/
structure IsStart (start : List Char) : Prop where
  short : start.length ≤ 63
  plain : ∀ c ∈ start, IsPlain c
  first : start.head? ≠ some '-'

/-- A label: 1 to 63 letters, digits and hyphens with no hyphen at either end. -/
structure IsLabel (label : List Char) : Prop extends IsStart label where
  nonempty : label ≠ []
  last : label.getLast? ≠ some '-'

instance : DecidablePred IsPlain := fun c ↦
  inferInstanceAs (Decidable (Text.isLetter c = true ∨ Text.isDigit c = true ∨ c = '-'))

theorem isStart_nil : IsStart [] := ⟨by simp, by simp, by simp⟩

/-- What stands in front of a label begins one. -/
theorem IsLabel.isStart_of_append {start more : List Char} (h : IsLabel (start ++ more)) : IsStart start where
  short := by
    have hshort := h.short
    rw [List.length_append] at hshort
    omega
  plain c hc := h.plain c (List.mem_append_left more hc)
  first := by
    cases start with
    | nil => simp
    | cons c start => exact h.first

theorem isStart_concat_iff {start : List Char} (h : IsStart start) (c : Char) :
    IsStart (start ++ [c]) ↔ start.length < 63 ∧ IsPlain c ∧ (c = '-' → start ≠ []) := by
  constructor
  · intro hnext
    have hshort := hnext.short
    rw [List.length_append, List.length_singleton] at hshort
    refine ⟨by omega, hnext.plain c (by simp), ?_⟩
    rintro rfl rfl
    exact hnext.first rfl
  · rintro ⟨hshort, hplain, hhyphen⟩
    refine ⟨?_, ?_, ?_⟩
    · rw [List.length_append, List.length_singleton]
      omega
    · exact List.forall_mem_append.mpr ⟨h.plain, List.forall_mem_singleton.mpr hplain⟩
    · cases start with
      | nil => simpa using fun hc ↦ hhyphen hc rfl
      | cons first rest => exact h.first

theorem IsStart.isLabel_iff {start : List Char} (h : IsStart start) :
    IsLabel start ↔ start.length ≠ 0 ∧ start.getLast? ≠ some '-' := by
  constructor
  · exact fun hlabel ↦ ⟨fun hlength ↦ hlabel.nonempty (List.length_eq_zero_iff.mp hlength), hlabel.last⟩
  · rintro ⟨hlength, hlast⟩
    exact ⟨h, fun hnil ↦ hlength (List.length_eq_zero_iff.mpr hnil), hlast⟩

theorem IsStart.point_not_mem {start : List Char} (h : IsStart start) : '.' ∉ start :=
  fun hmem ↦ absurd (h.plain '.' hmem) (by decide)

/-! ## The check reads labels -/

def endsWithHyphen (chars : List Char) : Bool := chars.getLast? = some '-'

theorem endsWithHyphen_concat (chars : List Char) (c : Char) : endsWithHyphen (chars ++ [c]) = decide (c = '-') := by
  simp [endsWithHyphen]

section Reading

variable {start : List Char} (h : IsStart start)

include h

theorem readLabels_nil_iff : readLabels start.length (endsWithHyphen start) [] = true ↔ IsLabel start := by
  rw [h.isLabel_iff]
  simp [readLabels, endsWithHyphen]

theorem readLabels_point_iff (rest : List Char) :
    readLabels start.length (endsWithHyphen start) ('.' :: rest) = true ↔
      IsLabel start ∧ readLabels 0 false rest = true := by
  rw [← readLabels_nil_iff h]
  simp [readLabels]

/-- Any other character is read exactly when the label can go on with it. -/
theorem readLabels_cons_iff {c : Char} (hc : c ≠ '.') (rest : List Char) :
    readLabels start.length (endsWithHyphen start) (c :: rest) = true ↔
      IsStart (start ++ [c]) ∧ readLabels (start ++ [c]).length (endsWithHyphen (start ++ [c])) rest = true := by
  rw [isStart_concat_iff h, endsWithHyphen_concat, List.length_append, List.length_singleton]
  rw [readLabels, if_neg hc, greatestLabel]
  by_cases hhyphen : c = '-'
  · subst hhyphen
    have hplain : IsPlain '-' := .inr (.inr rfl)
    rw [if_pos rfl]
    simp only [Bool.and_eq_true, bne_iff_ne, decide_eq_true_eq, ne_eq, List.length_eq_zero_iff, hplain, decide_true,
      true_and, forall_const]
    tauto
  · have hplain : IsPlain c ↔ Text.isLetter c = true ∨ Text.isDigit c = true := by simp [IsPlain, hhyphen]
    rw [if_neg hhyphen, hplain]
    simp only [Bool.and_eq_true, Bool.or_eq_true, decide_eq_true_eq, hhyphen, decide_false, false_implies, and_true]
    tauto

end Reading

/-- What is read after the beginning of a label is accepted exactly when all pieces are labels, the first of them with
its beginning. -/
theorem readLabels_iff {start : List Char} (h : IsStart start) (chars : List Char) :
    readLabels start.length (endsWithHyphen start) chars = true ↔
      ∀ label ∈ Text.pieces '.' (start ++ chars), IsLabel label := by
  induction chars generalizing start with
  | nil =>
    rw [readLabels_nil_iff h, List.append_nil, Text.pieces_of_not_mem h.point_not_mem, List.forall_mem_singleton]
  | cons c rest ih =>
    by_cases hc : c = '.'
    · subst hc
      have hnext := ih isStart_nil
      rw [readLabels_point_iff h, Text.pieces_append_separator, Text.pieces_of_not_mem h.point_not_mem,
        List.singleton_append, List.forall_mem_cons]
      exact and_congr_right fun _ ↦ hnext
    · have hnext : start ++ c :: rest = start ++ [c] ++ rest := by simp
      rw [readLabels_cons_iff h hc, hnext]
      constructor
      · rintro ⟨hstart, hread⟩
        exact (ih hstart).mp hread
      · intro hlabels
        -- The first piece is a label that begins with what is read so far.
        have hpoint : '.' ∉ start ++ [c] := by simp [h.point_not_mem, Ne.symm hc]
        obtain ⟨more, others, hpieces⟩ := Text.exists_pieces_append hpoint rest
        have hstart : IsStart (start ++ [c]) := by
          rw [hpieces] at hlabels
          exact (List.forall_mem_cons.mp hlabels).1.isStart_of_append
        exact ⟨hstart, (ih hstart).mpr hlabels⟩

theorem isWellFormed_iff (text : String) :
    isWellFormed text = true ↔ ∀ label ∈ Text.pieces '.' text.toList, IsLabel label :=
  readLabels_iff isStart_nil text.toList

/-! ## The check of a text -/

end HostName

namespace Validation

theorem requiredText_text (field label : String) (form : String → Option Flaw) (text : String) :
    requiredText field label form (some (.text text)) =
      if text = "" then some ⟨field, s!"{label} is required", .required⟩ else form text := by
  by_cases hempty : text = ""
  · subst hempty
    rfl
  · rw [if_neg hempty]
    simp [requiredText]

end Validation

namespace HostName

/-- The published name of what is held against a text as a host name, when something is. -/
def objection? (text : String) : Option String :=
  (Validation.hostName (some (.text text))).map fun flaw ↦ flaw.kind.name

theorem objection?_eq (text : String) :
    objection? text =
      if text = "" then some "REQUIRED"
      else if 253 < Text.unitLength text then some "TOO_LONG"
      else if isWellFormed text = true then none
      else some "INVALID_FORMAT" := by
  unfold objection? Validation.hostName isTooLong greatestLength
  rw [Validation.requiredText_text]
  simp only [apply_ite (Option.map fun flaw : Flaw ↦ flaw.kind.name), decide_eq_true_eq]
  rfl

/-- A text is accepted as a host name exactly when it has 1 to 253 UTF-16 units and all its pieces between points are
labels.  Of the others, the empty text is held to be missing, one with more units to be too long, whatever its pieces,
and all the rest to be of the wrong form. -/
theorem hostName_accepted_iff_labelled (text : String) :
    (Validation.hostName (some (.text text)) = none ↔
      1 ≤ Text.unitLength text ∧ Text.unitLength text ≤ 253 ∧ ∀ label ∈ Text.pieces '.' text.toList, IsLabel label) ∧
      (objection? text = some "REQUIRED" ↔ text = "") ∧
      (objection? text = some "TOO_LONG" ↔ 253 < Text.unitLength text) ∧
      (objection? text = some "INVALID_FORMAT" ↔
        text ≠ "" ∧ Text.unitLength text ≤ 253 ∧ ¬ ∀ label ∈ Text.pieces '.' text.toList, IsLabel label) := by
  have haccepted : Validation.hostName (some (.text text)) = none ↔ objection? text = none := by
    rw [objection?, Option.map_eq_none_iff]
  have hempty : Text.unitLength "" = 0 := by decide
  rw [haccepted, objection?_eq, ← isWellFormed_iff, Text.one_le_unitLength_iff]
  by_cases hnone : text = ""
  · subst hnone
    simp [hempty]
  · by_cases hlong : 253 < Text.unitLength text
    · simp [hnone, hlong]
    · have hshort : Text.unitLength text ≤ 253 := Nat.le_of_not_lt hlong
      by_cases hformed : isWellFormed text = true
      · simp [hnone, hlong, hshort, hformed]
      · simp [hnone, hlong, hshort, hformed]

end HostName

end ClusterMembership
