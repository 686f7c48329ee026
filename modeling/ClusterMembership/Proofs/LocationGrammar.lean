import ClusterMembership.Node.Validation
import ClusterMembership.Proofs.Location

/-!
# The grammar of locations

A location is spelled by one or more names, each after a slash; a name is a run of characters that are neither slashes
nor blank.  The check of a location reads the path once from left to right and keeps nothing but whether it stands
right after a slash, whereas the topology cuts any text at its slashes and drops the empty pieces.  The two fit
together: the check accepts exactly the paths that the grammar spells, and the pieces are then the names.
-/

namespace ClusterMembership

theorem Text.pieces_of_not_mem {separator : Char} {chars : List Char} (h : separator ∉ chars) :
    pieces separator chars = [chars] := by
  induction chars with
  | nil => rfl
  | cons c rest ih =>
    have hc : c ≠ separator := fun hsame ↦ h (hsame ▸ List.mem_cons_self)
    have hrest : separator ∉ rest := fun hmem ↦ h (List.mem_cons_of_mem c hmem)
    exact pieces_cons_of_ne hc (ih hrest)

namespace Location

/-! ## Names -/

/-- A character that a name may have. -/
def IsPlain (c : Char) : Prop := c ≠ '/' ∧ Text.isBlank c = false

/-- A name of a segment: a run of plain characters that is not empty. -/
structure IsName (name : List Char) : Prop where
  nonempty : name ≠ []
  plain : ∀ c ∈ name, IsPlain c

def join (names : List (List Char)) : List Char := names.flatMap fun name ↦ '/' :: name

/-- The names that spell a path. -/
structure Spells (names : List (List Char)) (path : List Char) : Prop where
  nonempty : names ≠ []
  named : ∀ name ∈ names, IsName name
  joined : join names = path

instance : DecidablePred IsPlain := fun c ↦ inferInstanceAs (Decidable (c ≠ '/' ∧ Text.isBlank c = false))

-- Not all characters that there are, but those of the name are looked at.
instance : DecidablePred IsName := fun name ↦
  decidable_of_iff (name ≠ [] ∧ name.all (fun c ↦ decide (IsPlain c)) = true)
    ⟨fun h ↦ ⟨h.1, by simpa using h.2⟩, fun h ↦ ⟨h.nonempty, by simpa using h.plain⟩⟩

instance (names : List (List Char)) (path : List Char) : Decidable (Spells names path) :=
  decidable_of_iff (names ≠ [] ∧ (∀ name ∈ names, IsName name) ∧ join names = path)
    ⟨fun h ↦ ⟨h.1, h.2.1, h.2.2⟩, fun h ↦ ⟨h.nonempty, h.named, h.joined⟩⟩

@[simp]
theorem join_nil : join [] = [] := rfl

@[simp]
theorem join_cons (name : List Char) (names : List (List Char)) : join (name :: names) = '/' :: (name ++ join names) :=
  List.flatMap_cons

theorem join_append (names others : List (List Char)) : join (names ++ others) = join names ++ join others :=
  List.flatMap_append

/-! ## Segments of a spelled path -/

theorem IsName.segments_eq {name : List Char} (h : IsName name) : segments name = [name] := by
  have hslash : '/' ∉ name := fun hmem ↦ (h.plain '/' hmem).1 rfl
  unfold segments
  rw [Text.pieces_of_not_mem hslash]
  simp [h.nonempty]

theorem segments_append_join (start : List Char) {names : List (List Char)} (h : ∀ name ∈ names, IsName name) :
    segments (start ++ join names) = segments start ++ names := by
  induction names generalizing start with
  | nil => rw [join_nil, List.append_nil, List.append_nil]
  | cons name rest ih =>
    obtain ⟨hname, hrest⟩ := List.forall_mem_cons.mp h
    calc
      segments (start ++ join (name :: rest)) = segments start ++ segments (name ++ join rest) := by
        rw [join_cons, segments_append_slash]
      _ = segments start ++ (segments name ++ rest) := by rw [ih name hrest]
      _ = segments start ++ name :: rest := by rw [hname.segments_eq, List.singleton_append]

/-- The names that spell a path are the segments of the path. -/
theorem Spells.segments_eq {names : List (List Char)} {path : List Char} (h : Spells names path) :
    segments path = names := by
  rw [← h.joined]
  exact segments_append_join [] h.named

/-! ## The check reads the grammar -/

theorem readSegments_plain {run : List Char} (hrun : ∀ c ∈ run, IsPlain c) (rest : List Char) :
    readSegments false (run ++ rest) = readSegments false rest := by
  induction run with
  | nil => rfl
  | cons c run ih =>
    obtain ⟨⟨hslash, hblank⟩, hrun⟩ := List.forall_mem_cons.mp hrun
    simp [readSegments, hslash, hblank, ih hrun]

theorem IsName.readSegments_append {name : List Char} (h : IsName name) (rest : List Char) :
    readSegments true (name ++ rest) = readSegments false rest := by
  obtain ⟨hnonempty, hplain⟩ := h
  cases name with
  | nil => exact absurd rfl hnonempty
  | cons c run =>
    obtain ⟨⟨hslash, hblank⟩, hrun⟩ := List.forall_mem_cons.mp hplain
    simp [readSegments, hslash, hblank, readSegments_plain hrun]

theorem readSegments_join {names : List (List Char)} (h : ∀ name ∈ names, IsName name) :
    readSegments false (join names) = true := by
  induction names with
  | nil => rfl
  | cons name rest ih =>
    obtain ⟨hname, hrest⟩ := List.forall_mem_cons.mp h
    calc
      readSegments false (join (name :: rest)) = readSegments true (name ++ join rest) := by simp [readSegments]
      _ = readSegments false (join rest) := hname.readSegments_append _
      _ = true := ih hrest

theorem Spells.isWellFormed {names : List (List Char)} {path : List Char} (h : Spells names path) :
    isWellFormed path = true := by
  obtain ⟨hnonempty, hnamed, rfl⟩ := h
  cases names with
  | nil => exact absurd rfl hnonempty
  | cons name rest =>
    obtain ⟨hname, hrest⟩ := List.forall_mem_cons.mp hnamed
    calc
      Location.isWellFormed (join (name :: rest)) = readSegments true (name ++ join rest) := by
        simp [Location.isWellFormed]
      _ = readSegments false (join rest) := hname.readSegments_append _
      _ = true := readSegments_join hrest

/-- What is read to the end is the rest of the name that was begun, then further names each after a slash.  Right
after a slash the name has yet to begin. -/
theorem exists_of_readSegments {afterSlash : Bool} {path : List Char} (h : readSegments afterSlash path = true) :
    ∃ run names, (afterSlash = true → run ≠ []) ∧ (∀ c ∈ run, IsPlain c) ∧ (∀ name ∈ names, IsName name) ∧
      path = run ++ join names := by
  induction path generalizing afterSlash with
  | nil =>
    have hinside : afterSlash = false := by simpa [readSegments] using h
    exact ⟨[], [], by simp [hinside], by simp, by simp, rfl⟩
  | cons c rest ih =>
    by_cases hslash : c = '/'
    · obtain ⟨hinside, hrest⟩ : afterSlash = false ∧ readSegments true rest = true := by
        simpa [readSegments, hslash] using h
      obtain ⟨run, names, hrun, hplain, hnamed, rfl⟩ := ih hrest
      have hname : IsName run := ⟨hrun rfl, hplain⟩
      exact ⟨[], run :: names, by simp [hinside], by simp, List.forall_mem_cons.mpr ⟨hname, hnamed⟩, by simp [hslash]⟩
    · obtain ⟨hblank, hrest⟩ : Text.isBlank c = false ∧ readSegments false rest = true := by
        simpa [readSegments, hslash] using h
      obtain ⟨run, names, -, hplain, hnamed, rfl⟩ := ih hrest
      exact ⟨c :: run, names, by simp, List.forall_mem_cons.mpr ⟨⟨hslash, hblank⟩, hplain⟩, hnamed, rfl⟩

theorem exists_spells_of_isWellFormed {path : List Char} (h : isWellFormed path = true) :
    ∃ names, Spells names path := by
  unfold isWellFormed at h
  split at h
  · next rest =>
    obtain ⟨run, names, hrun, hplain, hnamed, rfl⟩ := exists_of_readSegments h
    have hname : IsName run := ⟨hrun rfl, hplain⟩
    exact ⟨run :: names, List.cons_ne_nil _ _, List.forall_mem_cons.mpr ⟨hname, hnamed⟩, join_cons run names⟩
  · cases h

theorem spells_segments_of_isWellFormed {path : List Char} (h : isWellFormed path = true) :
    Spells (segments path) path := by
  obtain ⟨names, hnames⟩ := exists_spells_of_isWellFormed h
  rwa [hnames.segments_eq]

/-! ## Accepted texts -/

def IsAccepted (text : String) : Prop := Validation.networkLocation (some (.text text)) = none

instance : DecidablePred IsAccepted := fun text ↦
  inferInstanceAs (Decidable (Validation.networkLocation (some (.text text)) = none))

theorem isAccepted_iff_isWellFormed (text : String) : IsAccepted text ↔ isWellFormed text.toList = true := by
  simp [IsAccepted, Validation.networkLocation]

theorem isAccepted_iff_exists_spells (text : String) : IsAccepted text ↔ ∃ names, Spells names text.toList := by
  rw [isAccepted_iff_isWellFormed]
  exact ⟨exists_spells_of_isWellFormed, fun ⟨_, hspells⟩ ↦ hspells.isWellFormed⟩

theorem IsAccepted.spells {text : String} (h : IsAccepted text) : Spells (segments text.toList) text.toList :=
  spells_segments_of_isWellFormed ((isAccepted_iff_isWellFormed text).mp h)

/-- An accepted location is determined by its segments. -/
theorem IsAccepted.eq_of_segments_eq {text other : String} (htext : IsAccepted text) (hother : IsAccepted other)
    (h : segments text.toList = segments other.toList) : text = other := by
  apply String.toList_inj.mp
  calc
    text.toList = join (segments text.toList) := htext.spells.joined.symm
    _ = join (segments other.toList) := by rw [h]
    _ = other.toList := hother.spells.joined

/-- A text is accepted as a location exactly when names spell it.  The names are the segments that the topology finds,
so that joining the segments gives the text back, and no two accepted texts have the same segments. -/
theorem location_accepted_iff_spelled (text : String) :
    (Validation.networkLocation (some (.text text)) = none ↔ ∃ names, Spells names text.toList) ∧
      (∀ names, Spells names text.toList → segments text.toList = names ∧ join (segments text.toList) = text.toList) ∧
      ∀ other, Validation.networkLocation (some (.text text)) = none →
        Validation.networkLocation (some (.text other)) = none →
        segments text.toList = segments other.toList → text = other := by
  refine ⟨isAccepted_iff_exists_spells text, fun names hspells ↦ ?_, fun other htext hother ↦ ?_⟩
  · exact ⟨hspells.segments_eq, by rw [hspells.segments_eq, hspells.joined]⟩
  · exact IsAccepted.eq_of_segments_eq htext hother

/-- A name may hold what is neither a slash nor blank, also beyond the basic plane: the next line sign and the
zero-width space do not count as blank. -/
theorem location_accepted_iff_spelled_beyond_ascii :
    let names := ["dc\u0085".toList, "räck\u200B😀".toList]
    Validation.networkLocation (some (.text "/dc\u0085/räck\u200B😀")) = none ∧
      segments "/dc\u0085/räck\u200B😀".toList = names ∧
      ∀ other, Validation.networkLocation (some (.text other)) = none → segments other.toList = names →
        other = "/dc\u0085/räck\u200B😀" := by
  intro names
  have hspells : Spells names "/dc\u0085/räck\u200B😀".toList := by decide
  obtain ⟨haccepted, hsegments, hunique⟩ := location_accepted_iff_spelled "/dc\u0085/räck\u200B😀"
  refine ⟨haccepted.mpr ⟨names, hspells⟩, (hsegments names hspells).1, fun other hother hsame ↦ ?_⟩
  exact (hunique other (haccepted.mpr ⟨names, hspells⟩) hother ((hsegments names hspells).1.trans hsame.symm)).symm

end Location

end ClusterMembership
