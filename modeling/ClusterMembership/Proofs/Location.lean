import ClusterMembership.Node.Identifier
import ClusterMembership.Node.Location
import ClusterMembership.Topology

/-!
# Segments of locations

Cutting a path at a slash cuts its list of segments, so the segments of a path below a scope start with
those of the scope.  A path that lies below a placed datanode therefore has more segments than the
location of that datanode: of two locations of one depth neither is refused for lying under a datanode
at the other.
-/

namespace ClusterMembership

namespace Text

theorem pieces_cons_separator (separator : Char) (rest : List Char) :
    pieces separator (separator :: rest) = [] :: pieces separator rest := by
  simp [pieces]

theorem pieces_cons_of_ne {separator c : Char} (hc : c ≠ separator) {rest piece : List Char}
    {others : List (List Char)} (hrest : pieces separator rest = piece :: others) :
    pieces separator (c :: rest) = (c :: piece) :: others := by
  simp [pieces, hc, hrest]

/-- The pieces on both sides of a separator are those of what stands before and after it. -/
theorem pieces_append_separator (separator : Char) (before after : List Char) :
    pieces separator (before ++ separator :: after) =
      pieces separator before ++ pieces separator after := by
  induction before with
  | nil => exact pieces_cons_separator separator after
  | cons c rest ih =>
    obtain ⟨piece, others, hrest⟩ := List.exists_cons_of_ne_nil (pieces_ne_nil separator rest)
    have happend : pieces separator (rest ++ separator :: after) =
        piece :: (others ++ pieces separator after) := by
      rw [ih, hrest, List.cons_append]
    by_cases hc : c = separator
    · rw [hc, List.cons_append, pieces_cons_separator, pieces_cons_separator, ih, List.cons_append]
    · rw [List.cons_append, pieces_cons_of_ne hc happend, pieces_cons_of_ne hc hrest,
        List.cons_append]

end Text

namespace Location

theorem segments_append_slash (before after : List Char) :
    segments (before ++ '/' :: after) = segments before ++ segments after := by
  unfold segments
  rw [Text.pieces_append_separator, List.filter_append]

/-- A path has a segment as soon as it has another character than a slash. -/
theorem segments_ne_nil_of_mem {path : List Char} {c : Char} (hmem : c ∈ path) (hc : c ≠ '/') :
    segments path ≠ [] := by
  induction path with
  | nil => simp at hmem
  | cons first rest ih =>
    by_cases hfirst : first = '/'
    · have hrest : c ∈ rest := by
        rcases List.mem_cons.mp hmem with h | h
        · exact absurd (h.trans hfirst) hc
        · exact h
      have hsegments : segments (first :: rest) = segments rest := by
        rw [hfirst]
        exact segments_append_slash [] rest
      rw [hsegments]
      exact ih hrest
    · obtain ⟨piece, others, hrest⟩ := List.exists_cons_of_ne_nil (Text.pieces_ne_nil '/' rest)
      unfold segments
      rw [Text.pieces_cons_of_ne hfirst hrest]
      simp

theorem isAbsolute_iff {path : List Char} : isAbsolute path = true ↔ ∃ rest, path = '/' :: rest := by
  constructor
  · intro habsolute
    unfold isAbsolute at habsolute
    split at habsolute
    · next rest => exact ⟨rest, rfl⟩
    · simp at habsolute
  · rintro ⟨rest, rfl⟩
    rfl

/-! ## Locations and the datanodes placed there -/

theorem segments_leafPath (id location : String) :
    segments (Topology.leafPath id location) = segments location.toList ++ segments id.toList :=
  segments_append_slash location.toList id.toList

/-- What lies within a path begins with its segments. -/
theorem segments_of_isWithin {path scope : List Char} (h : isWithin path scope = true) :
    ∃ rest, segments path = segments scope ++ rest := by
  unfold isWithin at h
  rcases Bool.or_eq_true_iff.mp h with hsame | hbelow
  · have hpath : path = scope := by simpa using hsame
    exact ⟨[], by rw [hpath, List.append_nil]⟩
  · obtain ⟨rest, hrest⟩ := List.isPrefixOf_iff_prefix.mp hbelow
    refine ⟨segments rest, ?_⟩
    rw [← hrest, List.append_assoc, List.singleton_append]
    exact segments_append_slash scope rest

/-- A location below a datanode is deeper than the location of the datanode. -/
theorem depthOf_lt_of_isWithin_leafPath {id location offered : String}
    (hid : segments id.toList ≠ [])
    (h : isWithin offered.toList (Topology.leafPath id location) = true) :
    Topology.depthOf location < Topology.depthOf offered := by
  obtain ⟨rest, hrest⟩ := segments_of_isWithin h
  have hpositive : 0 < (segments id.toList).length := List.length_pos_iff.mpr hid
  unfold Topology.depthOf
  rw [hrest, segments_leafPath, List.length_append, List.length_append]
  omega

/-! ## Well-formed locations -/

theorem isAbsolute_of_isWellFormed {path : List Char} (h : isWellFormed path = true) :
    isAbsolute path = true := by
  unfold isWellFormed at h
  split at h
  · rfl
  · simp at h

theorem segments_ne_nil_of_isWellFormed {path : List Char} (h : isWellFormed path = true) :
    segments path ≠ [] := by
  unfold isWellFormed at h
  split at h
  · next rest =>
    cases rest with
    | nil => simp [readSegments] at h
    | cons c rest =>
      have hc : c ≠ '/' := by
        intro hslash
        simp [readSegments, hslash] at h
      exact segments_ne_nil_of_mem (List.mem_cons_of_mem '/' List.mem_cons_self) hc
  · simp at h

/-- A well-formed location is not the empty text, so it is meant as it stands. -/
theorem meant_of_isWellFormed {location : String} (h : isWellFormed location.toList = true) :
    Topology.meant location = location := by
  unfold Topology.meant
  rw [if_neg]
  intro hempty
  rw [hempty] at h
  simp [isWellFormed] at h

end Location

namespace Identifier

/-- An identifier begins with a hexadecimal digit, so it is a segment of its own. -/
theorem segments_ne_nil_of_isValid {id : String} (h : isValid id = true) :
    Location.segments id.toList ≠ [] := by
  unfold isValid at h
  cases hchars : id.toList with
  | nil => simp [hchars, places, fill, List.replicate] at h
  | cons c rest =>
    have hdigit : Text.isHexDigit c = true := by
      rw [hchars] at h
      simp only [places, List.replicate, List.cons_append, fill, Place.admits, Bool.and_eq_true] at h
      exact h.1
    have hc : c ≠ '/' := by
      intro hslash
      rw [hslash] at hdigit
      exact absurd hdigit (by decide)
    exact Location.segments_ne_nil_of_mem List.mem_cons_self hc

end Identifier

end ClusterMembership
