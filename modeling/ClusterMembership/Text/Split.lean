/-!
# Pieces of texts

A text is cut at every occurrence of a separator; the pieces between two neighbouring separators, before the
first and after the last may be empty, so there is always one piece more than there are separators.
-/

namespace ClusterMembership.Text

/-- The pieces between the occurrences of a separator. -/
def pieces (separator : Char) : List Char → List (List Char)
  | [] => [[]]
  | c :: rest =>
    if c = separator then [] :: pieces separator rest
    else
      match pieces separator rest with
      | [] => [[c]]
      | piece :: others => (c :: piece) :: others

/-- What stands before and after the first place where a separator stands twice in a row. -/
def cutAtDouble? (separator : Char) : List Char → Option (List Char × List Char)
  | [] => none
  | [_] => none
  | c :: d :: rest =>
    if c = separator ∧ d = separator then some ([], rest)
    else (cutAtDouble? separator (d :: rest)).map fun (before, after) ↦ (c :: before, after)

/-- What stands before and after the first occurrence of a separator. -/
def cutAt? (separator : Char) : List Char → Option (List Char × List Char)
  | [] => none
  | c :: rest =>
    if c = separator then some ([], rest)
    else (cutAt? separator rest).map fun (before, after) ↦ (c :: before, after)

theorem pieces_ne_nil (separator : Char) (chars : List Char) : pieces separator chars ≠ [] := by
  cases chars with
  | nil => simp [pieces]
  | cons c rest =>
    unfold pieces
    split
    · simp
    · split <;> simp

end ClusterMembership.Text
