import ClusterMembership.Text.Classes
import ClusterMembership.Text.Split

/-!
# Locations in the topology

A location is an absolute path.  A datanode may register with a path of non-empty segments, each after a slash and
free of blanks; `isWellFormed` reads it once from left to right.  The topology itself cuts any text at its
slashes and counts the segments that are not empty.
-/

namespace ClusterMembership.Location

/-- Whether the rest of a path is well formed, right after a slash or inside a segment. -/
def readSegments (afterSlash : Bool) : List Char → Bool
  | [] => !afterSlash
  | c :: rest =>
    if c = '/' then !afterSlash && readSegments true rest
    else !Text.isBlank c && readSegments false rest

/-- Whether characters are an absolute path of non-empty segments without blanks. -/
def isWellFormed : List Char → Bool
  | '/' :: rest => readSegments true rest
  | _ => false

/-- The segments of a path that are not empty. -/
def segments (path : List Char) : List (List Char) :=
  (Text.pieces '/' path).filter fun piece ↦ !piece.isEmpty

/-- Whether a path starts at the root. -/
def isAbsolute : List Char → Bool
  | '/' :: _ => true
  | _ => false

/-- Whether a path is another or lies below it. -/
def isWithin (path scope : List Char) : Bool :=
  path = scope || (scope ++ ['/']).isPrefixOf path

end ClusterMembership.Location
