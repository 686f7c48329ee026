import ClusterMembership.Text.Classes

/-!
# Identifiers of datanodes

A datanode is known by a universally unique identifier: 32 hexadecimal digits in groups of 8, 4, 4, 4 and 12
joined by hyphens.  The first digit of the third group is a version from 1 to 8, and the first digit of the
fourth is a variant from 8 to b.
-/

namespace ClusterMembership.Identifier

/-- What may stand at a place of an identifier. -/
inductive Place where
  | hyphen | digit | version | variant
  deriving DecidableEq

def places : List Place :=
  .replicate 8 .digit ++ .hyphen :: .replicate 4 .digit ++ .hyphen :: .version ::
    .replicate 3 .digit ++ .hyphen :: .variant :: .replicate 3 .digit ++
    .hyphen :: .replicate 12 .digit

def Place.admits (c : Char) : Place → Bool
  | hyphen => c = '-'
  | digit => Text.isHexDigit c
  | version => '1' ≤ c && c ≤ '8'
  | variant => ['8', '9', 'a', 'b', 'A', 'B'].contains c

/-- Whether characters fill places one by one. -/
def fill : List Place → List Char → Bool
  | [], [] => true
  | place :: places, c :: chars => place.admits c && fill places chars
  | _, _ => false

def isValid (text : String) : Bool := fill places text.toList

/-- The character at a place, and what is left of a source of hexadecimal digits: a random identifier has
version 4 and takes its variant from two of the source's bits. -/
def drawAt (source : Nat) : Place → Char × Nat
  | .hyphen => ('-', source)
  | .version => ('4', source)
  | .variant => ((['8', '9', 'a', 'b'][source % 4]?).getD '8', source / 4)
  | .digit => ((Nat.toDigits 16 (source % 16)).headD '0', source / 16)

/-- The characters that a source gives for places. -/
def draw : List Place → Nat → List Char
  | [], _ => []
  | place :: places, source =>
    let (c, rest) := drawAt source place
    c :: draw places rest

/-- The random identifier that a source of 122 bits stands for. -/
def random (source : Nat) : String := String.ofList (draw places source)

end ClusterMembership.Identifier
