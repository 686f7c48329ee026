import ClusterMembership.Failure
import ClusterMembership.Node.Details
import ClusterMembership.Node.Location
import ClusterMembership.OrderedMap
import ClusterMembership.Text.Units

/-!
# The topology of the cluster

Datanodes are the leaves of a tree of locations, and all leaves lie at the same depth.  A location is refused
when it is no absolute path, when it lies under another datanode, or when it would put the datanode at another
depth than the others.  A refused move keeps the datanode where it was.
-/

namespace ClusterMembership

/-- The placements of datanodes, by identifier. -/
structure Topology where
  leaves : OrderedMap String
  deriving DecidableEq, Inhabited

/-- Why a datanode cannot be placed. -/
inductive Refusal where
  | placed (location : String)
  | notAbsolute
  | underDatanode (id : String)
  | wrongDepth (depth offered : Nat)
  deriving DecidableEq

namespace Refusal

def reason : Refusal → String
  | placed location => s!"already placed at {location}"
  | notAbsolute => "location must be an absolute path"
  | underDatanode id => s!"location is under datanode {id}"
  | wrongDepth depth offered => s!"leaves must all be at depth {depth}, got {offered}"

def error (refusal : Refusal) (id location : String) : ServiceError :=
  .invalidLocation id location refusal.reason

end Refusal

namespace Topology

def empty : Topology := ⟨.empty⟩

/-- The depth at which a location puts a datanode. -/
def depthOf (location : String) : Nat := (Location.segments location.toList).length + 1

/-- The depth of the leaves, zero when there are none. -/
def depth (topology : Topology) : Nat := (topology.leaves.values.head?.map depthOf).getD 0

def size (topology : Topology) : Nat := topology.leaves.size

def contains (topology : Topology) (id : String) : Bool := topology.leaves.contains id

def location? (topology : Topology) (id : String) : Option String := topology.leaves.get? id

/-- The datanodes placed at a scope or under it, in ascending order. -/
def leavesIn (topology : Topology) (scope : String) : List String :=
  let within := topology.leaves.entries.filter fun leaf ↦
    scope = "/" || Location.isWithin leaf.2.toList scope.toList
  Text.sorted (within.map Prod.fst)

/-- The location meant when a text is offered as one: the default stands for the empty text. -/
def meant (location : String) : String := if location = "" then defaultLocation else location

def leafPath (id location : String) : List Char := location.toList ++ '/' :: id.toList

/-- Whether a location can take a datanode that is not placed yet. -/
def check (topology : Topology) (location : String) : Except Refusal Unit :=
  let path := location.toList
  if !Location.isAbsolute path || (Location.segments path).isEmpty then .error .notAbsolute
  else
    match topology.leaves.entries.find? fun leaf ↦ Location.isWithin path (leafPath leaf.1 leaf.2) with
    | some leaf => .error (.underDatanode leaf.1)
    | none =>
      if topology.depth ≠ 0 ∧ topology.depth ≠ depthOf location then
        .error (.wrongDepth topology.depth (depthOf location))
      else .ok ()

/-- Place a datanode; one that is placed already may only be placed where it is. -/
def add (topology : Topology) (id offered : String) : Except Refusal Topology :=
  let location := meant offered
  match topology.location? id with
  | some existing => if existing = location then .ok topology else .error (.placed existing)
  | none => (topology.check location).map fun _ ↦ ⟨topology.leaves.insert id location⟩

def remove (topology : Topology) (id : String) : Topology := ⟨topology.leaves.erase id⟩

/-- Move a datanode, or place it when it is not placed.  The second part is the refusal of a move; the datanode
then stays where it was, behind all others. -/
def update (topology : Topology) (id offered : String) : Topology × Option Refusal :=
  let location := meant offered
  let previous := topology.location? id
  if previous = some location then (topology, none)
  else
    let without := topology.remove id
    match without.add id location with
    | .ok moved => (moved, none)
    | .error refusal => (⟨without.leaves.restore id previous⟩, some refusal)

@[simp]
theorem location?_empty (id : String) : empty.location? id = none := rfl

theorem location?_remove (topology : Topology) (removed id : String) :
    (topology.remove removed).location? id = if removed = id then none else topology.location? id :=
  OrderedMap.get?_erase topology.leaves removed id

/-- The one way in which a datanode gets into a topology where it was not. -/
theorem add_of_absent {topology : Topology} {id : String} (habsent : topology.location? id = none)
    (offered : String) :
    topology.add id offered =
      (topology.check (meant offered)).map fun _ ↦ ⟨topology.leaves.insert id (meant offered)⟩ := by
  simp only [add, habsent]

theorem location?_add {topology placed : Topology} {id offered : String}
    (h : topology.add id offered = .ok placed) (other : String) :
    placed.location? other =
      if id = other then some (meant offered) else topology.location? other := by
  cases hlocation : topology.location? id with
  | none =>
    rw [add_of_absent hlocation] at h
    cases hcheck : topology.check (meant offered) with
    | error refusal => simp [hcheck, Except.map] at h
    | ok _ =>
      have hplaced : placed = ⟨topology.leaves.insert id (meant offered)⟩ := by
        simpa [hcheck, Except.map] using h.symm
      rw [hplaced]
      exact OrderedMap.get?_insert topology.leaves id other (meant offered)
  | some existing =>
    simp only [add, hlocation] at h
    split at h
    · next hexisting =>
      have hplaced : topology = placed := by simpa using h
      by_cases hother : id = other
      · rw [if_pos hother, ← hother, ← hplaced, hlocation, hexisting]
      · rw [if_neg hother, hplaced]
    · simp at h

end Topology

end ClusterMembership
