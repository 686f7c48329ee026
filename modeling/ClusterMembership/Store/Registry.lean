import ClusterMembership.Node.Record
import ClusterMembership.OrderedMap

/-!
# The registry

The registry maps identifiers to the records of registered datanodes, in the order of registration.  Records are
replaced and never changed in place.  Every action on a single datanode refuses an unknown identifier and
otherwise hands back the record it stored.
-/

namespace ClusterMembership

structure Registry where
  records : OrderedMap NodeRecord
  deriving DecidableEq, Inhabited

namespace Registry

def empty : Registry := ⟨.empty⟩

/-! ## Queries -/

def get? (registry : Registry) (id : String) : Option NodeRecord := registry.records.get? id

def contains (registry : Registry) (id : String) : Bool := registry.records.contains id

def size (registry : Registry) : Nat := registry.records.size

/-- The record of a datanode, or the refusal of an unknown one. -/
def require (registry : Registry) (id : String) : Except Failure NodeRecord :=
  match registry.get? id with
  | some record => .ok record
  | none => .error (.service (.nodeNotFound id))

/-- The records that satisfy a filter, in the order of registration. -/
def list (registry : Registry) (filter : NodeFilter) : List NodeRecord :=
  registry.records.values.filter fun record ↦ record.satisfies filter

def count (registry : Registry) (filter : NodeFilter) : Nat := (registry.list filter).length

def findByAddress (registry : Registry) (address : String) : List NodeRecord :=
  registry.records.values.filter fun record ↦ record.details.hasAddress address

def ofHealth (registry : Registry) (health : Health) : List NodeRecord :=
  registry.records.values.filter fun record ↦ record.status.health = health

def ofOperational (registry : Registry) (state : OperationalState) : List NodeRecord :=
  registry.records.values.filter fun record ↦ record.status.operational = some (.text state.name)

/-! ## Actions -/

def upsert (registry : Registry) (record : NodeRecord) : Registry :=
  ⟨registry.records.insert record.id record⟩

/-- Forget a datanode without asking whether it is registered. -/
def erase (registry : Registry) (id : String) : Registry := ⟨registry.records.erase id⟩

/-- Forget a registered datanode and hand back its record. -/
def remove (registry : Registry) (id : String) : Except Failure (Registry × NodeRecord) :=
  (registry.require id).map fun record ↦ (registry.erase id, record)

/-- Replace the record of a datanode by a change of it; an unknown datanode has none to replace. -/
def amend (registry : Registry) (id : String) (changed : NodeRecord → NodeRecord) : Registry :=
  match registry.get? id with
  | some record => registry.upsert (changed record)
  | none => registry

/-- Replace the record of a registered datanode by a change of it, and hand the change back. -/
def change (registry : Registry) (id : String) (changed : NodeRecord → NodeRecord) :
    Except Failure (Registry × NodeRecord) :=
  (registry.require id).map fun record ↦ (registry.amend id changed, changed record)

/-- A record with other details; the status stays and the details take their operational state from it. -/
def detailed (details : Details) (now : Instant) (record : NodeRecord) : NodeRecord :=
  { record with
    details := details.withOperational record.status.operational record.status.expiry
    updatedAt := now }

def updateDetails (registry : Registry) (id : String) (details : Details) (now : Instant) :
    Except Failure (Registry × NodeRecord) :=
  registry.change id (detailed details now)

/-- A record with another operational state, in the status and in the details. -/
def restated (state expiry : Field) (now : Instant) (record : NodeRecord) : NodeRecord :=
  { record with
    details := record.details.withOperational state expiry
    status := { record.status with operational := state, expiry := expiry }
    updatedAt := now }

/-- The expiry that is meant when none is given. -/
def expiryOrNever : Field → Field
  | none => some (.number 0)
  | some expiry => some expiry

/-- Set the operational state of a datanode; without an expiry the state never lapses. -/
def setOperational (registry : Registry) (id : String) (state expiry : Field) (now : Instant) :
    Except Failure (Registry × NodeRecord) :=
  registry.change id (restated state (expiryOrNever expiry) now)

def heard (layout : Option LayoutReport) (now : Instant) (record : NodeRecord) : NodeRecord :=
  { record with
    status := { record.status with health := .healthy }
    lastHeartbeat := now
    layout := layout.getD record.layout
    updatedAt := now }

/-- Note a heartbeat of a datanode, which makes it healthy. -/
def recordHeartbeat (registry : Registry) (id : String) (now : Instant) (layout : Option LayoutReport) :
    Except Failure (Registry × NodeRecord) :=
  registry.change id (heard layout now)

/-- A record with another health; one that has this health already stays as it is. -/
def classified (health : Health) (now : Instant) (record : NodeRecord) : NodeRecord :=
  if record.status.health = health then record
  else { record with status := { record.status with health := health }, updatedAt := now }

def setHealth (registry : Registry) (id : String) (health : Health) (now : Instant) :
    Except Failure (Registry × NodeRecord) :=
  (registry.require id).map fun record ↦
    if record.status.health = health then (registry, record)
    else (registry.upsert (classified health now record), classified health now record)

def stocked (storage : StorageUsage) (now : Instant) (record : NodeRecord) : NodeRecord :=
  { record with storage := storage, updatedAt := now }

def updateStorage (registry : Registry) (id : String) (storage : StorageUsage) (now : Instant) :
    Except Failure (Registry × NodeRecord) :=
  registry.change id (stocked storage now)

/-! ## Look-up after an action -/

@[simp]
theorem get?_empty (id : String) : empty.get? id = none := rfl

theorem contains_iff (registry : Registry) (id : String) :
    registry.contains id = true ↔ ∃ record, registry.get? id = some record :=
  OrderedMap.contains_iff registry.records id

theorem contains_eq_false_iff (registry : Registry) (id : String) :
    registry.contains id = false ↔ registry.get? id = none :=
  Option.isSome_eq_false_iff.trans Option.isNone_iff_eq_none

theorem get?_upsert (registry : Registry) (record : NodeRecord) (id : String) :
    (registry.upsert record).get? id = if record.id = id then some record else registry.get? id :=
  OrderedMap.get?_insert registry.records record.id id record

theorem get?_erase (registry : Registry) (erased id : String) :
    (registry.erase erased).get? id = if erased = id then none else registry.get? id :=
  OrderedMap.get?_erase registry.records erased id

theorem amend_of_get? {registry : Registry} {id : String} {record : NodeRecord} {changed : NodeRecord → NodeRecord}
    (hrecord : registry.get? id = some record) (hid : (changed record).id = id) :
    registry.amend id changed = ⟨registry.records.insert id (changed record)⟩ := by
  simp only [amend, hrecord, upsert, hid]

/-- A change that keeps the identifier of a record replaces the record and no other. -/
theorem get?_amend (registry : Registry) (amended id : String) (changed : NodeRecord → NodeRecord)
    (hid : ∀ record, registry.get? amended = some record → (changed record).id = amended) :
    (registry.amend amended changed).get? id =
      if amended = id then (registry.get? amended).map changed else registry.get? id := by
  cases hrecord : registry.get? amended with
  | none =>
    have hsame : registry.amend amended changed = registry := by simp [amend, hrecord]
    rw [hsame]
    by_cases h : amended = id
    · rw [if_pos h, ← h, hrecord, Option.map_none]
    · rw [if_neg h]
  | some record =>
    have hsame : registry.amend amended changed = registry.upsert (changed record) := by
      simp [amend, hrecord]
    rw [hsame, get?_upsert, hid record hrecord, Option.map_some]

end Registry

end ClusterMembership
