import ClusterMembership.Session

/-!
# What a service knows

A summary shows the whole state of a service that its queries can reveal: the registered datanodes with their
groups, placements, last heartbeats and pending commands, and the datanodes whose durable copy is behind.
-/

namespace ClusterMembership

namespace Registry

def identities (records : List NodeRecord) : Value :=
  .list (records.map fun record ↦ record.details.identity.getD .null)

/-- The identities of the registered datanodes, by health and by operational state. -/
def groups (registry : Registry) : List (String × Value) :=
  [("byHealth", .object (Health.all.map fun health ↦ (health.name, identities (registry.ofHealth health)))),
    ("byOperationalState", .object (OperationalState.all.map fun state ↦
      (state.name, identities (registry.ofOperational state))))]

/-- The identifiers of the registered datanodes, in ascending order. -/
def sortedIds (registry : Registry) : List String := Text.sorted registry.records.keys

end Registry

namespace CommandQueue

/-- How many commands of each kind are pending for a datanode, kinds without any left out. -/
def pendingByKind (queue : CommandQueue) (id : String) : Members :=
  CommandKind.all.filterMap fun kind ↦
    let count := queue.pendingOf id kind.name
    if count.equal 0 then none else some (kind.name, .number count)

end CommandQueue

namespace Service

/-- Everything that a service knows, as an object. -/
def summary (service : Service) : Value :=
  let manager := service.manager
  let registry := manager.registry
  let ids := registry.sortedIds
  let queued := (ids.map fun id ↦ (id, manager.commands.pendingByKind id)).filter fun entry ↦
    !entry.2.isEmpty
  .object ([("total", .ofNat registry.size),
    ("nodes", .list (ids.filterMap fun id ↦ (registry.get? id).map NodeRecord.toValue)),
    ("lastHeartbeats", .object (ids.map fun id ↦ (id, .ofInt (service.lastHeartbeat id)))),
    ("placements", .object (ids.map fun id ↦
      (id, ((manager.topology.location? id).map Value.text).getD .null))),
    ("queued", .object (queued.map fun (id, counts) ↦ (id, .object counts))),
    ("unsynced", .texts manager.unsyncedIds)] ++ registry.groups)

end Service

namespace Table

/-- The stored rows as a value: in memory with the number of open iterators, in a database in stored order. -/
def rowsValue (table : Table) : Value :=
  match table.store with
  | .memory memory =>
    .object [("rows", .list (memory.sortedRows.map TableEntry.toValue)),
      ("openIterators", .ofNat memory.openIterators)]
  | .hosted hosted => .list hosted.database.rows

end Table

end ClusterMembership
