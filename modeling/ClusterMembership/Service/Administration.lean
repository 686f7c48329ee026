import ClusterMembership.Service.Registration

/-!
# Removal and operational states

A removal deletes the row of the node table first; only when that has succeeded is the datanode forgotten in
memory.  A change of the operational state is made in memory first and then written.
-/

namespace ClusterMembership.Manager

/-! ## Removal -/

/-- Forget everything about a datanode. -/
def forget (manager : Manager) (id : String) : Manager :=
  let (commands, dropped) := manager.commands.purge id
  let forgotten := Manager.markSynced
    { manager with
      registry := manager.registry.erase id
      topology := manager.topology.remove id
      commands := commands
      known := manager.known.erase id }
    id
  (forgotten.note
    { component, level := .info, message := "Datanode removed"
      context := [("datanodeId", .text id), ("droppedCommands", .ofNat dropped)] }).publish (.removed id)

/-- Start the removal of a datanode under its lock. -/
def beginRemoval (manager : Manager) (id : String) : Manager × Progress Unit :=
  if manager.registry.contains id then
    match manager.table with
    | some table => (manager, .asking table (.delete id) ())
    | none => (manager.forget id, .ended (.ok .nothing))
  else (manager, .ended (.error (.service (.nodeNotFound id))))

def finishRemoval (manager : Manager) (id : String) (answer : TableAnswer) : Manager × Outcome :=
  match answer with
  | .ok _ => (manager.forget id, .ok .nothing)
  | .error cause =>
    let failure := Failure.service (cause.wrapPersistence "delete" (some id))
    (manager.note
      { component, level := .error, message := "Failed to delete datanode from node table"
        context := [("datanodeId", .text id)], error := some failure },
      .error failure)

/-! ## Operational states -/

/-- Start a change of the operational state of a datanode under its lock; `reply` is the answer in the end. -/
def beginStateChange (manager : Manager) (id : String) (state expiry : Field) (reply : Reply) :
    Manager × Progress Reply :=
  match manager.registry.get? id with
  | none => (manager, .ended (.error (.service (.nodeNotFound id))))
  | some record =>
    let expiry := Registry.expiryOrNever expiry
    let changed : Manager :=
      { manager with
        registry := manager.registry.amend id (Registry.restated state expiry manager.clock) }
    let noted := changed.note
      { component, level := .info, message := "Datanode operational state changed"
        context := .ofFields
          [("datanodeId", some (.text id)), ("previous", record.status.operational),
            ("current", state), ("expiryEpochSec", expiry)] }
    match noted.table with
    | none => (noted, .ended (.ok reply))
    | some table =>
      let stored := (Registry.restated state expiry manager.clock record).details
      (noted, .asking table (.put id stored) reply)

/-- End a change of the operational state of a datanode after the table has answered. -/
def finishStateChange (manager : Manager) (id : String) (reply : Reply) (answer : TableAnswer) :
    Manager × Outcome :=
  let (written, outcome) := manager.settleWrite id answer
  (written, outcome.map fun _ ↦ reply)

end ClusterMembership.Manager
