import ClusterMembership.ClusterContext
import ClusterMembership.Configuration
import ClusterMembership.Layout
import ClusterMembership.Service.Event
import ClusterMembership.Store.CommandQueue
import ClusterMembership.Store.KnownNodes
import ClusterMembership.Store.Registry
import ClusterMembership.Topology

/-!
# The state of the service

A manager holds everything that the service knows in memory: the registry, the waiting commands, the known
datanodes, the topology, the condition of the cluster and the datanodes whose last durable write failed.  It
also holds the clock, so that the state alone determines what an operation does.
-/

namespace ClusterMembership

/-- Whose operational state counts when a datanode reports another one than the registry holds. -/
inductive StateAuthority where
  /-- The datanode is told the state that the registry holds. -/
  | enforce
  /-- The registry takes over what the datanode reports. -/
  | followReported
  deriving DecidableEq, Inhabited

namespace StateAuthority

def name : StateAuthority → String
  | enforce => "enforce"
  | followReported => "follow-reported"

def ofName? (name : String) : Option StateAuthority :=
  [enforce, followReported].find? fun authority ↦ authority.name = name

end StateAuthority

/-- The state of the service in memory. -/
structure Manager where
  configuration : Configuration
  layout : Layout
  authority : StateAuthority
  registry : Registry := .empty
  commands : CommandQueue := .empty
  known : KnownNodes := .empty
  topology : Topology := .empty
  cluster : ClusterContext
  /-- The datanodes whose last durable write failed. -/
  unsynced : List String := []
  /-- The number of the node table in use. -/
  table : Option Nat
  clock : Instant
  /-- When the next sweep is due, while sweeps are on. -/
  nextSweep : Option Instant := none
  trace : Trace := {}
  deriving DecidableEq, Inhabited

namespace Manager

def component : String := "node-manager"

/-- Log a note at the present time. -/
def note (manager : Manager) (note : Note) : Manager :=
  { manager with trace := manager.trace.note manager.clock note }

def noteAll (manager : Manager) (notes : List Note) : Manager := notes.foldl Manager.note manager

def publish (manager : Manager) (event : Event) : Manager :=
  { manager with trace := manager.trace.publish event }

def markUnsynced (manager : Manager) (id : String) : Manager :=
  if manager.unsynced.contains id then manager
  else { manager with unsynced := manager.unsynced ++ [id] }

def markSynced (manager : Manager) (id : String) : Manager :=
  { manager with unsynced := manager.unsynced.filter fun other ↦ other ≠ id }

/-! ## Queries -/

def status (manager : Manager) (id : String) : Except Failure NodeStatus :=
  (manager.registry.require id).map NodeRecord.status

def storage (manager : Manager) (id : String) : Except Failure StorageUsage :=
  (manager.registry.require id).map NodeRecord.storage

/-- When a datanode was last heard of; the start of 1970 when it is not registered. -/
def lastHeartbeat (manager : Manager) (id : String) : Instant :=
  ((manager.registry.get? id).map NodeRecord.lastHeartbeat).getD 0

def nodesByAddress (manager : Manager) (address : String) : List Field :=
  (manager.registry.findByAddress address).map fun record ↦ record.details.identity

def listNodes (manager : Manager) (filter : NodeFilter) : List ListItem :=
  ListItem.sorted ((manager.registry.list filter).map NodeRecord.toListItem)

/-- The datanodes whose last durable write failed, in ascending order. -/
def unsyncedIds (manager : Manager) : List String := Text.sorted manager.unsynced

def protocolVersion : Nat := 1

def versionResponse (manager : Manager) (version : Nat) : Value :=
  .object [("version", .ofNat version), ("clusterId", .text manager.configuration.clusterId),
    ("softwareLayoutVersion", .number manager.layout.software)]

/-! ## Commands -/

def addCommand (manager : Manager) (id : String) (command : Command) : Except Failure Manager :=
  if manager.registry.contains id then
    .ok { manager with commands := manager.commands.add id command manager.clock }
  else .error (.service (.nodeNotFound id))

/-- Queue a command that came in for a datanode; one for an unknown datanode is dropped. -/
def onCommand (manager : Manager) (id : String) (command : Command) : Manager :=
  if manager.registry.contains id then
    { manager with commands := manager.commands.add id command manager.clock }
  else
    manager.note
      { component, level := .warn, message := "Dropping command for unregistered datanode"
        context := [("datanodeId", .text id), ("commandType", .text command.kind.name)] }

/-- Drop the commands that wait for a datanode, and hand back their number. -/
def purgeCommands (manager : Manager) (id : String) : Manager × Nat :=
  let (commands, dropped) := manager.commands.purge id
  ({ manager with commands := commands }, dropped)

def healthyInService (manager : Manager) : List String :=
  (manager.registry.list
    { health := some (.text Health.healthy.name)
      operational := some (.text OperationalState.inService.name) }).map NodeRecord.id

/-- Ask every healthy datanode in service to refresh its volume usage; hand back how many. -/
def refreshUsage (manager : Manager) : Manager × Nat :=
  let targets := manager.healthyInService
  let command := Command.issue .refreshUsage (.object []) manager.clock
  let commands := targets.foldl (fun queue id ↦ queue.add id command manager.clock) manager.commands
  let asked : Manager := { manager with commands := commands }
  (asked.note
    { component, level := .debug, message := "Queued volume usage refresh"
      context := [("count", .ofNat targets.length)] },
    targets.length)

def finalizeLayout (manager : Manager) : Manager := { manager with layout := manager.layout.finalize }

end Manager

end ClusterMembership
