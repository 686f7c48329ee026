import ClusterMembership.Service.Registration

/-!
# Heartbeats and the health of datanodes

A heartbeat makes a registered datanode healthy, brings its reports, and carries the waiting commands away.  A
datanode that is not registered is told to register.  A sweep looks at how long each datanode has been silent
and only ever makes its health worse; a dead datanode loses its waiting commands.
-/

namespace ClusterMembership

/-- What a sweep found: how many datanodes it looked at, and which became stale or dead. -/
structure SweepResult where
  checked : Nat := 0
  stale : List String := []
  dead : List String := []
  deriving DecidableEq, Inhabited

namespace SweepResult

def toValue (result : SweepResult) : Value :=
  .object [("checked", .ofNat result.checked), ("stale", .texts result.stale), ("dead", .texts result.dead)]

end SweepResult

namespace Manager

def heartbeatComponent : String := "heartbeat-processor"

def heartbeatNote (level : LogLevel) (message : String) (identity : Field) (context : Members) : Note :=
  Note.about { component := heartbeatComponent, level, message, context } identity

/-! ## Heartbeats -/

/-- Note that a datanode was heard of, and announce it when it was not healthy before. -/
def hear (manager : Manager) (id : String) (previous : Health) (layout : Option LayoutReport)
    (now : Instant) : Manager :=
  let heard : Manager :=
    { manager with registry := manager.registry.amend id (Registry.heard layout now) }
  if previous = .healthy then heard
  else
    (heard.note (heartbeatNote .info "Datanode is healthy again" (some (.text id))
      [("previous", .text previous.name)])).publish (.healthChanged id previous .healthy)

def noteHeld (manager : Manager) (id : String) (counts : Option HeldCounts) : Manager :=
  match counts with
  | none => manager
  | some counts => { manager with commands := manager.commands.recordHeld id counts }

/-- The command that tells a datanode its operational state. -/
def stateCommand (status : NodeStatus) (now : Instant) : Command :=
  .issue .setOperationalState
    (.ofFields [("operationalState", status.operational), ("opStateExpiryEpochSec", status.expiry)]) now

/-- Whether a datanode reports the operational state and expiry that its status holds. -/
def reportsStatus (details : Details) (status : NodeStatus) : Bool :=
  details.operational.same status.operational && details.expiry.same status.expiry

/-- Settle a difference between the operational state that a datanode reports and the one that the registry
holds. -/
def settleState (manager : Manager) (details : Details) (now : Instant) : Manager :=
  let id := details.id
  match manager.registry.get? id with
  | none => manager
  | some record =>
    if reportsStatus details record.status then manager
    else
      match manager.authority with
      | .followReported =>
        let noted := manager.note (heartbeatNote .info
          "Adopting operational state reported by datanode" (some (.text id))
          (.ofFields [("previous", record.status.operational), ("reported", details.operational)]))
        { noted with
          registry := noted.registry.amend id
            (Registry.restated details.operational (Registry.expiryOrNever details.expiry) now) }
      | .enforce =>
        let noted := manager.note (heartbeatNote .info
          "Datanode operational state differs, sending the control plane state" (some (.text id))
          (.ofFields [("reported", details.operational), ("expected", record.status.operational)]))
        { noted with commands := noted.commands.add id (stateCommand record.status now) now }

/-- Take the reports of a heartbeat: the volumes, the layout and the commands held. -/
def takeReports (manager : Manager) (id : String) (details : Details) (report : HeartbeatReport)
    (now : Instant) : Except Failure Manager :=
  (manager.noteUsage id report.nodeReport now).map fun stocked ↦
    let queued := match report.layout with
      | none => stocked
      | some layout => stocked.queueFinalize id details layout now
    queued.noteHeld id report.heldCounts

def drainCommands (manager : Manager) (id : String) : Manager × List Command :=
  let (commands, drained) := manager.commands.drain id
  ({ manager with commands := commands }, drained)

def heartbeat (manager : Manager) (details : Details) (report : HeartbeatReport) (now : Instant) :
    Manager × Except Failure (List Command) :=
  let id := details.id
  match manager.registry.get? id with
  | none =>
    (manager.note (heartbeatNote .debug "Heartbeat from unregistered datanode, asking it to register"
      details.identity (.ofFields [("hostName", details.hostName)])),
      .ok [Command.reregister now])
  | some record =>
    let heard := manager.hear id record.status.health report.layout now
    match heard.takeReports id record.details report now with
    | .error failure => (heard, .error failure)
    | .ok reported =>
      let (drained, commands) := (reported.settleState details now).drainCommands id
      (drained, .ok commands)

/-! ## Sweeps -/

def healthFor (configuration : Configuration) (silence : Int) : Health :=
  if Configuration.isReached configuration.deadInterval silence then .dead
  else if Configuration.isReached configuration.staleInterval silence then .stale
  else .healthy

/-- Let the health of a datanode become dead: its waiting commands are dropped. -/
def declareDead (manager : Manager) (id : String) (silence : Int) : Manager :=
  let (purged, dropped) := manager.purgeCommands id
  purged.note (heartbeatNote .warn "Datanode is dead" (some (.text id))
    [("elapsedMs", .ofInt silence), ("droppedCommands", .ofNat dropped)])

def declareStale (manager : Manager) (id : String) (silence : Int) : Manager :=
  manager.note (heartbeatNote .info "Datanode is stale" (some (.text id))
    [("elapsedMs", .ofInt silence)])

def sweepOne (now : Instant) (state : Manager × SweepResult) (record : NodeRecord) :
    Manager × SweepResult :=
  let (manager, result) := state
  let id := record.id
  let silence := now - record.lastHeartbeat
  let target := healthFor manager.configuration silence
  let current := record.status.health
  let seen := { result with checked := result.checked + 1 }
  if target = .healthy ∨ target = current then (manager, seen)
  else
    let classified : Manager :=
      { manager with registry := manager.registry.amend id (Registry.classified target now) }
    if target = .dead then
      ((classified.declareDead id silence).publish (.healthChanged id current target),
        { seen with dead := seen.dead ++ [id] })
    else
      ((classified.declareStale id silence).publish (.healthChanged id current target),
        { seen with stale := seen.stale ++ [id] })

def sweep (manager : Manager) (now : Instant) : Manager × SweepResult :=
  manager.registry.records.values.foldl (sweepOne now) (manager, {})

/-- Look at every datanode, and log when the health of one has changed. -/
def checkHeartbeats (manager : Manager) (now : Instant) : Manager × SweepResult :=
  let (swept, result) := manager.sweep now
  if result.stale.isEmpty && result.dead.isEmpty then (swept, result)
  else
    (swept.note
      { component, level := .debug, message := "Heartbeat check complete"
        context := [("checked", .ofNat result.checked), ("stale", .ofNat result.stale.length),
          ("dead", .ofNat result.dead.length)] },
      result)

end Manager

end ClusterMembership
