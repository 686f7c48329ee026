import ClusterMembership.Service.Administration
import ClusterMembership.Service.Heartbeat
import ClusterMembership.Store.HeartbeatTracker

/-!
# Primary and observer

A primary service is a manager alone.  An observer adds when it last saw each datanode: one that has been silent
for too long, or was never seen, is told to register again and nothing else.  An observer takes over the
operational states that it hears of, and the only command it lets through is the one to register again.
-/

namespace ClusterMembership

/-- What an observer keeps beside its manager. -/
structure Observer where
  /-- The silence after which a datanode is told to register again. -/
  threshold : Number
  /-- Whether the waiting commands of such a datanode are dropped. -/
  discards : Bool
  tracker : HeartbeatTracker := .empty
  deriving DecidableEq, Inhabited

/-- A service: a manager, and what an observer adds to it. -/
structure Service where
  manager : Manager
  observer : Option Observer
  deriving DecidableEq, Inhabited

/-- An operation on a datanode that runs under the datanode's lock. -/
inductive Operation where
  | register (request : RegistrationRequest)
  | heartbeat (details : Details) (report : HeartbeatReport) (issuedAt : Instant)
  | remove (id : String)
  | setState (id : String) (state expiry : Field)
  | reconcile (id : String) (state expiry : Field)
  deriving DecidableEq

def Operation.datanode : Operation → String
  | .register request => request.details.id
  | .heartbeat details _ _ => details.id
  | .remove id | .setState id _ _ | .reconcile id _ _ => id

/-- What an operation keeps while it waits for the table. -/
inductive Remainder where
  | registration (placed : PlacedRegistration)
  | removal (id : String)
  | stateChange (id : String) (reply : Reply)
  deriving DecidableEq

namespace Progress

def mapKept {α β : Type} (change : α → β) : Progress α → Progress β
  | ended outcome => ended outcome
  | asking table request kept => asking table request (change kept)

end Progress

namespace Observer

def component : String := "observer-node-manager"

def allowedKinds : List CommandKind := [.reregister]

def allows (command : Command) : Bool := allowedKinds.contains command.kind

def create (configuration : Configuration) : Observer where
  threshold := configuration.outdatedThreshold
  discards := configuration.discardsPending

def see (observer : Observer) (id : String) (now : Instant) : Observer :=
  { observer with tracker := observer.tracker.record id now }

def forget (observer : Observer) (id : String) : Observer :=
  { observer with tracker := observer.tracker.erase id }

end Observer

namespace Service

def withManager (service : Service) (manager : Manager) : Service := { service with manager := manager }

def mapManager (service : Service) (change : Manager → Manager) : Service :=
  service.withManager (change service.manager)

def lastHeartbeat (service : Service) (id : String) : Instant :=
  match service.observer with
  | none => service.manager.lastHeartbeat id
  | some observer => observer.tracker.get id

/-- The answer to a request for versions; an observer speaks version zero. -/
def versionResponse (service : Service) : Value :=
  match service.observer with
  | none => service.manager.versionResponse Manager.protocolVersion
  | some _ => service.manager.versionResponse 0

/-- Take a command that came in for a datanode; an observer ignores those it does not send. -/
def onCommand (service : Service) (id : String) (command : Command) : Service :=
  if service.observer.isSome && !Observer.allows command then
    service.mapManager fun manager ↦ manager.note
      { component := Observer.component, level := .debug
        message := "Ignoring command the observer does not send"
        context := [("datanodeId", .text id), ("commandType", .text command.kind.name)] }
  else service.mapManager fun manager ↦ manager.onCommand id command

/-- Ask the healthy datanodes in service to refresh their volume usage; an observer never does. -/
def refreshUsage (service : Service) : Service × Nat :=
  match service.observer with
  | some _ => (service, 0)
  | none =>
    let (manager, asked) := service.manager.refreshUsage
    (service.withManager manager, asked)

/-! ## Heartbeats -/

def primaryHeartbeat (service : Service) (details : Details) (report : HeartbeatReport) (now : Instant) :
    Service × Except Failure (List Command) :=
  let (manager, outcome) := service.manager.heartbeat details report now
  (service.withManager manager, outcome)

/-- Tell an outdated datanode to register again; what waits for it is dropped under that policy. -/
def refuseOutdated (manager : Manager) (observer : Observer) (details : Details) (silence : Int) :
    Manager :=
  let (purged, discarded) := if observer.discards then manager.purgeCommands details.id else (manager, 0)
  purged.note
    { component := Observer.component, level := .info
      message := "Datanode heartbeat is outdated, asking it to re-register"
      context := .ofFields
        [("datanodeId", details.identity), ("elapsedMs", some (.ofInt silence)),
          ("thresholdMs", some (.number observer.threshold)),
          ("discardedCommands", some (.ofNat discarded))] }

def observedHeartbeat (service : Service) (observer : Observer) (details : Details)
    (report : HeartbeatReport) : Service × Except Failure (List Command) :=
  let now := service.manager.clock
  let silence := now - observer.tracker.get details.id
  let seeing : Service := { service with observer := some (observer.see details.id now) }
  if Configuration.isReached observer.threshold silence then
    (seeing.withManager (refuseOutdated service.manager observer details silence),
      .ok [Command.reregister now])
  else
    let (passed, outcome) := seeing.primaryHeartbeat details report now
    (passed, outcome.map (List.filter Observer.allows))

def heartbeat (service : Service) (details : Details) (report : HeartbeatReport) (issuedAt : Instant) :
    Service × Except Failure (List Command) :=
  match service.observer with
  | none => service.primaryHeartbeat details report issuedAt
  | some observer => service.observedHeartbeat observer details report

/-! ## Running an operation -/

/-- Start to bring the operational state of a datanode in line with the primary's.  The answer says whether
the state was another one. -/
def beginReconcile (manager : Manager) (id : String) (state expiry : Field) :
    Manager × Progress Reply :=
  match manager.status id with
  | .error failure => (manager, .ended (.error failure))
  | .ok status =>
    if status.operational.same state && status.expiry.same (Registry.expiryOrNever expiry) then
      (manager, .ended (.ok (.changed false)))
    else
      (manager.note
        { component := Observer.component, level := .info
          message := "Following operational state from the primary"
          context := .ofFields
            [("datanodeId", some (.text id)), ("previous", status.operational),
              ("current", state)] }).beginStateChange
        id state expiry (.changed true)

def started {α : Type} (service : Service) (keep : α → Remainder) (start : Manager × Progress α) :
    Service × Progress Remainder :=
  (service.withManager start.1, start.2.mapKept keep)

/-- Forget when a datanode was seen, once it is removed. -/
def afterRemoval (service : Service) (id : String) (outcome : Outcome) : Service :=
  match outcome with
  | .ok _ => { service with observer := service.observer.map fun observer ↦ observer.forget id }
  | .error _ => service

def start (service : Service) (operation : Operation) : Service × Progress Remainder :=
  match operation with
  | .register request =>
    service.started Remainder.registration (service.manager.beginRegistration request)
  | .heartbeat details report issuedAt =>
    let (heard, outcome) := service.heartbeat details report issuedAt
    (heard, .ended (outcome.map Reply.commands))
  | .remove id =>
    match service.started (fun _ ↦ Remainder.removal id) (service.manager.beginRemoval id) with
    | (removed, .ended outcome) => (removed.afterRemoval id outcome, .ended outcome)
    | (waiting, progress) => (waiting, progress)
  | .setState id state expiry =>
    service.started (Remainder.stateChange id) (service.manager.beginStateChange id state expiry .nothing)
  | .reconcile id state expiry =>
    service.started (Remainder.stateChange id) (beginReconcile service.manager id state expiry)

def finish (service : Service) (remainder : Remainder) (answer : TableAnswer) : Service × Outcome :=
  match remainder with
  | .registration placed =>
    let (manager, outcome) := service.manager.finishRegistration placed answer
    (service.withManager manager, outcome)
  | .removal id =>
    let (manager, outcome) := service.manager.finishRemoval id answer
    ((service.withManager manager).afterRemoval id outcome, outcome)
  | .stateChange id reply =>
    let (manager, outcome) := service.manager.finishStateChange id reply answer
    (service.withManager manager, outcome)

end Service

end ClusterMembership
