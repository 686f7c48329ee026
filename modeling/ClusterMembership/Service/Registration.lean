import ClusterMembership.Node.Validation
import ClusterMembership.Service.Progress

/-!
# Registration

Details are admitted when validation finds no flaw; they are then brought into their kept form.  A registration
notes the descriptive attributes, places the datanode in the topology and in the registry, and writes the
registry's details to the node table.  A refusal by the topology is an answer, not a failure.  When the
write fails under strict durability, everything that was placed is undone.
-/

namespace ClusterMembership

/-- A registration whose details were admitted. -/
structure RegistrationRequest where
  details : Details
  nodeReport : Option NodeReport := none
  pipelineReport : Field := none
  layout : Option LayoutReport := none
  persist : Bool := true
  deriving DecidableEq

/-- What a registration keeps once the datanode is placed. -/
structure PlacedRegistration where
  request : RegistrationRequest
  /-- The record before the registration. -/
  previous : Option NodeRecord
  /-- The descriptor before the registration. -/
  previousDescriptor : Option Descriptor
  layout : LayoutReport
  now : Instant
  /-- The details as the registry holds them. -/
  stored : Details
  deriving DecidableEq

namespace Manager

def registrationComponent : String := "registration-coordinator"

def registrationNote (level : LogLevel) (message : String) (identity : Field)
    (context : Members := []) (error : Option Failure := none) : Note :=
  Note.about { component := registrationComponent, level, message, context, error } identity

/-! ## Admission -/

/-- Admit details for registration: refuse flawed ones, and bring the others into their kept form. -/
def screen (manager : Manager) (offered : Field) : Manager × Except Failure Details :=
  match Validation.check offered with
  | .error failure => (manager, .error failure)
  | .ok [] => (manager, (Details.ofField offered).bind Details.normalize)
  | .ok flaws =>
    match Details.ofField offered with
    | .error failure => (manager, .error failure)
    | .ok details =>
      (manager.note (registrationNote .warn "Datanode registration validation failed" details.identity
        [("errorCount", .ofNat flaws.length)]),
        .error (.service (.fieldsWrong (flaws.map Flaw.problem))))

/-! ## Durable writes -/

/-- Deal with the answer to a durable write under the durability policy: a failure is raised or remembered. -/
def settleWrite (manager : Manager) (id : String) (answer : TableAnswer) :
    Manager × Except Failure Unit :=
  match answer with
  | .ok _ => (manager.markSynced id, .ok ())
  | .error cause =>
    let failure := Failure.service (cause.wrapPersistence "put" (some id))
    let identity : Field := some (.text id)
    if manager.configuration.isStrict then
      (manager.note (registrationNote .error "Failed to persist datanode details" identity []
        (some failure)), .error failure)
    else
      ((manager.note (registrationNote .error
        "Failed to persist datanode details, continuing in memory" identity [] (some failure))).markUnsynced
          id, .ok ())

/-! ## Placement -/

/-- Put a datanode into the topology and the registry, or say why the topology refuses it. -/
def place (manager : Manager) (details : Details) (layout : LayoutReport) (now : Instant) :
    Manager × Option Refusal :=
  let id := details.id
  if manager.registry.contains id then
    match manager.topology.update id details.location with
    | (topology, some refusal) => ({ manager with topology := topology }, some refusal)
    | (topology, none) =>
      ({ manager with
          topology := topology
          registry := (manager.registry.amend id (Registry.detailed details now)).amend id
            (Registry.heard (some layout) now) },
        none)
  else
    match manager.topology.add id details.location with
    | .error refusal => (manager, some refusal)
    | .ok topology =>
      ({ manager with
          topology := topology
          registry := manager.registry.upsert (NodeRecord.registered details layout now) },
        none)

def undoPlacement (manager : Manager) (placed : PlacedRegistration) : Manager :=
  let id := placed.request.details.id
  let known := manager.known.restore id placed.previousDescriptor
  match placed.previous with
  | none =>
    { manager with
      known := known
      registry := manager.registry.erase id
      topology := manager.topology.remove id }
  | some previous =>
    let location := previous.details.location
    let (topology, refusal) := manager.topology.update id location
    let undone : Manager :=
      { manager with
        known := known
        registry := manager.registry.upsert previous
        topology := topology }
    match refusal with
    | none => undone
    | some refusal =>
      undone.note (registrationNote .error "Unable to restore datanode placement after a failed write"
        (some (.text id)) (.ofFields [("networkLocation", previous.details.networkLocation)])
        (some (.service (refusal.error id location))))

/-! ## Running a registration -/

def refuse (manager : Manager) (details : Details) (refusal : Refusal) : Manager × Acknowledgement :=
  let noted := manager.note
    (registrationNote .error "Datanode placement rejected by network topology" details.identity
      (.ofFields [("networkLocation", details.networkLocation)])
      (some (.service (refusal.error details.id (Topology.meant details.location)))))
  let cluster := (noted.cluster.setHealthy false).addError ClusterContext.invalidTopology
  ({ noted with cluster := cluster }, ⟨false, details, cluster.id⟩)

def noteUsage (manager : Manager) (id : String) (report : Option NodeReport) (now : Instant) :
    Except Failure Manager :=
  match report with
  | none => .ok manager
  | some report =>
    report.usage.map fun usage ↦
      { manager with registry := manager.registry.amend id (Registry.stocked usage now) }

def queueFinalize (manager : Manager) (id : String) (details : Details) (reported : LayoutReport)
    (now : Instant) : Manager :=
  let noted := manager.noteAll (manager.layout.checkNotes details reported)
  match manager.layout.commandFor reported now with
  | none => noted
  | some command => { noted with commands := noted.commands.add id command now }

/-- Announce a registration: the reports that came with it, then the datanode itself. -/
def announce (manager : Manager) (placed : PlacedRegistration) : Manager :=
  let details := placed.request.details
  let id := details.id
  let reported := match placed.request.pipelineReport with
    | some report => if report.isTruthy then manager.publish (.pipelineReport id report) else manager
    | none => manager
  let published := reported.publish (.registered id placed.stored placed.previous.isNone)
  let message := if placed.previous.isSome then "Datanode re-registered" else "Datanode registered"
  published.note (registrationNote .info message details.identity
    (.ofFields [("hostName", details.hostName), ("networkLocation", details.networkLocation)]))

/-- Complete the registration of a datanode that is placed and written. -/
def completeRegistration (manager : Manager) (placed : PlacedRegistration) :
    Manager × Except Failure Acknowledgement :=
  let details := placed.request.details
  match manager.noteUsage details.id placed.request.nodeReport placed.now with
  | .error failure => (manager, .error failure)
  | .ok stocked =>
    let queued := stocked.queueFinalize details.id placed.stored placed.layout placed.now
    let cluster := (queued.cluster.setHealthy true).removeError ClusterContext.invalidTopology
    let settled : Manager := { queued with cluster := cluster }
    (settled.announce placed, .ok ⟨true, details, cluster.id⟩)

def acknowledge (result : Manager × Except Failure Acknowledgement) : Manager × Outcome :=
  (result.1, result.2.map Reply.acknowledged)

/-- Start a registration under the lock of its datanode. -/
def beginRegistration (manager : Manager) (request : RegistrationRequest) :
    Manager × Progress PlacedRegistration :=
  let details := request.details
  let id := details.id
  let now := manager.clock
  let previous := manager.registry.get? id
  let previousDescriptor := manager.known.peek id
  let layout := request.layout.getD manager.layout.report
  let known : Manager := { manager with known := manager.known.record details }
  match known.place details layout now with
  | (refused, some refusal) =>
    let (settled, acknowledgement) := refused.refuse details refusal
    (settled, .ended (.ok (.acknowledged acknowledgement)))
  | (inPlace, none) =>
    let stored := ((inPlace.registry.get? id).map NodeRecord.details).getD details
    let placed : PlacedRegistration := ⟨request, previous, previousDescriptor, layout, now, stored⟩
    match if request.persist then inPlace.table else none with
    | some table => (inPlace, .asking table (.put id stored) placed)
    | none =>
      let (settled, outcome) := acknowledge (inPlace.completeRegistration placed)
      (settled, .ended outcome)

def finishRegistration (manager : Manager) (placed : PlacedRegistration) (answer : TableAnswer) :
    Manager × Outcome :=
  match manager.settleWrite placed.request.details.id answer with
  | (written, .ok ()) => acknowledge (written.completeRegistration placed)
  | (failed, .error failure) => (failed.undoPlacement placed, .error failure)

end Manager

end ClusterMembership
