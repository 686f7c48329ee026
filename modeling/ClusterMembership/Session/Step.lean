import ClusterMembership.Session.Summary

/-!
# Steps of a session

A session goes on by steps: a query, an action that ends at once, or a request that may have to wait for a
lock or for the node table.  A request becomes a task, whose outcome is known once it has ended.  A history of
a session is a list of steps, and `Session.after` is where it leads.
-/

namespace ClusterMembership

/-- A question that changes nothing. -/
inductive Query where
  | status (id : String)
  | isRegistered (id : String)
  | lastHeartbeat (id : String)
  | version
  | cluster
  | isMonitoring
  | record (id : String)
  | storage (id : String)
  | descriptor (id : String)
  | pending (id kind : String)
  | count (filter : NodeFilter)
  | byAddress (address : String)
  | listing (filter : NodeFilter)
  | unsynced
  | topology (scope : String)
  | summary
  | stored

inductive Action where
  | take (id : String) (command : Command)
  | publish (id : String) (command : Command)
  | queue (id : String) (command : Command)
  | purge (id : String)
  | refreshUsage
  /-- Sweep as of a time, by default the present. -/
  | sweep (moment : Option Instant)
  | attach
  | detach
  | startMonitoring
  | stopMonitoring
  | dispose
  | stop
  | finalizeLayout
  | advance (milliseconds : Int)
  | setClock (now : Instant)
  | spoil (fault : Fault)
  | hold (method : TableMethod)
  | release

/-- A request that may have to wait. -/
inductive Errand where
  | operate (request : OperationRequest)
  | load
  | count
  | switch (table : Option Table)
  | keep (id : String)

inductive Step where
  | ask (query : Query)
  | act (action : Action)
  | submit (errand : Errand)
  /-- Tell a task that keeps a lock to let go of it. -/
  | letGo (task : Nat) (outcome : Outcome)

/-- What a step answers: a value, a failure, or the number of a task. -/
inductive Answer where
  | given (value : Except Failure Value)
  | task (number : Nat)

namespace ClusterContext

def toValue (cluster : ClusterContext) : Value :=
  .object [("id", .text cluster.id), ("healthy", .bool cluster.healthy),
    ("errors", .texts cluster.sortedErrors)]

end ClusterContext

namespace Topology

/-- The shape of the topology, with the datanodes below a location, as an object. -/
def shape (topology : Topology) (scope : String) : Value :=
  .object [("depth", .ofNat topology.depth), ("size", .ofNat topology.size),
    ("leaves", .texts (topology.leavesIn scope))]

end Topology

namespace Session

def ask (session : Session) : Query → Except Failure Value
  | .status id => (session.manager.status id).map NodeStatus.toValue
  | .isRegistered id => .ok (.bool (session.manager.registry.contains id))
  | .lastHeartbeat id => .ok (.ofInt (session.service.lastHeartbeat id))
  | .version => .ok session.service.versionResponse
  | .cluster => .ok session.manager.cluster.toValue
  | .isMonitoring => .ok (.bool session.manager.isMonitoring)
  | .record id => .ok (((session.manager.registry.get? id).map NodeRecord.toValue).getD .null)
  | .storage id => (session.manager.storage id).map StorageUsage.toValue
  | .descriptor id =>
    let descriptor := (session.manager.known.get id).toValue
    .ok (.ofFields (("descriptor", some descriptor) ::
      ["hostName", "version", "setupTime", "revision"].map fun name ↦ (name, descriptor.member name)))
  | .pending id kind => .ok (.number (session.manager.commands.pendingOf id kind))
  | .count filter => .ok (.ofNat (session.manager.registry.count filter))
  | .byAddress address =>
    .ok (.list ((session.manager.nodesByAddress address).map fun identity ↦ identity.getD .null))
  | .listing filter => .ok (.list ((session.manager.listNodes filter).map ListItem.toValue))
  | .unsynced => .ok (.texts session.manager.unsyncedIds)
  | .topology scope => .ok (session.manager.topology.shape scope)
  | .summary => .ok session.service.summary
  | .stored => .ok ((session.table?.map Table.rowsValue).getD .null)

/-- A session after a change that answers nothing. -/
def silently (session : Session) : Session × Except Failure Value := (session, .ok .null)

def act (session : Session) (action : Action) : Session × Except Failure Value :=
  match action with
  | .take id command => (session.mapService fun service ↦ service.onCommand id command).silently
  | .publish id command => (session.publishCommand id command).silently
  | .queue id command =>
    match session.manager.addCommand id command with
    | .ok manager => (session.mapManager fun _ ↦ manager).silently
    | .error failure => (session, .error failure)
  | .purge id =>
    let (manager, dropped) := session.manager.purgeCommands id
    (session.mapManager fun _ ↦ manager, .ok (.ofNat dropped))
  | .refreshUsage =>
    let (service, asked) := session.service.refreshUsage
    (session.mapService fun _ ↦ service, .ok (.ofNat asked))
  | .sweep moment =>
    let (manager, swept) := session.manager.checkHeartbeats (moment.getD session.manager.clock)
    (session.mapManager fun _ ↦ manager, .ok swept.toValue)
  | .attach => session.attach.silently
  | .detach => session.detach.silently
  | .startMonitoring => (session.mapManager Manager.startMonitoring).silently
  | .stopMonitoring => (session.mapManager Manager.stopMonitoring).silently
  | .dispose => (session.mapService Service.dispose).silently
  | .stop => session.stop.silently
  | .finalizeLayout =>
    let finalized := session.mapManager Manager.finalizeLayout
    (finalized, .ok finalized.manager.layout.report.toValue)
  | .advance milliseconds =>
    let advanced := session.advance milliseconds
    (advanced, .ok (.ofInt advanced.manager.clock))
  | .setClock now => (session.mapWorld fun world ↦ world.setClock now).silently
  | .spoil fault => (session.addFault fault).silently
  | .hold method => (session.withScheduler (session.scheduler.arm method)).silently
  | .release =>
    let (scheduler, released) := session.scheduler.release
    (session.withScheduler scheduler, .ok (.bool released))

/-- Submit an errand; hand back the number of its task. -/
def submit (session : Session) (errand : Errand) : Session × Nat :=
  let taken (submitted : Scheduler × Nat) : Session × Nat :=
    (session.withScheduler submitted.1, submitted.2)
  match errand with
  | .operate request => taken (session.scheduler.submit request)
  | .load => taken session.scheduler.submitLoad
  | .count => taken session.scheduler.submitCount
  | .switch table => session.reinitialize table
  | .keep id => taken (session.scheduler.submitKeep id)

def step (session : Session) : Step → Session × Answer
  | .ask query => (session, .given (session.ask query))
  | .act action =>
    let (changed, answer) := session.act action
    (changed, .given answer)
  | .submit errand =>
    let (taken, task) := session.submit errand
    (taken, .task task)
  | .letGo task outcome =>
    (session.withScheduler (session.scheduler.letGo task outcome), .given (.ok .null))

/-- The tasks that have not ended, in the order in which they were submitted. -/
def underWay (session : Session) : List Nat :=
  session.scheduler.overlap.tasks.zipIdx.filterMap fun (task, number) ↦
    if task.outcome?.isNone then some number else none

/-- Where a history leads. -/
def after (session : Session) (history : List Step) : Session :=
  history.foldl (fun session step ↦ (session.step step).1) session

def outcome? (session : Session) (task : Nat) : Option Outcome := session.scheduler.outcome? task

/-- The requests that databases have received since an earlier state of the session. -/
def receivedSince (session earlier : Session) : List DatabaseRequest :=
  session.world.tables.zipIdx.flatMap fun (table, number) ↦
    table.requests.drop (((earlier.world.tables[number]?).map Table.requests).getD []).length

end Session

/-- What happens in a step: its answer, the earlier tasks that end in it, the trace that it leaves and the
requests that databases receive. -/
structure Happening where
  answer : Answer
  ended : List (Nat × Outcome)
  trace : Trace
  received : List DatabaseRequest

namespace Session

/-- Make a step and tell what happens; the trace is taken out of the session. -/
def observe (session : Session) (step : Step) : Session × Happening :=
  let (changed, answer) := session.step step
  (changed.clearTrace,
    { answer
      ended := session.underWay.filterMap fun task ↦
        (changed.outcome? task).map fun outcome ↦ (task, outcome)
      trace := changed.manager.trace
      received := changed.receivedSince session })

end Session

end ClusterMembership
