import ClusterMembership.Service.Observer

/-!
# A service and its node tables

A world is a service together with the node tables that it may use, by number.  Here operations run one at a
time: each is started, has its request answered by the table and is finished before the next one.
-/

namespace ClusterMembership

/-- A service and its node tables. -/
structure World where
  service : Service
  tables : List Table
  deriving DecidableEq

/-- A request for an operation on a datanode, as it comes in. -/
inductive OperationRequest where
  | register (details : Field) (nodeReport : Option NodeReport) (pipelineReport : Field)
      (layout : Option LayoutReport)
  | heartbeat (details : Field) (report : HeartbeatReport)
  | remove (id : String)
  | setState (id : String) (state expiry : Field)
  | reconcile (id : String) (state expiry : Field)
  deriving DecidableEq

namespace World

def manager (world : World) : Manager := world.service.manager

def withManager (world : World) (manager : Manager) : World :=
  { world with service := world.service.withManager manager }

def mapManager (world : World) (change : Manager → Manager) : World :=
  world.withManager (change world.manager)

def clock (world : World) : Instant := world.manager.clock

def setClock (world : World) (now : Instant) : World :=
  world.mapManager fun manager ↦ { manager with clock := now }

/-! ## Tables -/

def pageNote (page : PageNote) : Note :=
  { component := "supabase-node-table", level := .debug, message := "Fetched node table page"
    context := [("table", .text page.table), ("rows", .ofNat page.rows), ("offset", .ofNat page.offset)] }

def ask (world : World) (number : Nat) (request : TableRequest) : World × TableAnswer :=
  match world.tables[number]? with
  | none => (world, .ok none)
  | some table =>
    let (table, page, answer) := table.perform world.clock request
    let asked : World := { world with tables := world.tables.set number table }
    (asked.mapManager fun manager ↦ manager.noteAll (page.map pageNote).toList, answer)

def iterate (world : World) (number : Nat) : World × Except Failure Nat :=
  match world.tables[number]? with
  | none => (world, .ok 0)
  | some table =>
    let (table, opened) := table.iterate
    ({ world with tables := world.tables.set number table }, opened)

/-! ## Operations -/

def start (world : World) (operation : Operation) : World × Progress Remainder :=
  let (service, progress) := world.service.start operation
  ({ world with service := service }, progress)

def finish (world : World) (remainder : Remainder) (answer : TableAnswer) : World × Outcome :=
  let (service, outcome) := world.service.finish remainder answer
  ({ world with service := service }, outcome)

/-- Run an operation from its start to its end. -/
def run (world : World) (operation : Operation) : World × Outcome :=
  match world.start operation with
  | (ended, .ended outcome) => (ended, outcome)
  | (waiting, .asking table request remainder) =>
    let (asked, answer) := waiting.ask table request
    asked.finish remainder answer

/-- Turn a request into an operation, before any lock is taken. -/
def prepare (world : World) (request : OperationRequest) : World × Except Failure Operation :=
  match request with
  | .register details nodeReport pipelineReport layout =>
    let (manager, admitted) := world.manager.screen details
    (world.withManager manager, admitted.map fun details ↦
      .register { details, nodeReport, pipelineReport, layout })
  | .heartbeat details report =>
    (world, (Details.ofField details).map fun details ↦ .heartbeat details report world.clock)
  | .remove id => (world, .ok (.remove id))
  | .setState id state expiry => (world, .ok (.setState id state expiry))
  | .reconcile id state expiry => (world, .ok (.reconcile id state expiry))

/-- Serve a request while nothing else goes on. -/
def serve (world : World) (request : OperationRequest) : World × Outcome :=
  match world.prepare request with
  | (refused, .error failure) => (refused, .error failure)
  | (ready, .ok operation) => ready.run operation

end World

end ClusterMembership
