import ClusterMembership.Overlap.Scheduler
import ClusterMembership.Service.Startup

/-!
# Sessions

A session is a service in use: operations are submitted to it and may overlap, time passes, commands come in over
the bus for each attachment of the service, and tables are switched, made to fail or held back.
-/

namespace ClusterMembership

/-- A service in use.  Attachments to the bus are numbered; the process, if there is one, has its own. -/
structure Session where
  scheduler : Scheduler
  process : Option MembershipMode := none
  attachments : List Nat := []
  made : Nat := 0
  /-- The attachment made last, apart from that of the process. -/
  latest : Option Nat := none

namespace Session

def world (session : Session) : World := session.scheduler.overlap.world

def service (session : Session) : Service := session.world.service

def manager (session : Session) : Manager := session.world.manager

def withScheduler (session : Session) (scheduler : Scheduler) : Session :=
  { session with scheduler := scheduler }

def mapWorld (session : Session) (change : World → World) : Session :=
  session.withScheduler
    { session.scheduler with overlap := session.scheduler.overlap.withWorld (change session.world) }

def mapService (session : Session) (change : Service → Service) : Session :=
  session.mapWorld fun world ↦ { world with service := change world.service }

def mapManager (session : Session) (change : Manager → Manager) : Session :=
  session.mapWorld fun world ↦ world.mapManager change

def ofWorld (world : World) : Session := { scheduler := { overlap := { world } } }

/-- A session with a membership process, which has attached its service to the bus. -/
def ofProcess (process : StartedProcess) : Session :=
  { ofWorld process.world with process := some process.mode, attachments := [0], made := 1 }

/-! ## The bus -/

def attach (session : Session) : Session :=
  { session with
    attachments := session.attachments ++ [session.made]
    made := session.made + 1
    latest := some session.made }

def detach (session : Session) : Session :=
  match session.latest with
  | none => session
  | some attachment => { session with attachments := session.attachments.erase attachment }

/-- Publish a command for a datanode on the bus: each attachment takes it. -/
def publishCommand (session : Session) (id : String) (command : Command) : Session :=
  session.attachments.foldl
    (fun session _ ↦ session.mapService fun service ↦ service.onCommand id command) session

def stop (session : Session) : Session :=
  match session.process with
  | none => session
  | some mode =>
    { session with attachments := session.attachments.erase 0 }.mapWorld fun world ↦ world.shutDown mode

/-! ## Tables -/

def table? (session : Session) : Option Table :=
  session.manager.table.bind fun number ↦ session.world.tables[number]?

def addFault (session : Session) (fault : Fault) : Session :=
  match session.manager.table with
  | none => session
  | some number =>
    session.mapWorld fun world ↦
      { world with
        tables := world.tables.modify number fun table ↦
          { table with faults := table.faults ++ [fault] } }

/-- Switch to a new table, or to none, and load it. -/
def reinitialize (session : Session) (table : Option Table) : Session × Nat :=
  let number := session.world.tables.length
  let switched := session.mapWorld fun world ↦
    ({ world with tables := world.tables ++ table.toList } : World).switchTable (table.map fun _ ↦ number)
  let (scheduler, task) := ({ switched.scheduler with armed := [] } : Scheduler).submitLoad
  (switched.withScheduler scheduler, task)

/-! ## Time -/

def advance (session : Session) (milliseconds : Int) : Session :=
  session.mapManager fun manager ↦ manager.advance milliseconds

def clearTrace (session : Session) : Session :=
  session.mapManager fun manager ↦ { manager with trace := {} }

end Session

end ClusterMembership
