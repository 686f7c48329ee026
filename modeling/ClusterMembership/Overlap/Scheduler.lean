import ClusterMembership.Lock.Turn
import ClusterMembership.Overlap.Task

/-!
# The order of steps

Tasks that can go on take turns in a line.  A task that has just been let in, or whose request has just been
answered, lets a number of turns pass before its next step, so that what it waited for has settled.  Calls of
the table can be held back: an armed method catches its next call, which stays where it is until it is
released.  `Scheduler.settle` lets turns pass until no task can go on.
-/

namespace ClusterMembership

/-- Tasks under way, the line of those that can go on, the methods that catch their next call, and the tasks
whose calls were caught, the longest first. -/
structure Scheduler where
  overlap : Overlap
  ready : List Turn := []
  armed : List TableMethod := []
  caught : List Nat := []

namespace Scheduler

/-- The number of turns that pass before a task that stands at some work makes its next step. -/
def patience : Work → Nat
  | .granted _ => 1
  | .answered _ (.operation _ (.removal _)) => 1
  | .answered _ (.operation _ _) => 2
  | .answered _ _ => 1
  | .asking _ _ _ => 1
  | .leaving _ _ => 2
  | .resuming _ => 2
  | .waiting _ | .keeping _ | .settled _ => 0

def enqueue (scheduler : Scheduler) (task wait : Nat) : Scheduler :=
  { scheduler with ready := scheduler.ready ++ [⟨task, wait⟩] }

/-- Put a task in the line according to its work. -/
def schedule (scheduler : Scheduler) (task : Nat) : Scheduler :=
  match scheduler.overlap.work? task with
  | none | some (.waiting _) | some (.keeping _) | some (.settled _) => scheduler
  | some work => scheduler.enqueue task (patience work)

def step (scheduler : Scheduler) (task : Nat) : Scheduler :=
  { scheduler with overlap := scheduler.overlap.advance task }

/-- Let the request of a task be taken up, unless its method is armed. -/
def offerRequest (scheduler : Scheduler) (task : Nat) : Scheduler :=
  match scheduler.overlap.work? task with
  | some (.asking _ request _) =>
    if scheduler.armed.contains request.method then
      { scheduler with
        armed := scheduler.armed.erase request.method
        caught := scheduler.caught ++ [task] }
    else (scheduler.step task).schedule task
  | _ => scheduler.schedule task

/-- Let a task that is due make its step.  A lock that it leaves passes to the next in line, who is put before
it; a request that it makes is taken up at once. -/
def takeTurn (scheduler : Scheduler) (task : Nat) : Scheduler :=
  match scheduler.overlap.work? task with
  | some (.leaving id _) =>
    let left := scheduler.step task
    let passed := match left.overlap.locks.holder? id with
      | some next => left.enqueue next Turn.handover
      | none => left
    passed.schedule task
  | some (.asking _ _ _) => (scheduler.step task).schedule task
  | _ => (scheduler.step task).offerRequest task

def settleWithin : Nat → Scheduler → Scheduler
  | 0, scheduler => scheduler
  | bound + 1, scheduler =>
    match scheduler.ready with
    | [] => scheduler
    | turn :: rest =>
      let waiting : Scheduler := { scheduler with ready := rest }
      if turn.isDue then settleWithin bound (waiting.takeTurn turn.task)
      else settleWithin bound { waiting with ready := rest ++ [turn.passed] }

/-- A bound on the number of entries that tasks may still read. -/
def entriesLeft (scheduler : Scheduler) : Nat :=
  scheduler.overlap.world.tables.foldl (fun total table ↦ total + table.allEntriesLeft) 0

/-- A bound on the number of turns until no task can go on. -/
def turnsLeft (scheduler : Scheduler) : Nat :=
  let tasks := scheduler.overlap.tasks.length + 1
  16 * (tasks + tasks * (scheduler.entriesLeft + tasks))

def settle (scheduler : Scheduler) : Scheduler := settleWithin scheduler.turnsLeft scheduler

/-! ## Submitting -/

/-- Whether a task has not ended. -/
def isUnderWay (task : Task) : Bool := task.outcome?.isNone

/-- Whether nothing is under way and no call is to be caught. -/
def isIdle (scheduler : Scheduler) : Bool :=
  scheduler.armed.isEmpty && !scheduler.overlap.tasks.any isUnderWay

def outcome? (scheduler : Scheduler) (task : Nat) : Option Outcome :=
  (scheduler.overlap.tasks[task]?).bind Task.outcome?

/-- Take in a new task and let turns pass. -/
def takeIn (scheduler : Scheduler) (submitted : Overlap × Nat) : Scheduler × Nat :=
  let taken : Scheduler := { scheduler with overlap := submitted.1 }
  ((taken.offerRequest submitted.2).settle, submitted.2)

/-- A task that was run to its end while nothing else went on. -/
def record (scheduler : Scheduler) (ended : World × Outcome) : Scheduler × Nat :=
  let (overlap, task) := (scheduler.overlap.withWorld ended.1).addTask (.settled ended.2)
  ({ scheduler with overlap := overlap }, task)

def submit (scheduler : Scheduler) (request : OperationRequest) : Scheduler × Nat :=
  if scheduler.isIdle then scheduler.record (scheduler.overlap.world.serve request)
  else scheduler.takeIn (scheduler.overlap.submit request)

def submitLoad (scheduler : Scheduler) : Scheduler × Nat :=
  if scheduler.isIdle then scheduler.record scheduler.overlap.world.load
  else scheduler.takeIn scheduler.overlap.submitLoad

def submitCount (scheduler : Scheduler) : Scheduler × Nat :=
  if scheduler.isIdle then scheduler.record scheduler.overlap.world.countPersisted
  else scheduler.takeIn scheduler.overlap.submitCount

/-- Take a lock and keep it. -/
def submitKeep (scheduler : Scheduler) (id : String) : Scheduler × Nat :=
  scheduler.takeIn (scheduler.overlap.addClaim (.keep id none))

/-- Let a task that keeps a lock let go of it; one that is not yet first in line will not keep it. -/
def letGo (scheduler : Scheduler) (task : Nat) (outcome : Outcome) : Scheduler :=
  let told : Scheduler := { scheduler with overlap := scheduler.overlap.letGo task outcome }
  match told.overlap.work? task with
  | some (.leaving _ _) => (told.schedule task).settle
  | _ => told

/-! ## Holding calls back -/

def arm (scheduler : Scheduler) (method : TableMethod) : Scheduler :=
  { scheduler with armed := scheduler.armed ++ [method] }

/-- Release the call that was caught first; hand back whether there was one. -/
def release (scheduler : Scheduler) : Scheduler × Bool :=
  match scheduler.caught with
  | [] => (scheduler, false)
  | task :: rest => ((({ scheduler with caught := rest } : Scheduler).schedule task).settle, true)

end Scheduler

end ClusterMembership
