import ClusterMembership.Lock.Line
import ClusterMembership.Service.Loading

/-!
# Operations that overlap

Operations may be under way at the same time.  Each is a task, and `Overlap.advance` lets one task make one
step: start under the lock that it holds, have its request answered by the table, go on with the answer, or
leave the lock.  Any order of such steps is an interleaving; tasks of one datanode keep apart because only
the first in the line of the datanode's lock may start.

A load is a task that registers one stored datanode after another, each under the lock of that datanode.
-/

namespace ClusterMembership

/-- What a task wants a lock for. -/
inductive Claim where
  | operate (operation : Operation)
  /-- To keep it until it is told to let go, with the outcome if it has been told before. -/
  | keep (id : String) (told : Option Outcome)

def Claim.datanode : Claim → String
  | .operate operation => operation.datanode
  | .keep id _ => id

def Claim.tell (outcome : Outcome) : Claim → Claim
  | .keep id _ => .keep id (some outcome)
  | .operate operation => .operate operation

/-- What a task goes on with after the table has answered. -/
inductive Continuation where
  | operation (id : String) (remainder : Remainder)
  | nextEntry (loading : Loading)
  | closedAfterLoad (loaded : Nat)
  | countEntry (counting : Loading)
  | closedAfterCount (outcome : Outcome)

/-- A load whose entry is being registered. -/
structure SuspendedLoad where
  loading : Loading
  entry : String
  deriving DecidableEq

inductive Work where
  /-- In the line of a lock, behind others. -/
  | waiting (claim : Claim)
  /-- First in the line of a lock, about to start. -/
  | granted (claim : Claim)
  /-- With a request that the table has not taken up yet. -/
  | asking (table : Nat) (request : TableRequest) (continuation : Continuation)
  /-- With an answer of the table. -/
  | answered (answer : TableAnswer) (continuation : Continuation)
  /-- Holding a lock until it is told to let go. -/
  | keeping (id : String)
  /-- Done under a lock that it is about to leave. -/
  | leaving (id : String) (outcome : Outcome)
  /-- About to go on with a load whose entry was registered. -/
  | resuming (outcome : Outcome)
  | settled (outcome : Outcome)

/-- A task; `load` is the load that the task will go on with once its lock is left. -/
structure Task where
  load : Option SuspendedLoad := none
  work : Work

def Task.outcome? (task : Task) : Option Outcome :=
  match task.work with
  | .settled outcome => some outcome
  | _ => none

/-- A world in which tasks are under way. -/
structure Overlap where
  world : World
  locks : LockLines := .empty
  tasks : List Task := []

namespace Overlap

def work? (overlap : Overlap) (number : Nat) : Option Work :=
  (overlap.tasks[number]?).map Task.work

def setTask (overlap : Overlap) (number : Nat) (task : Task) : Overlap :=
  { overlap with tasks := overlap.tasks.set number task }

def withWorld (overlap : Overlap) (world : World) : Overlap := { overlap with world := world }

/-- Let a task join the line of the lock it claims; it is granted the lock when no one stands there. -/
def claim (overlap : Overlap) (number : Nat) (load : Option SuspendedLoad) (claim : Claim) : Overlap :=
  let work := if overlap.locks.isLocked claim.datanode then .waiting claim else .granted claim
  { overlap.setTask number { load, work } with
    locks := overlap.locks.join claim.datanode number }

/-- Grant a lock to the task that has become first in its line. -/
def grantNext (overlap : Overlap) (id : String) : Overlap :=
  match overlap.locks.holder? id with
  | none => overlap
  | some number =>
    match overlap.tasks[number]? with
    | some { load, work := .waiting claim } => overlap.setTask number { load, work := .granted claim }
    | _ => overlap

/-- Go on with a load: register the next entry, or close the iterator. -/
def continueLoad (overlap : Overlap) (number : Nat) (loading : Loading) (step : LoadStep) : Overlap :=
  match step with
  | .register entry operation => overlap.claim number (some ⟨loading, entry⟩) (.operate operation)
  | .close =>
    overlap.setTask number
      { work := .asking loading.table (.close loading.iterator) (.closedAfterLoad loading.loaded) }

def askEntry (overlap : Overlap) (number : Nat) (loading : Loading) : Overlap :=
  overlap.setTask number
    { work := .asking loading.table (.next loading.iterator) (.nextEntry loading) }

def askCount (overlap : Overlap) (number : Nat) (counting : Loading) : Overlap :=
  overlap.setTask number
    { work := .asking counting.table (.next counting.iterator) (.countEntry counting) }

/-- End a count: close the iterator, then answer. -/
def endCount (overlap : Overlap) (number : Nat) (counting : Loading) (outcome : Outcome) : Overlap :=
  overlap.setTask number
    { work := .asking counting.table (.close counting.iterator) (.closedAfterCount outcome) }

def takeAnswer (overlap : Overlap) (number : Nat) (load : Option SuspendedLoad) (answer : TableAnswer)
    (continuation : Continuation) : Overlap :=
  match continuation with
  | .operation id remainder =>
    let (world, outcome) := overlap.world.finish remainder answer
    (overlap.withWorld world).setTask number { load, work := .leaving id outcome }
  | .nextEntry loading =>
    let (manager, step) := overlap.world.manager.takeEntry loading.loaded answer
    (overlap.withWorld (overlap.world.withManager manager)).continueLoad number loading step
  | .closedAfterLoad loaded =>
    let world := overlap.world.mapManager fun manager ↦ manager.takeClosed answer
    (overlap.withWorld world).setTask number { work := .settled (.ok (.count loaded)) }
  | .countEntry counting =>
    match answer with
    | .error failure => overlap.endCount number counting (.error (Manager.countFailure failure))
    | .ok none => overlap.endCount number counting (.ok (.count counting.loaded))
    | .ok (some _) => overlap.askCount number { counting with loaded := counting.loaded + 1 }
  | .closedAfterCount outcome =>
    let world := overlap.world.mapManager fun manager ↦ manager.takeClosed answer
    (overlap.withWorld world).setTask number { work := .settled outcome }

/-- Let a task go on with its load after an entry was registered. -/
def resumeLoad (overlap : Overlap) (number : Nat) (load : SuspendedLoad) (outcome : Outcome) : Overlap :=
  let loading := load.loading
  match overlap.world.manager.takeRegistered load.entry loading.loaded outcome with
  | (manager, none) =>
    (overlap.withWorld (overlap.world.withManager manager)).continueLoad number loading .close
  | (manager, some loaded) =>
    (overlap.withWorld (overlap.world.withManager manager)).askEntry number
      { loading with loaded := loaded }

/-- Let a task start what it has claimed its lock for. -/
def startClaim (overlap : Overlap) (number : Nat) (load : Option SuspendedLoad) (claim : Claim) : Overlap :=
  match claim with
  | .keep id none => overlap.setTask number { load, work := .keeping id }
  | .keep id (some outcome) => overlap.setTask number { load, work := .leaving id outcome }
  | .operate operation =>
    let id := operation.datanode
    match overlap.world.start operation with
    | (world, .ended outcome) => (overlap.withWorld world).setTask number { load, work := .leaving id outcome }
    | (world, .asking table request remainder) =>
      (overlap.withWorld world).setTask number
        { load, work := .asking table request (.operation id remainder) }

/-- Let a task leave its lock. -/
def leaveLock (overlap : Overlap) (number : Nat) (load : Option SuspendedLoad) (id : String)
    (outcome : Outcome) : Overlap :=
  let work := if load.isSome then .resuming outcome else .settled outcome
  let left : Overlap := { overlap with locks := overlap.locks.leave id }
  (left.setTask number { load, work }).grantNext id

/-- Let a task make one step; one that waits or has ended stays where it is. -/
def advance (overlap : Overlap) (number : Nat) : Overlap :=
  match overlap.tasks[number]? with
  | none => overlap
  | some { load, work } =>
    match work with
    | .waiting _ | .keeping _ | .settled _ => overlap
    | .granted claim => overlap.startClaim number load claim
    | .asking table request continuation =>
      let (world, answer) := overlap.world.ask table request
      (overlap.withWorld world).setTask number { load, work := .answered answer continuation }
    | .answered answer continuation => overlap.takeAnswer number load answer continuation
    | .leaving id outcome => overlap.leaveLock number load id outcome
    | .resuming outcome =>
      match load with
      | some load => overlap.resumeLoad number load outcome
      | none => overlap.setTask number { work := .settled outcome }

/-- Let tasks make steps in the order of a schedule. -/
def run (overlap : Overlap) (schedule : List Nat) : Overlap := schedule.foldl advance overlap

/-! ## New tasks -/

/-- Add a task with what it works on, and hand back its number. -/
def addTask (overlap : Overlap) (work : Work) : Overlap × Nat :=
  ({ overlap with tasks := overlap.tasks ++ [{ work }] }, overlap.tasks.length)

def addClaim (overlap : Overlap) (claim : Claim) : Overlap × Nat :=
  let (added, number) := overlap.addTask (.waiting claim)
  (added.claim number none claim, number)

def submit (overlap : Overlap) (request : OperationRequest) : Overlap × Nat :=
  match overlap.world.prepare request with
  | (world, .error failure) => (overlap.withWorld world).addTask (.settled (.error failure))
  | (world, .ok operation) => (overlap.withWorld world).addClaim (.operate operation)

/-- Open the table in use for reading, and let a new task go on with the iterator. -/
def submitReading (overlap : Overlap) (read : Loading → Work) : Overlap × Nat :=
  match overlap.world.manager.table with
  | none => overlap.addTask (.settled (.ok (.count 0)))
  | some table =>
    match overlap.world.iterate table with
    | (world, .error failure) => (overlap.withWorld world).addTask (.settled (.error failure))
    | (world, .ok iterator) => (overlap.withWorld world).addTask (read ⟨table, iterator, 0⟩)

def submitLoad (overlap : Overlap) : Overlap × Nat :=
  overlap.submitReading fun loading ↦
    .asking loading.table (.next loading.iterator) (.nextEntry loading)

def submitCount (overlap : Overlap) : Overlap × Nat :=
  overlap.submitReading fun counting ↦
    .asking counting.table (.next counting.iterator) (.countEntry counting)

/-- Let a task that keeps a lock let go of it, with an outcome. -/
def letGo (overlap : Overlap) (number : Nat) (outcome : Outcome) : Overlap :=
  match overlap.tasks[number]? with
  | some { load, work := .keeping id } => overlap.setTask number { load, work := .leaving id outcome }
  | some { load, work := .waiting claim } =>
    overlap.setTask number { load, work := .waiting (claim.tell outcome) }
  | some { load, work := .granted claim } =>
    overlap.setTask number { load, work := .granted (claim.tell outcome) }
  | _ => overlap

end Overlap

end ClusterMembership
