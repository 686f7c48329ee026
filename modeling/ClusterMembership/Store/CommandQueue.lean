import ClusterMembership.Command
import ClusterMembership.OrderedMap
import ClusterMembership.Report

/-!
# Waiting commands

Each datanode has a queue of commands, the oldest first, that one heartbeat drains as a whole.  Beside it stand
the numbers of commands that the datanode said it still holds; a new report replaces the one before.
-/

namespace ClusterMembership

structure QueuedCommand where
  datanode : String
  command : Command
  enqueuedAt : Instant
  deriving DecidableEq, Inhabited

namespace QueuedCommand

def toValue (queued : QueuedCommand) : Value :=
  .object [("datanodeId", .text queued.datanode), ("command", queued.command.toValue),
    ("enqueuedAt", .ofInt queued.enqueuedAt)]

end QueuedCommand

/-- The queues of all datanodes and the counts that they reported. -/
structure CommandQueue where
  queues : OrderedMap (List QueuedCommand)
  held : OrderedMap HeldCounts
  deriving DecidableEq, Inhabited

namespace CommandQueue

def empty : CommandQueue := ⟨.empty, .empty⟩

/-- The commands that wait for a datanode, the oldest first. -/
def peek (queue : CommandQueue) (id : String) : List QueuedCommand := (queue.queues.get? id).getD []

def add (queue : CommandQueue) (id : String) (command : Command) (now : Instant) : CommandQueue :=
  { queue with queues := queue.queues.insert id (queue.peek id ++ [⟨id, command, now⟩]) }

def drain (queue : CommandQueue) (id : String) : CommandQueue × List Command :=
  ({ queue with queues := queue.queues.erase id }, (queue.peek id).map QueuedCommand.command)

/-- Drop what waits for a datanode and what it reported; hand back the number of commands dropped. -/
def purge (queue : CommandQueue) (id : String) : CommandQueue × Nat :=
  (⟨queue.queues.erase id, queue.held.erase id⟩, (queue.peek id).length)

def count (queue : CommandQueue) (id : String) : Nat := (queue.peek id).length

def countOf (queue : CommandQueue) (id kind : String) : Nat :=
  ((queue.peek id).filter fun queued ↦ queued.command.kind.name = kind).length

def total (queue : CommandQueue) : Nat :=
  queue.queues.values.flatten.length

def recordHeld (queue : CommandQueue) (id : String) (counts : HeldCounts) : CommandQueue :=
  { queue with held := queue.held.insert id counts }

def heldOf (queue : CommandQueue) (id kind : String) : Number :=
  ((queue.held.get? id).bind (Association.find? kind)).getD 0

/-- Commands of a kind that wait here or at the datanode. -/
def pendingOf (queue : CommandQueue) (id kind : String) : Number :=
  Number.ofNat (queue.countOf id kind) + queue.heldOf id kind

/-! ## What waits after a change -/

@[simp]
theorem peek_empty (id : String) : empty.peek id = [] := rfl

theorem peek_add (queue : CommandQueue) (added id : String) (command : Command) (now : Instant) :
    (queue.add added command now).peek id =
      if added = id then queue.peek id ++ [⟨added, command, now⟩] else queue.peek id := by
  unfold peek add
  rw [OrderedMap.get?_insert]
  by_cases h : added = id
  · simp [h, peek]
  · simp [h]

theorem peek_drain (queue : CommandQueue) (drained id : String) :
    (queue.drain drained).1.peek id = if drained = id then [] else queue.peek id := by
  unfold peek drain
  rw [OrderedMap.get?_erase]
  by_cases h : drained = id <;> simp [h]

/-- A command that was queued last is taken with the others. -/
theorem drain_add (queue : CommandQueue) (id : String) (command : Command) (now : Instant) :
    ((queue.add id command now).drain id).1 = (queue.drain id).1 := by
  unfold drain add
  simp only [OrderedMap.erase_insert]

theorem peek_purge (queue : CommandQueue) (purged id : String) :
    (queue.purge purged).1.peek id = if purged = id then [] else queue.peek id := by
  unfold peek purge
  rw [OrderedMap.get?_erase]
  by_cases h : purged = id <;> simp [h]

@[simp]
theorem peek_recordHeld (queue : CommandQueue) (id other : String) (counts : HeldCounts) :
    (queue.recordHeld id counts).peek other = queue.peek other := rfl

def reported? (queue : CommandQueue) (id : String) : Option HeldCounts := queue.held.get? id

@[simp]
theorem reported?_empty (id : String) : empty.reported? id = none := rfl

@[simp]
theorem reported?_add (queue : CommandQueue) (added id : String) (command : Command) (now : Instant) :
    (queue.add added command now).reported? id = queue.reported? id := rfl

theorem reported?_purge (queue : CommandQueue) (purged id : String) :
    (queue.purge purged).1.reported? id = if purged = id then none else queue.reported? id :=
  OrderedMap.get?_erase queue.held purged id

theorem reported?_recordHeld (queue : CommandQueue) (noted id : String) (counts : HeldCounts) :
    (queue.recordHeld noted counts).reported? id =
      if noted = id then some counts else queue.reported? id :=
  OrderedMap.get?_insert queue.held noted id counts

end CommandQueue

end ClusterMembership
