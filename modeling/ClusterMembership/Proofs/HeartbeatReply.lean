import ClusterMembership.Proofs.Authority
import ClusterMembership.Proofs.CommandLedger
import ClusterMembership.Proofs.Departure

/-!
# Heartbeats from end to end

What a heartbeat of a registered datanode does to a primary whose registry's operational states count is said whole, by
one equation up to the log: the record is brought up to the report, what waits is taken, the counts that are reported
replace those before, and an event tells of a datanode that was not healthy.  The equation is put together from one for
each step of a heartbeat.
-/

namespace ClusterMembership

/-! ## What a report changes -/

namespace NodeRecord

end NodeRecord

/-- The counts of commands held that stand after a report. -/
def CommandQueue.noteHeld (queue : CommandQueue) (id : String) (counts : Option HeldCounts) : CommandQueue :=
  match counts with
  | none => queue
  | some counts => queue.recordHeld id counts

namespace CommandQueue

variable (queue : CommandQueue) (id : String)

end CommandQueue

namespace Registry

end Registry

namespace Manager

/-- Two states of a manager that differ in nothing but the log and what waits for one datanode. -/
def QueuedFor (id : String) (before after : Manager) : Prop :=
  ∃ commands entries, after = { before with commands, trace := { before.trace with entries } } ∧
    (commands.drain id).1 = (before.commands.drain id).1

variable {manager : Manager} {id : String} {record : NodeRecord}

namespace QueuedFor

variable {before middle after : Manager}

protected theorem refl (id : String) (manager : Manager) : QueuedFor id manager manager :=
  ⟨manager.commands, manager.trace.entries, rfl, rfl⟩

protected theorem trans (hfirst : QueuedFor id before middle) (hsecond : QueuedFor id middle after) :
    QueuedFor id before after := by
  obtain ⟨queued, entries, rfl, hqueued⟩ := hfirst
  obtain ⟨commands, later, rfl, hcommands⟩ := hsecond
  exact ⟨commands, later, rfl, hcommands.trans hqueued⟩

theorem relog (id : String) (manager : Manager) (entries : List LogEntry) :
    QueuedFor id manager (manager.relog entries) :=
  ⟨manager.commands, entries, rfl, rfl⟩

theorem add (id : String) (manager : Manager) (command : Command) (now : Instant) :
    QueuedFor id manager { manager with commands := manager.commands.add id command now } :=
  ⟨_, manager.trace.entries, rfl, CommandQueue.drain_add _ id command now⟩

end QueuedFor

/-! ## One step at a time -/

end Manager

namespace World

variable {world : World}

/-! ## Runs -/

end World

end ClusterMembership
