import Mathlib.Data.List.Forall2
import ClusterMembership.Table

/-!
# Calls of a node table

A table is called for the details under an identifier, for an iterator, or with a request.  The steps of a run keep
of each call the table that it met, so that what was answered and what was sent to the database can be read off them.
-/

namespace ClusterMembership

inductive TableCall where
  | get (id : String)
  | iterate
  | request (request : TableRequest)
  deriving DecidableEq

inductive TableReply where
  | found (details : Except Failure Field)
  | opened (iterator : Except Failure Nat)
  | answered (answer : TableAnswer)
  deriving DecidableEq

def TableReply.entry? : TableReply → Option TableEntry
  | .answered (.ok entry) => entry
  | _ => none

/-- Call a table in memory, faults left aside. -/
def MemoryTable.call (table : MemoryTable) : TableCall → MemoryTable × TableReply
  | .get id => (table, .found (.ok (table.get id)))
  | .iterate => (table.iterate.1, .opened (.ok table.iterate.2))
  | .request (.put id details) => (table.put id (some details.toValue), .answered (.ok none))
  | .request (.delete id) => (table.delete id, .answered (.ok none))
  | .request (.next iterator) => ((table.next iterator).1, .answered (table.next iterator).2)
  | .request (.close iterator) => (table.close iterator, .answered (.ok none))

def HostedTable.call (table : HostedTable) (now : Instant) : TableCall → HostedTable × TableReply
  | .get id => ((table.get id).1, .found (table.get id).2)
  | .iterate => (table.iterate.1, .opened (.ok table.iterate.2))
  | .request (.put id details) =>
    let (after, answer) := table.put now id (some details.toValue)
    (after, .answered (answer.map fun _ ↦ none))
  | .request (.delete id) =>
    let (after, answer) := table.delete id
    (after, .answered (answer.map fun _ ↦ none))
  | .request (.next iterator) => ((table.next iterator).1, .answered (table.next iterator).2.2)
  | .request (.close iterator) => (table.close iterator, .answered (.ok none))

namespace Table

def call (table : Table) (now : Instant) : TableCall → Table × TableReply
  | .get id => ((table.get id).1, .found (table.get id).2)
  | .iterate => (table.iterate.1, .opened table.iterate.2)
  | .request request => ((table.perform now request).1, .answered (table.perform now request).2.2)

def called (table : Table) (calls : List (Instant × TableCall)) : Table :=
  calls.foldl (fun table call ↦ (table.call call.1 call.2).1) table

theorem call_memory (memory : MemoryTable) (now : Instant) (call : TableCall) :
    (ofStore (.memory memory)).call now call = (ofStore (.memory (memory.call call).1), (memory.call call).2) := by
  rcases call with _ | _ | ⟨_ | _ | _ | _⟩ <;> rfl

theorem call_hosted (hosted : HostedTable) (now : Instant) (call : TableCall) :
    (ofStore (.hosted hosted)).call now call =
      (ofStore (.hosted (hosted.call now call).1), (hosted.call now call).2) := by
  rcases call with _ | _ | ⟨_ | _ | _ | _⟩ <;> rfl

end Table

/-- A call with its time and the table that it met. -/
structure TableStep where
  before : Table
  now : Instant
  call : TableCall
  deriving DecidableEq

namespace TableStep

def after (step : TableStep) : Table := (step.before.call step.now step.call).1

def reply (step : TableStep) : TableReply := (step.before.call step.now step.call).2

def requests (step : TableStep) : List DatabaseRequest :=
  step.after.requests.drop step.before.requests.length

end TableStep

namespace Table

def steps (table : Table) : List (Instant × TableCall) → List TableStep
  | [] => []
  | (now, call) :: rest => ⟨table, now, call⟩ :: (table.call now call).1.steps rest

/-- The steps of a run in which an iterator is asked for its next entry. -/
def asked (table : Table) (number : Nat) (calls : List (Instant × TableCall)) : List TableStep :=
  (table.steps calls).filter fun step ↦ step.call = .request (.next number)

variable {table : Table} {number : Nat}

theorem asked_cons_next (now : Instant) (rest : List (Instant × TableCall)) :
    table.asked number ((now, .request (.next number)) :: rest) =
      ⟨table, now, .request (.next number)⟩ ::
        (table.call now (.request (.next number))).1.asked number rest := by
  unfold asked
  rw [steps, List.filter_cons_of_pos (by simp)]

theorem asked_cons_of_ne {call : TableCall} (hne : call ≠ .request (.next number)) (now : Instant)
    (rest : List (Instant × TableCall)) :
    table.asked number ((now, call) :: rest) = (table.call now call).1.asked number rest := by
  unfold asked
  rw [steps, List.filter_cons_of_neg (by simpa using hne)]

theorem asked_eq_nil {calls : List (Instant × TableCall)} (h : .request (.next number) ∉ calls.map Prod.snd) :
    table.asked number calls = [] := by
  induction calls generalizing table with
  | nil => rfl
  | cons call rest ih =>
    rw [List.map_cons, List.mem_cons, not_or] at h
    rw [asked_cons_of_ne (Ne.symm h.1), ih h.2]

end Table

end ClusterMembership
