import ClusterMembership.Failure
import ClusterMembership.OrderedMap
import ClusterMembership.Text.Units

/-!
# The node table in memory

Rows are kept by identifier.  An iterator walks the rows as they were when it was opened, in ascending order of
identifier, whatever is written meanwhile.
-/

namespace ClusterMembership

structure TableEntry where
  id : String
  details : Field
  deriving DecidableEq, Inhabited

namespace TableEntry

def toValue (entry : TableEntry) : Value :=
  .ofFields [("id", some (.text entry.id)), ("details", entry.details)]

def ofValue (value : Value) : TableEntry := ⟨(value.member "id").text, value.member "details"⟩

end TableEntry

/-- The rows that an iterator has yet to give. -/
structure MemoryIterator where
  remaining : List TableEntry
  closed : Bool
  deriving DecidableEq, Inhabited

/-- A node table in memory with its iterators, numbered in the order in which they were opened. -/
structure MemoryTable where
  rows : OrderedMap Field
  iterators : List MemoryIterator
  deriving DecidableEq, Inhabited

namespace MemoryTable

/-- A table with rows; of two rows with one identifier the later counts. -/
def create (rows : List TableEntry) : MemoryTable :=
  ⟨.ofList (rows.map fun entry ↦ (entry.id, entry.details)), []⟩

def get (table : MemoryTable) (id : String) : Field :=
  ((table.rows.get? id).getD none).filter Value.isTruthy

def put (table : MemoryTable) (id : String) (details : Field) : MemoryTable :=
  { table with rows := table.rows.insert id details }

def delete (table : MemoryTable) (id : String) : MemoryTable :=
  { table with rows := table.rows.erase id }

def clear (table : MemoryTable) : MemoryTable := { table with rows := .empty }

def sortedRows (table : MemoryTable) : List TableEntry :=
  (table.rows.entries.map fun row ↦ TableEntry.mk row.1 row.2).mergeSort fun a b ↦ Text.atMost a.id b.id

def iterate (table : MemoryTable) : MemoryTable × Nat :=
  ({ table with iterators := table.iterators ++ [⟨table.sortedRows, false⟩] }, table.iterators.length)

def setIterator (table : MemoryTable) (number : Nat) (iterator : MemoryIterator) : MemoryTable :=
  { table with iterators := table.iterators.set number iterator }

/-- Ask an iterator for its next row; there is none at the end, and a closed iterator refuses. -/
def next (table : MemoryTable) (number : Nat) : MemoryTable × Except Failure (Option TableEntry) :=
  match table.iterators[number]? with
  | none | some ⟨_, true⟩ => (table, .error (.error "Iterator is closed"))
  | some ⟨[], false⟩ => (table, .ok none)
  | some ⟨entry :: rest, false⟩ => (table.setIterator number ⟨rest, false⟩, .ok (some entry))

/-- Close an iterator; closing twice does nothing. -/
def close (table : MemoryTable) (number : Nat) : MemoryTable :=
  match table.iterators[number]? with
  | some iterator => table.setIterator number { iterator with closed := true }
  | none => table

def openIterators (table : MemoryTable) : Nat :=
  (table.iterators.filter fun iterator ↦ !iterator.closed).length

end MemoryTable

end ClusterMembership
