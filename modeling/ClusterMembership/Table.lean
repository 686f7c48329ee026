import ClusterMembership.Table.Hosted

/-!
# Node tables

The durable copy of the membership is a node table, in memory or in a database.  The service calls it by
requests.  A table may be told to fail: each fault names a method, lets some calls through and then makes
some fail.  A faulty call leaves the table as it was, except that a faulty close still closes.
-/

namespace ClusterMembership

inductive TableMethod where
  | put | delete | iterate | next | close
  deriving DecidableEq, Inhabited

namespace TableMethod

def all : List TableMethod := [put, delete, iterate, next, close]

def name : TableMethod → String
  | put => "put"
  | delete => "delete"
  | iterate => "iterate"
  | next => "next"
  | close => "close"

def ofName? (name : String) : Option TableMethod := all.find? fun method ↦ method.name = name

end TableMethod

/-- Calls of a method that fail: after some calls that go through, some times. -/
structure Fault where
  method : TableMethod
  failure : Failure
  times : Nat
  after : Nat
  deriving DecidableEq

inductive TableStore where
  | memory (table : MemoryTable)
  | hosted (table : HostedTable)
  deriving DecidableEq, Inhabited

structure Table where
  store : TableStore
  faults : List Fault
  deriving DecidableEq

/-- What the service asks of a table while it waits. -/
inductive TableRequest where
  | put (id : String) (details : Details)
  | delete (id : String)
  | next (iterator : Nat)
  | close (iterator : Nat)
  deriving DecidableEq

def TableRequest.method : TableRequest → TableMethod
  | .put _ _ => .put
  | .delete _ => .delete
  | .next _ => .next
  | .close _ => .close

/-- What a table answers: the entry that an iterator gave, if the request was for one. -/
abbrev TableAnswer := Except Failure (Option TableEntry)

namespace Table

def ofStore (store : TableStore) : Table := ⟨store, []⟩

/-- The details stored under an identifier; no fault is about this. -/
def get (table : Table) (id : String) : Table × Except Failure Field :=
  match table.store with
  | .memory memory => (table, .ok (memory.get id))
  | .hosted hosted =>
    let (sent, found) := hosted.get id
    ({ table with store := .hosted sent }, found)

/-- The requests that the database of a table was sent, none for a table in memory. -/
def requests (table : Table) : List DatabaseRequest :=
  match table.store with
  | .memory _ => []
  | .hosted hosted => hosted.database.requests

/-- Let the first fault of a method that has times left decide about a call. -/
def takeFault (method : TableMethod) : List Fault → List Fault × Option Failure
  | [] => ([], none)
  | fault :: rest =>
    if fault.method = method ∧ 0 < fault.times then
      if 0 < fault.after then ({ fault with after := fault.after - 1 } :: rest, none)
      else ({ fault with times := fault.times - 1 } :: rest, some fault.failure)
    else
      let (others, failure) := takeFault method rest
      (fault :: others, failure)

/-- Carry out a request, faults left aside. -/
def carryOut (store : TableStore) (now : Instant) (request : TableRequest) :
    TableStore × Option PageNote × TableAnswer :=
  match store, request with
  | .memory table, .put id details => (.memory (table.put id (some details.toValue)), none, .ok none)
  | .memory table, .delete id => (.memory (table.delete id), none, .ok none)
  | .memory table, .next iterator =>
    let (table, answer) := table.next iterator
    (.memory table, none, answer)
  | .memory table, .close iterator => (.memory (table.close iterator), none, .ok none)
  | .hosted table, .put id details =>
    let (table, answer) := table.put now id (some details.toValue)
    (.hosted table, none, answer.map fun _ ↦ none)
  | .hosted table, .delete id =>
    let (table, answer) := table.delete id
    (.hosted table, none, answer.map fun _ ↦ none)
  | .hosted table, .next iterator =>
    let (table, note, answer) := table.next iterator
    (.hosted table, note, answer)
  | .hosted table, .close iterator => (.hosted (table.close iterator), none, .ok none)

/-- Carry out a request unless a fault decides otherwise. -/
def perform (table : Table) (now : Instant) (request : TableRequest) :
    Table × Option PageNote × TableAnswer :=
  match takeFault request.method table.faults with
  | (faults, none) =>
    let (store, note, answer) := carryOut table.store now request
    (⟨store, faults⟩, note, answer)
  | (faults, some failure) =>
    match request with
    | .close _ => (⟨(carryOut table.store now request).1, faults⟩, none, .error failure)
    | _ => ({ table with faults := faults }, none, .error failure)

def openIterator : TableStore → TableStore × Nat
  | .memory table => (.memory table.iterate.1, table.iterate.2)
  | .hosted table => (.hosted table.iterate.1, table.iterate.2)

def iterate (table : Table) : Table × Except Failure Nat :=
  match takeFault .iterate table.faults with
  | (faults, none) =>
    let (store, iterator) := openIterator table.store
    (⟨store, faults⟩, .ok iterator)
  | (faults, some failure) => ({ table with faults := faults }, .error failure)

end Table

end ClusterMembership
