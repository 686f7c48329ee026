import ClusterMembership.Service.World

/-!
# Loading the node table

At its start, or when it switches to another table, the service registers every datanode that the table holds,
one after another and without writing them back.  It stops at the first failure and keeps what was loaded.  The
iterator is closed in every case.  Counting reads a table in the same way without registering anything.
-/

namespace ClusterMembership

/-- A load in progress: the table, the iterator over it, and the number of datanodes loaded. -/
structure Loading where
  table : Nat
  iterator : Nat
  loaded : Nat
  deriving DecidableEq, Inhabited

/-- What a load does after it has asked for an entry. -/
inductive LoadStep where
  | register (entry : String) (operation : Operation)
  | close

namespace Manager

def loadEnded (manager : Manager) (loaded : Nat) : Manager :=
  let cleared : Manager :=
    { manager with cluster := manager.cluster.removeError ClusterContext.loadFailed }
  cleared.note
    { component := registrationComponent, level := .info, message := "Loaded datanodes from node table"
      context := [("count", .ofNat loaded)] }

def loadFailed (manager : Manager) (failure : Failure) (loaded : Nat) : Manager :=
  let noted := manager.note
    { component := registrationComponent, level := .error
      message := "Unable to load datanodes from node table"
      context := [("loaded", .ofNat loaded)], error := some failure.toError }
  { noted with cluster := noted.cluster.addError ClusterContext.loadFailed }

/-- The registration of a stored datanode: it is not written back, and its layout is the service's own. -/
def storedRegistration (manager : Manager) (details : Details) : RegistrationRequest :=
  { details, layout := some manager.layout.pinned, persist := false }

/-- Go on with a load after the table has answered a request for the next entry. -/
def takeEntry (manager : Manager) (loaded : Nat) (answer : TableAnswer) : Manager × LoadStep :=
  match answer with
  | .error failure => (manager.loadFailed failure loaded, .close)
  | .ok none => (manager.loadEnded loaded, .close)
  | .ok (some entry) =>
    match manager.screen entry.details with
    | (refused, .error failure) => (refused.loadFailed failure loaded, .close)
    | (admitted, .ok details) =>
      (admitted, .register entry.id (.register (admitted.storedRegistration details)))

/-- Go on with a load after an entry was registered: the number of datanodes loaded, or nothing when the load
has failed. -/
def takeRegistered (manager : Manager) (entry : String) (loaded : Nat) (outcome : Outcome) :
    Manager × Option Nat :=
  match outcome with
  | .error failure => (manager.loadFailed failure loaded, none)
  | .ok (.acknowledged acknowledgement) =>
    let noted := manager.note (registrationNote .debug "Loaded datanode from node table"
      (some (.text entry)) [("result", .text acknowledgement.outcome)])
    (noted, some (if acknowledgement.permitted then loaded + 1 else loaded))
  | .ok _ => (manager, some loaded)

/-- Note when an iterator could not be closed. -/
def takeClosed (manager : Manager) (answer : TableAnswer) : Manager :=
  match answer with
  | .ok _ => manager
  | .error failure =>
    manager.note
      { component := registrationComponent, level := .warn
        message := "Failed to close node table iterator"
        context := [("error", .text failure.toError.message)] }

def countFailure (failure : Failure) : Failure := .service (failure.wrapPersistence "iterate" none)

end Manager

namespace Table

/-- A bound on the number of entries that an iterator can still give while nothing is written. -/
def entriesLeft (table : Table) (iterator : Nat) : Nat :=
  match table.store with
  | .memory memory => ((memory.iterators[iterator]?).map fun i ↦ i.remaining.length).getD 0
  | .hosted hosted =>
    ((hosted.iterators[iterator]?).map fun i ↦ i.buffer.length).getD 0 +
      hosted.database.givenRows.length + hosted.database.rows.length

def iteratorCount (table : Table) : Nat :=
  match table.store with
  | .memory memory => memory.iterators.length
  | .hosted hosted => hosted.iterators.length

/-- A bound on the number of entries that all iterators over a table can still give. -/
def allEntriesLeft (table : Table) : Nat :=
  (List.range table.iteratorCount).foldl (fun total iterator ↦ total + table.entriesLeft iterator) 0

end Table

namespace World

/-- A bound on the number of entries that an iterator over a table can still give. -/
def entriesLeft (world : World) (table iterator : Nat) : Nat :=
  ((world.tables[table]?).map fun table ↦ table.entriesLeft iterator).getD 0

/-- Load entry after entry, at most as many as given. -/
def loadEntries : Nat → World → Loading → World × Nat
  | 0, world, loading => (world, loading.loaded)
  | bound + 1, world, loading =>
    let (asked, answer) := world.ask loading.table (.next loading.iterator)
    match asked.manager.takeEntry loading.loaded answer with
    | (manager, .close) => (asked.withManager manager, loading.loaded)
    | (manager, .register entry operation) =>
      let (registered, outcome) := (asked.withManager manager).run operation
      match registered.manager.takeRegistered entry loading.loaded outcome with
      | (manager, none) => (registered.withManager manager, loading.loaded)
      | (manager, some loaded) =>
        loadEntries bound (registered.withManager manager) { loading with loaded := loaded }

def closeIterator (world : World) (table iterator : Nat) : World :=
  let (asked, answer) := world.ask table (.close iterator)
  asked.mapManager fun manager ↦ manager.takeClosed answer

/-- Load the table in use while nothing else goes on. -/
def load (world : World) : World × Outcome :=
  match world.manager.table with
  | none => (world, .ok (.count 0))
  | some table =>
    match world.iterate table with
    | (refused, .error failure) => (refused, .error failure)
    | (opened, .ok iterator) =>
      let (ended, loaded) :=
        opened.loadEntries (opened.entriesLeft table iterator + 1) ⟨table, iterator, 0⟩
      (ended.closeIterator table iterator, .ok (.count loaded))

/-- Switch to another table or to none, without loading it. -/
def switchTable (world : World) (table : Option Nat) : World :=
  world.mapManager fun manager ↦
    let noted := manager.note
      { component := Manager.component, level := .info, message := "Reinitializing from node table" }
    { noted with table := table }

/-- Switch to another table and load it while nothing else goes on. -/
def reinitialize (world : World) (table : Option Nat) : World × Outcome := (world.switchTable table).load

/-- Count entry after entry, at most as many as given. -/
def countEntries : Nat → World → Loading → World × Outcome
  | 0, world, loading => (world, .ok (.count loading.loaded))
  | bound + 1, world, loading =>
    match world.ask loading.table (.next loading.iterator) with
    | (asked, .error failure) => (asked, .error (Manager.countFailure failure))
    | (asked, .ok none) => (asked, .ok (.count loading.loaded))
    | (asked, .ok (some _)) =>
      countEntries bound asked { loading with loaded := loading.loaded + 1 }

/-- Count the rows of the table in use while nothing else goes on. -/
def countPersisted (world : World) : World × Outcome :=
  match world.manager.table with
  | none => (world, .ok (.count 0))
  | some table =>
    match world.iterate table with
    | (refused, .error failure) => (refused, .error failure)
    | (opened, .ok iterator) =>
      let (ended, outcome) :=
        opened.countEntries (opened.entriesLeft table iterator + 1) ⟨table, iterator, 0⟩
      (ended.closeIterator table iterator, outcome)

end World

end ClusterMembership
