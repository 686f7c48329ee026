import ClusterMembership.Proofs.LastHeard
import ClusterMembership.Proofs.Reading
import ClusterMembership.Proofs.StartupLoad

/-!
# Loads and counts that are interrupted

A load registers the rows of a table one after another and stops at the first call that fails or the first row that is
not admitted; a count stops at the first call that fails.  Both close their iterator in the end, and a failure to do so
is only logged.  What a load leaves behind is what the registrations of the rows before that failure leave behind, but
for the log, the reading of the table, and the code that tells whether the load was interrupted.
-/

namespace ClusterMembership

/-! ## Rows that are admitted -/

namespace TableEntry

/-- The details of an entry in their kept form, when they are admitted. -/
def admitted? (entry : TableEntry) : Option Details :=
  match Validation.check entry.details with
  | .ok [] => ((Details.ofField entry.details).bind Details.normalize).toOption
  | _ => none

/-- The details of the entries before the first that is not admitted. -/
def admittedAhead : List TableEntry → List Details
  | [] => []
  | entry :: rest =>
    match entry.admitted? with
    | none => []
    | some details => details :: admittedAhead rest

/-- Whether something fails before the end of a table is reached: a call of it, or the admission of an entry. -/
def interrupted (given : List TableEntry) (ending : Option Failure) : Bool :=
  given.any (fun entry ↦ entry.admitted?.isNone) || ending.isSome

variable {entry : TableEntry}

theorem admittedAhead_cons_of_none (h : entry.admitted? = none) (rest : List TableEntry) :
    admittedAhead (entry :: rest) = [] := by
  rw [admittedAhead, h]

theorem admittedAhead_cons_of_some {details : Details} (h : entry.admitted? = some details) (rest : List TableEntry) :
    admittedAhead (entry :: rest) = details :: admittedAhead rest := by
  rw [admittedAhead, h]

theorem interrupted_cons_of_none (h : entry.admitted? = none) (rest : List TableEntry) (ending : Option Failure) :
    interrupted (entry :: rest) ending = true := by
  simp [interrupted, h]

theorem interrupted_cons_of_some {details : Details} (h : entry.admitted? = some details) (rest : List TableEntry)
    (ending : Option Failure) : interrupted (entry :: rest) ending = interrupted rest ending := by
  simp [interrupted, h]

end TableEntry

namespace Manager

variable (manager : Manager) {entry : TableEntry}

theorem screen_of_admitted {details : Details} (h : entry.admitted? = some details) :
    manager.screen entry.details = (manager, .ok details) := by
  unfold TableEntry.admitted? at h
  unfold screen
  rcases hflaws : Validation.check entry.details with failure | ⟨_ | ⟨flaw, flaws⟩⟩
  · simp [hflaws] at h
  · simp only [hflaws] at h
    cases hread : (Details.ofField entry.details).bind Details.normalize with
    | error failure => simp [hread, Except.toOption] at h
    | ok read =>
      obtain rfl : read = details := by simpa [hread, Except.toOption] using h
      rfl
  · simp [hflaws] at h

/-- An entry that is not admitted leaves at most a log entry. -/
theorem exists_screen_of_not_admitted (h : entry.admitted? = none) :
    ∃ log failure, manager.screen entry.details = (manager.relog log, .error failure) := by
  unfold TableEntry.admitted? at h
  unfold screen
  rcases hflaws : Validation.check entry.details with failure | ⟨_ | ⟨flaw, flaws⟩⟩
  · exact ⟨manager.trace.entries, failure, rfl⟩
  · simp only [hflaws] at h
    cases hread : (Details.ofField entry.details).bind Details.normalize with
    | error failure => exact ⟨manager.trace.entries, failure, rfl⟩
    | ok read => simp [hread, Except.toOption] at h
  · cases Details.ofField entry.details with
    | error failure => exact ⟨manager.trace.entries, failure, rfl⟩
    | ok details => exact ⟨_, _, rfl⟩

end Manager

def ClusterContext.tellLoad (context : ClusterContext) (failed : Bool) : ClusterContext :=
  if failed then context.addError loadFailed else context.removeError loadFailed

namespace World

variable {world : World}

/-! ## Registering rows -/

def aside (world : World) (log : List LogEntry) (tables : List Table) : World := { world.relog log with tables }

theorem getElem?_tables_aside (world : World) (log : List LogEntry) {tables : List Table} {number : Nat}
    (hnumber : number < tables.length) (table : Table) :
    (world.aside log (tables.set number table)).tables[number]? = some table :=
  List.getElem?_set_self hnumber

theorem set_tables_aside (world : World) (log : List LogEntry) (tables : List Table) (number : Nat)
    (table other : Table) :
    (world.aside log (tables.set number table)).tables.set number other = tables.set number other :=
  List.set_set _

def tellLoad (world : World) (failed : Bool) : World :=
  world.mapManager fun manager ↦ { manager with cluster := manager.cluster.tellLoad failed }

def registerStored : World → List Details → World × List Details
  | world, [] => (world, [])
  | world, details :: rest =>
    let (registered, outcome) := world.run (.register (world.manager.storedRegistration details))
    let (ended, others) := registered.registerStored rest
    match outcome with
    | .ok (.acknowledged acknowledgement) => (ended, if acknowledgement.permitted then details :: others else others)
    | _ => (ended, others)

/-- The registration of a stored datanode is answered.  With success it stores one record, and otherwise none. -/
theorem exists_run_storedRegistration (world : World) (details : Details) :
    ∃ registered acknowledgement, world.run (.register (world.manager.storedRegistration details)) =
        (registered, .ok (.acknowledged acknowledgement)) ∧
      (acknowledgement.permitted = true ∧
          (∃ record, registered.manager.registry = ⟨world.manager.registry.records.insert details.id record⟩) ∨
        acknowledgement.permitted = false ∧ registered.manager.registry = world.manager.registry) := by
  let request := world.manager.storedRegistration details
  cases hplacing : world.manager.placing request with
  | mk inPlace refusal =>
    cases refusal with
    | some refusal =>
      have hregistry : inPlace.registry = world.manager.registry := Manager.registry_of_placing_refused hplacing
      exact ⟨_, _, run_register_refused hplacing, .inr ⟨rfl, hregistry⟩⟩
    | none =>
      have hrecord := Manager.registry_of_place hplacing
      obtain ⟨registry, topology, hplace⟩ :=
        ({ world.manager with known := world.manager.known.record details } : Manager).exists_place_eq details
          world.manager.layout.pinned world.manager.clock
      have hinPlace : _ = inPlace := hplace.symm.trans (congrArg Prod.fst hplacing)
      have hpinned : (world.manager.placedBy inPlace request).layout = inPlace.layout.pinned := hinPlace ▸ rfl
      obtain ⟨trace, acknowledgement, hcompleted, hpermitted⟩ :=
        inPlace.exists_completeRegistration_pinned rfl hpinned
      have hrun := run_register_unwritten hplacing rfl
      rw [hcompleted] at hrun
      exact ⟨_, acknowledgement, hrun, .inl ⟨hpermitted, _, hrecord⟩⟩

theorem registerStored_cons {details : Details} {registered : World} {acknowledgement : Acknowledgement}
    (hrun : world.run (.register (world.manager.storedRegistration details)) =
      (registered, .ok (.acknowledged acknowledgement))) (rest : List Details) :
    world.registerStored (details :: rest) = ((registered.registerStored rest).1,
      if acknowledgement.permitted then details :: (registered.registerStored rest).2
      else (registered.registerStored rest).2) := by
  rw [registerStored, hrun]

theorem clock_registerStored (world : World) (rows : List Details) :
    (world.registerStored rows).1.clock = world.clock := by
  induction rows generalizing world with
  | nil => rfl
  | cons details rest ih =>
    obtain ⟨registered, acknowledgement, hrun, -⟩ := world.exists_run_storedRegistration details
    have hclock := world.clock_run (.register (world.manager.storedRegistration details))
    rw [hrun] at hclock
    rw [registerStored_cons hrun]
    exact (ih registered).trans hclock

/-- Where registrations are not written back, the log and the tables make no difference to them. -/
theorem exists_run_register_aside (world : World) (log : List LogEntry) (tables : List Table)
    (request : RegistrationRequest) (hpersist : request.persist = false) :
    ∃ rest, (world.aside log tables).run (.register request) =
      ((world.run (.register request)).1.aside rest tables, (world.run (.register request)).2) := by
  obtain ⟨rest, hlogged⟩ := world.exists_relog_run log (.register request)
  have htables (other : World) : ({ other with tables } : World).run (.register request) =
      ({ (other.run (.register request)).1 with tables }, (other.run (.register request)).2) := by
    let beside : World := { other with tables }
    cases hplacing : other.manager.placing request with
    | mk inPlace refusal =>
      have hbeside : beside.manager.placing request = (inPlace, refusal) := hplacing
      cases refusal with
      | some refusal =>
        rw [run_register_refused hplacing, run_register_refused hbeside]
        rfl
      | none =>
        have hwrite : (if request.persist then inPlace.table else none) = none := by
          rw [hpersist]
          rfl
        rw [run_register_unwritten hplacing hwrite, run_register_unwritten hbeside hwrite]
        rfl
  refine ⟨rest, (htables (world.relog log)).trans ?_⟩
  rw [hlogged]
  rfl

theorem exists_registerStored_aside (world : World) (log : List LogEntry) (tables : List Table) (rows : List Details) :
    ∃ rest, (world.aside log tables).registerStored rows =
      ((world.registerStored rows).1.aside rest tables, (world.registerStored rows).2) := by
  induction rows generalizing world log with
  | nil => exact ⟨log, rfl⟩
  | cons details others ih =>
    obtain ⟨registered, acknowledgement, hrun, -⟩ := world.exists_run_storedRegistration details
    obtain ⟨rest, hbeside⟩ :=
      world.exists_run_register_aside log tables (world.manager.storedRegistration details) rfl
    rw [hrun] at hbeside
    have hrun' : (world.aside log tables).run
        (.register ((world.aside log tables).manager.storedRegistration details)) = _ := hbeside
    obtain ⟨last, hothers⟩ := ih registered rest
    refine ⟨last, ?_⟩
    rw [registerStored_cons hrun, registerStored_cons hrun', hothers]

/-! ## Loading up to a failure -/

variable {number iterator : Nat} {table opened : Table} {now : Instant} {given : List TableEntry}
  {ending : Option Failure}

/-- The calls with which an iterator is asked for so many entries and once more. -/
def nextCalls (now : Instant) (iterator rows : Nat) : List (Instant × TableCall) :=
  List.replicate (rows + 1) (now, .request (.next iterator))

/-- Asking for an entry changes nothing but the log and the table. -/
theorem exists_ask_next (hnow : world.clock = now) (htable : world.tables[number]? = some table) {answer : TableAnswer}
    (hanswer : (table.perform now (.next iterator)).2.2 = answer) :
    ∃ log, world.ask number (.next iterator) =
      (world.aside log (world.tables.set number (table.perform now (.next iterator)).1), answer) := by
  subst hnow hanswer
  exact world.exists_ask_eq htable rfl

/-- An entry that is admitted is registered as if the table had not been asked, and the load goes on. -/
theorem exists_loadEntries_step {log : List LogEntry} {tables : List Table} {entry : TableEntry} {details : Details}
    (hask : world.ask number (.next iterator) = (world.aside log tables, .ok (some entry)))
    (hadmitted : entry.admitted? = some details) {registered : World} {acknowledgement : Acknowledgement}
    (hrun : world.run (.register (world.manager.storedRegistration details)) =
      (registered, .ok (.acknowledged acknowledgement))) (bound loaded : Nat) :
    ∃ rest, loadEntries (bound + 1) world ⟨number, iterator, loaded⟩ =
      loadEntries bound (registered.aside rest tables)
        ⟨number, iterator, if acknowledgement.permitted then loaded + 1 else loaded⟩ := by
  obtain ⟨rest, hbeside⟩ :=
    world.exists_run_register_aside log tables (world.manager.storedRegistration details) rfl
  rw [hrun] at hbeside
  have htaken : (world.aside log tables).manager.takeEntry loaded (.ok (some entry)) =
      ((world.aside log tables).manager,
        .register entry.id (.register (world.manager.storedRegistration details))) := by
    unfold Manager.takeEntry
    simp only [Manager.screen_of_admitted _ hadmitted]
    rfl
  have hself : (world.aside log tables).withManager (world.aside log tables).manager = world.aside log tables := rfl
  rw [loadEntries]
  simp only [hask, htaken, hself, hbeside, Manager.takeRegistered]
  exact ⟨_, rfl⟩

/-- A load registers the entries before the first failure, and stops there or at the end of the table. -/
theorem exists_loadEntries_of_reads (hreads : table.Reads now iterator given ending) (hnow : world.clock = now)
    (htable : world.tables[number]? = some table) {bound : Nat} (hbound : given.length < bound) (loaded : Nat) :
    ∃ log, loadEntries bound world ⟨number, iterator, loaded⟩ =
      (((world.registerStored (TableEntry.admittedAhead given)).1.tellLoad
          (TableEntry.interrupted given ending)).aside log
        (world.tables.set number (table.called (nextCalls now iterator (TableEntry.admittedAhead given).length))),
        loaded + (world.registerStored (TableEntry.admittedAhead given)).2.length) := by
  induction hreads generalizing world bound loaded with
  | @ended table hanswer =>
    obtain ⟨bound, rfl⟩ := Nat.exists_eq_succ_of_ne_zero (Nat.ne_of_gt hbound)
    obtain ⟨log, hask⟩ := exists_ask_next hnow htable hanswer
    unfold loadEntries
    simp only [hask]
    exact ⟨_, rfl⟩
  | @failed table failure hanswer =>
    obtain ⟨bound, rfl⟩ := Nat.exists_eq_succ_of_ne_zero (Nat.ne_of_gt hbound)
    obtain ⟨log, hask⟩ := exists_ask_next hnow htable hanswer
    unfold loadEntries
    simp only [hask]
    exact ⟨_, rfl⟩
  | @given table entry rest ending hanswer hrest ih =>
    obtain ⟨bound, rfl⟩ := Nat.exists_eq_succ_of_ne_zero (Nat.ne_of_gt (Nat.zero_lt_of_lt hbound))
    obtain ⟨log, hask⟩ := exists_ask_next hnow htable hanswer
    cases hadmitted : entry.admitted? with
    | none =>
      have hscreened := (world.aside log (world.tables.set number (table.perform now (.next iterator)).1)).manager
        |>.exists_screen_of_not_admitted hadmitted
      obtain ⟨relogged, failure, hscreen⟩ := hscreened
      rw [TableEntry.admittedAhead_cons_of_none hadmitted, TableEntry.interrupted_cons_of_none hadmitted]
      unfold loadEntries
      simp only [hask, Manager.takeEntry, hscreen]
      exact ⟨_, rfl⟩
    | some details =>
      obtain ⟨registered, acknowledgement, hrun, -⟩ := world.exists_run_storedRegistration details
      obtain ⟨log', hstep⟩ := exists_loadEntries_step hask hadmitted hrun bound loaded
      let tables := world.tables.set number (table.perform now (.next iterator)).1
      have hclock : (registered.aside log' tables).clock = now := by
        have hkept := world.clock_run (.register (world.manager.storedRegistration details))
        rw [hrun] at hkept
        exact hkept.trans hnow
      have hnext := registered.getElem?_tables_aside log' (List.getElem?_eq_some_iff.mp htable).1
        (table.perform now (.next iterator)).1
      obtain ⟨ended, hended⟩ := ih hclock hnext (Nat.lt_of_succ_lt_succ hbound)
        (if acknowledgement.permitted then loaded + 1 else loaded)
      -- The load goes on in a world with another log and a table read further, which the rows to come do not notice.
      obtain ⟨others, hothers⟩ := registered.exists_registerStored_aside log' tables (TableEntry.admittedAhead rest)
      rw [hothers, set_tables_aside] at hended
      rw [TableEntry.admittedAhead_cons_of_some hadmitted, TableEntry.interrupted_cons_of_some hadmitted,
        registerStored_cons hrun, hstep, hended]
      refine ⟨ended, Prod.ext ?_ ?_⟩
      · rfl
      · cases acknowledgement.permitted with
        | false => rfl
        | true => exact Nat.succ_add_eq_add_succ _ _

/-! ## The load and the count as a whole -/

theorem iterate_aside (htable : world.tables[number]? = some table) (hopen : table.iterate = (opened, .ok iterator)) :
    world.iterate number =
      (world.aside world.manager.trace.entries (world.tables.set number opened), .ok iterator) := by
  unfold iterate
  rw [htable]
  simp only [hopen]
  rfl

theorem load_of_iterate {reading ended : World} {loaded : Nat} (huses : world.manager.table = some number)
    (hopen : world.iterate number = (reading, .ok iterator))
    (hloaded : loadEntries (reading.entriesLeft number iterator + 1) reading ⟨number, iterator, 0⟩ = (ended, loaded)) :
    world.load = (ended.closeIterator number iterator, .ok (.count loaded)) := by
  unfold load
  rw [huses]
  simp only [hopen, hloaded]

/-- Closing an iterator changes nothing but the log and the table. -/
theorem exists_closeIterator_aside (world : World) (log : List LogEntry) {tables : List Table}
    (hnumber : number < tables.length) (table : Table) (iterator : Nat) :
    ∃ rest, (world.aside log (tables.set number table)).closeIterator number iterator =
      world.aside rest (tables.set number (table.call world.clock (.request (.close iterator))).1) := by
  obtain ⟨rest, hclosed⟩ := exists_closeIterator_eq (world.getElem?_tables_aside log hnumber table) iterator
  rw [set_tables_aside] at hclosed
  exact ⟨rest, hclosed⟩

/-- The bound on the entries that are read is no bound on what an iterator gives. -/
theorem length_lt_of_reads (hopened : world.tables[number]? = some opened)
    (hreads : opened.Reads now iterator given ending) : given.length < world.entriesLeft number iterator + 1 := by
  obtain ⟨others, other, hothers, hlength⟩ := opened.exists_reads now iterator
  obtain ⟨rfl, -⟩ := hreads.unique hothers
  have hleft : world.entriesLeft number iterator = opened.entriesLeft iterator := by
    unfold entriesLeft
    rw [hopened]
    rfl
  rw [hleft]
  exact Nat.lt_succ_of_le (hlength.trans (opened.supply_le_entriesLeft iterator))

/-- A reading opens an iterator, asks it for entries and closes it. -/
theorem called_readingCalls (hopen : table.iterate = (opened, .ok iterator)) (now : Instant) (rows : Nat) :
    table.called (readingCalls now iterator rows) =
      ((opened.called (nextCalls now iterator rows)).call now (.request (.close iterator))).1 := by
  have hopened : table.iterate.1 = opened := congrArg Prod.fst hopen
  rw [readingCalls, Table.called, List.foldl_append, List.foldl_cons, ← hopened]
  rfl

/-- A load registers the rows before the first failure, tells whether there was one, and closes its iterator. -/
theorem exists_load_of_reads (huses : world.manager.table = some number) (htable : world.tables[number]? = some table)
    (hopen : table.iterate = (opened, .ok iterator)) (hreads : opened.Reads world.clock iterator given ending) :
    ∃ log, world.load =
      (((world.registerStored (TableEntry.admittedAhead given)).1.tellLoad
          (TableEntry.interrupted given ending)).aside log
        (world.tables.set number
          (table.called (readingCalls world.clock iterator (TableEntry.admittedAhead given).length))),
        .ok (.count (world.registerStored (TableEntry.admittedAhead given)).2.length)) := by
  let reading := world.aside world.manager.trace.entries (world.tables.set number opened)
  have hnumber := (List.getElem?_eq_some_iff.mp htable).1
  have hopened : reading.tables[number]? = some opened := world.getElem?_tables_aside _ hnumber opened
  have hreading : reading.clock = world.clock := rfl
  obtain ⟨read, hloaded⟩ :=
    exists_loadEntries_of_reads hreads hreading hopened (length_lt_of_reads hopened hreads) 0
  obtain ⟨others, hregistered⟩ := world.exists_registerStored_aside world.manager.trace.entries
    (world.tables.set number opened) (TableEntry.admittedAhead given)
  have hclock := world.clock_registerStored (TableEntry.admittedAhead given)
  rw [hregistered, Nat.zero_add] at hloaded
  generalize world.registerStored (TableEntry.admittedAhead given) = registered at hloaded hclock ⊢
  obtain ⟨log, hclosed⟩ := (registered.1.tellLoad (TableEntry.interrupted given ending)).exists_closeIterator_aside read
    hnumber (opened.called (nextCalls world.clock iterator (TableEntry.admittedAhead given).length)) iterator
  have hnow : (registered.1.tellLoad (TableEntry.interrupted given ending)).clock = world.clock := hclock
  rw [hnow, ← called_readingCalls hopen] at hclosed
  rw [set_tables_aside] at hloaded
  exact ⟨log, (load_of_iterate huses (iterate_aside htable hopen) hloaded).trans (congrArg (·, _) hclosed)⟩

end World

end ClusterMembership
