import ClusterMembership.Proofs.History

/-!
# Asking a table in memory

A table in memory either carries out a request or fails it and stays as it was, and only a fault makes a write
fail.  Reading never changes the rows, and an iterator gives the entries that were rows when it was opened, one
after another.
-/

namespace ClusterMembership

namespace Table

/-- Without faults no call fails. -/
theorem takeFault_of_nil {method : TableMethod} {faults rest : List Fault} {failure : Option Failure}
    (h : takeFault method faults = (rest, failure)) (hnone : faults = []) :
    rest = [] ∧ failure = none := by
  rw [hnone] at h
  exact ⟨(congrArg Prod.fst h).symm, (congrArg Prod.snd h).symm⟩

end Table

namespace MemoryTable

/-- The entries that an iterator has yet to give. -/
def remaining (table : MemoryTable) (iterator : Nat) : List TableEntry :=
  ((table.iterators[iterator]?).map MemoryIterator.remaining).getD []

/-- What a table does with a request that no fault is about. -/
def serve (table : MemoryTable) : TableRequest → MemoryTable × TableAnswer
  | .put id details => (table.put id (some details.toValue), .ok none)
  | .delete id => (table.delete id, .ok none)
  | .next iterator => table.next iterator
  | .close iterator => (table.close iterator, .ok none)

theorem carryOut_memory (table : MemoryTable) (now : Instant) (request : TableRequest) :
    Table.carryOut (.memory table) now request =
      (.memory (table.serve request).1, none, (table.serve request).2) := by
  cases request <;> rfl

theorem rows_close (table : MemoryTable) (iterator : Nat) : (table.close iterator).rows = table.rows := by
  unfold close
  split <;> rfl

theorem rows_next (table : MemoryTable) (iterator : Nat) : (table.next iterator).1.rows = table.rows := by
  unfold next
  split <;> rfl

/-- The entries of an iterator that is opened are the rows. -/
theorem mem_sortedRows_iff (table : MemoryTable) (entry : TableEntry) :
    entry ∈ table.sortedRows ↔ table.rows.get? entry.id = some entry.details := by
  unfold sortedRows
  rw [List.mem_mergeSort, List.mem_map, OrderedMap.get?_eq_some_iff]
  constructor
  · rintro ⟨row, hrow, rfl⟩
    exact hrow
  · intro hrow
    exact ⟨(entry.id, entry.details), hrow, rfl⟩

theorem remaining_setIterator {table : MemoryTable} {number : Nat} {previous : MemoryIterator}
    (h : table.iterators[number]? = some previous) (iterator : MemoryIterator) :
    (table.setIterator number iterator).remaining number = iterator.remaining := by
  have hlength : number < table.iterators.length := by
    rw [List.getElem?_eq_some_iff] at h
    exact h.1
  simp [remaining, setIterator, hlength]

/-- An entry that an iterator gives is the first of those that it had yet to give. -/
theorem next_eq_some {table after : MemoryTable} {iterator : Nat} {entry : TableEntry}
    (h : table.next iterator = (after, .ok (some entry))) :
    table.remaining iterator = entry :: after.remaining iterator := by
  unfold next at h
  split at h
  · simp at h
  · simp at h
  · simp at h
  · next given rest hiterator =>
    simp only [Prod.mk.injEq, Except.ok.injEq, Option.some.injEq] at h
    obtain ⟨hafter, hentry⟩ := h
    rw [← hafter, ← hentry, remaining_setIterator hiterator, remaining, hiterator]
    rfl

/-- What an iterator has yet to give after it was asked, it had yet to give before. -/
theorem mem_remaining_of_next {table : MemoryTable} {iterator : Nat} {entry : TableEntry}
    (h : entry ∈ (table.next iterator).1.remaining iterator) : entry ∈ table.remaining iterator := by
  unfold next at h
  split at h
  · exact h
  · exact h
  · exact h
  · next given rest hiterator =>
    rw [remaining_setIterator hiterator] at h
    rw [remaining, hiterator]
    exact List.mem_cons_of_mem given h

end MemoryTable

namespace World

/-- A world in which a number stands for a table in memory with some faults. -/
def Holds (world : World) (number : Nat) (memory : MemoryTable) (faults : List Fault) : Prop :=
  world.tables[number]? = some ⟨.memory memory, faults⟩

/-- The row of a datanode in a table in memory. -/
def row? (world : World) (number : Nat) (id : String) : Option Field :=
  match world.tables[number]? with
  | some ⟨.memory memory, _⟩ => memory.rows.get? id
  | _ => none

namespace Holds

variable {world : World} {number : Nat} {memory : MemoryTable} {faults : List Fault}

/-- A number stands for one table at a time. -/
theorem unique (h : world.Holds number memory faults) {other : MemoryTable} {rest : List Fault}
    (hother : world.Holds number other rest) : memory = other ∧ faults = rest := by
  have hsame : some (Table.mk (.memory memory) faults) = some ⟨.memory other, rest⟩ := h.symm.trans hother
  simpa using hsame

theorem row?_eq (h : world.Holds number memory faults) (id : String) :
    world.row? number id = memory.rows.get? id := by
  unfold row?
  rw [show world.tables[number]? = some ⟨.memory memory, faults⟩ from h]

theorem getElem?_set (h : world.Holds number memory faults) (table : Table) :
    (world.tables.set number table)[number]? = some table := by
  have hlength : number < world.tables.length := by
    have hsome : world.tables[number]? = some ⟨.memory memory, faults⟩ := h
    rw [List.getElem?_eq_some_iff] at hsome
    exact hsome.1
  simp [hlength]

/-- More faults leave the rows and the iterators of a table alone. -/
theorem spoil (h : world.Holds number memory faults) (table : Nat) (added : List Fault) :
    ∃ spoilt, (world.move (.spoil table added)).Holds number memory spoilt := by
  have hsome : world.tables[number]? = some ⟨.memory memory, faults⟩ := h
  unfold Holds World.move
  simp only [List.getElem?_modify, hsome, Option.map_eq_map, Option.map_some]
  by_cases hsame : table = number
  · exact ⟨faults ++ added, by rw [if_pos hsame]; rfl⟩
  · exact ⟨faults, by rw [if_neg hsame]⟩

/-- A request is carried out, or a fault fails it, which closes an iterator all the same. -/
theorem ask_cases (h : world.Holds number memory faults) {request : TableRequest} {asked : World}
    {answer : TableAnswer} (hask : world.ask number request = (asked, answer)) :
    ∃ rest after, asked.Holds number after rest ∧ (faults = [] → rest = []) ∧
      (memory.serve request = (after, answer) ∨
        faults ≠ [] ∧ (∃ failure, answer = .error failure) ∧
          (after = memory ∨ ∃ iterator, request = .close iterator ∧ after = memory.close iterator)) := by
  unfold ask at hask
  rw [show world.tables[number]? = some ⟨.memory memory, faults⟩ from h] at hask
  unfold Table.perform at hask
  simp only [MemoryTable.carryOut_memory] at hask
  cases hfault : Table.takeFault request.method faults with
  | mk rest failure =>
    have hrest (hnone : faults = []) : rest = [] := (Table.takeFault_of_nil hfault hnone).1
    rw [hfault] at hask
    cases failure with
    | none =>
      have hasked : _ = asked := congrArg Prod.fst hask
      have hanswer : (memory.serve request).2 = answer := congrArg Prod.snd hask
      refine ⟨rest, (memory.serve request).1, ?_, hrest, .inl (Prod.ext rfl hanswer)⟩
      rw [← hasked]
      exact h.getElem?_set _
    | some failure =>
      have hfaults : faults ≠ [] := fun hnone ↦
        Option.some_ne_none failure (Table.takeFault_of_nil hfault hnone).2
      cases request with
      | close iterator =>
        have hasked : _ = asked := congrArg Prod.fst hask
        refine ⟨rest, memory.close iterator, ?_, hrest,
          .inr ⟨hfaults, ⟨failure, (congrArg Prod.snd hask).symm⟩, .inr ⟨iterator, rfl, rfl⟩⟩⟩
        rw [← hasked]
        exact h.getElem?_set _
      | _ =>
        have hasked : _ = asked := congrArg Prod.fst hask
        refine ⟨rest, memory, ?_, hrest,
          .inr ⟨hfaults, ⟨failure, (congrArg Prod.snd hask).symm⟩, .inl rfl⟩⟩
        rw [← hasked]
        exact h.getElem?_set _

/-- A write or a deletion is carried out, or a fault fails it and the table stays as it was. -/
theorem ask_write (h : world.Holds number memory faults) {request : TableRequest} {asked : World}
    {answer : TableAnswer} (hclose : ∀ iterator, request ≠ .close iterator)
    (hask : world.ask number request = (asked, answer)) :
    ∃ rest, (faults = [] → rest = []) ∧
      ((memory.serve request).2 = answer ∧ asked.Holds number (memory.serve request).1 rest ∨
        faults ≠ [] ∧ (∃ failure, answer = .error failure) ∧ asked.Holds number memory rest) := by
  obtain ⟨rest, after, hheld, hrest, hserved | ⟨hfaults, hfailed, rfl | ⟨iterator, hiterator, -⟩⟩⟩ :=
    h.ask_cases hask
  · rw [hserved]
    exact ⟨rest, hrest, .inl ⟨rfl, hheld⟩⟩
  · exact ⟨rest, hrest, .inr ⟨hfaults, hfailed, hheld⟩⟩
  · exact absurd hiterator (hclose iterator)

/-- Reading on keeps the rows; what comes is the first of the entries yet to come. -/
theorem ask_next (h : world.Holds number memory faults) {iterator : Nat} {asked : World}
    {answer : TableAnswer} (hask : world.ask number (.next iterator) = (asked, answer)) :
    ∃ rest after, asked.Holds number after rest ∧ after.rows = memory.rows ∧
      (faults = [] → rest = [] ∧ memory.next iterator = (after, answer)) ∧
      (∀ entry, answer = .ok (some entry) →
        memory.remaining iterator = entry :: after.remaining iterator) ∧
      ∀ entry ∈ after.remaining iterator, entry ∈ memory.remaining iterator := by
  obtain ⟨rest, after, hheld, hrest, hserved | ⟨hfaults, ⟨failure, hfailure⟩, hsame⟩⟩ := h.ask_cases hask
  · have hnext : memory.next iterator = (after, answer) := hserved
    refine ⟨rest, after, hheld, ?_, fun hnone ↦ ⟨hrest hnone, hnext⟩, fun entry hentry ↦ ?_,
      fun entry hentry ↦ ?_⟩
    · have hrows := memory.rows_next iterator
      rwa [hnext] at hrows
    · rw [hentry] at hnext
      exact MemoryTable.next_eq_some hnext
    · rw [show after = (memory.next iterator).1 by rw [hnext]] at hentry
      exact MemoryTable.mem_remaining_of_next hentry
  · have hafter : after = memory := by simpa using hsame
    refine ⟨rest, after, hheld, congrArg MemoryTable.rows hafter, fun hnone ↦ absurd hnone hfaults,
      fun entry hentry ↦ ?_, fun entry hentry ↦ hafter ▸ hentry⟩
    rw [hfailure] at hentry
    simp at hentry

/-- Closing an iterator keeps the rows, also when it fails. -/
theorem ask_close (h : world.Holds number memory faults) {iterator : Nat} {asked : World}
    {answer : TableAnswer} (hask : world.ask number (.close iterator) = (asked, answer)) :
    ∃ rest after, asked.Holds number after rest ∧ after.rows = memory.rows ∧ (faults = [] → rest = []) := by
  have hrows := memory.rows_close iterator
  obtain ⟨rest, after, hheld, hrest, hserved | ⟨-, -, rfl | ⟨other, hother, hafter⟩⟩⟩ := h.ask_cases hask
  · have hafter : memory.close iterator = after := congrArg Prod.fst hserved
    exact ⟨rest, after, hheld, hafter ▸ hrows, hrest⟩
  · exact ⟨rest, after, hheld, rfl, hrest⟩
  · have hsame : iterator = other := by simpa using hother
    exact ⟨rest, after, hheld, by rw [hafter, ← hsame, hrows], hrest⟩

/-- Opening an iterator keeps the rows; the iterator will give exactly the rows, in order. -/
theorem iterate_cases (h : world.Holds number memory faults) {opened : World} {outcome : Except Failure Nat}
    (hopen : world.iterate number = (opened, outcome)) :
    opened.manager = world.manager ∧ opened.service = world.service ∧
      ∃ rest after, opened.Holds number after rest ∧ after.rows = memory.rows ∧ (faults = [] → rest = []) ∧
        ((∃ iterator, outcome = .ok iterator ∧ after.remaining iterator = memory.sortedRows ∧
            after.iterators[iterator]? = some ⟨memory.sortedRows, false⟩) ∨
          faults ≠ [] ∧ ∃ failure, outcome = .error failure) := by
  unfold iterate at hopen
  rw [show world.tables[number]? = some ⟨.memory memory, faults⟩ from h] at hopen
  unfold Table.iterate at hopen
  simp only at hopen
  cases hfault : Table.takeFault .iterate faults with
  | mk rest failure =>
    have hrest (hnone : faults = []) : rest = [] := (Table.takeFault_of_nil hfault hnone).1
    rw [hfault] at hopen
    have hopened : _ = opened := congrArg Prod.fst hopen
    have houtcome : _ = outcome := congrArg Prod.snd hopen
    refine ⟨by rw [← hopened]; rfl, by rw [← hopened], rest, ?_⟩
    cases failure with
    | none =>
      have hlast : memory.iterate.1.iterators[memory.iterators.length]? =
          some ⟨memory.sortedRows, false⟩ := by simp [MemoryTable.iterate]
      refine ⟨memory.iterate.1, ?_, rfl, hrest,
        .inl ⟨memory.iterators.length, houtcome.symm, ?_, hlast⟩⟩
      · rw [← hopened]
        exact h.getElem?_set _
      · rw [MemoryTable.remaining, hlast]
        rfl
    | some failure =>
      have hfaults : faults ≠ [] := fun hnone ↦
        Option.some_ne_none failure (Table.takeFault_of_nil hfault hnone).2
      refine ⟨memory, ?_, rfl, hrest, .inr ⟨hfaults, failure, houtcome.symm⟩⟩
      rw [← hopened]
      exact h.getElem?_set _

end Holds

end World

/-! ## Rows -/

/-- What a request that is carried out makes of the row of a datanode. -/
def TableRequest.rowAfter (request : TableRequest) (id : String) (row : Option Field) : Option Field :=
  match request with
  | .put written details => if written = id then some (some details.toValue) else row
  | .delete deleted => if deleted = id then none else row
  | .next _ | .close _ => row

/-- A request that writes or deletes the row of a datanode. -/
def TableRequest.IsFor (request : TableRequest) (id : String) : Prop :=
  match request with
  | .put written _ => written = id
  | .delete deleted => deleted = id
  | .next _ | .close _ => False

/-- A request that writes nothing. -/
def TableRequest.IsReading : TableRequest → Prop
  | .next _ | .close _ => True
  | _ => False

theorem MemoryTable.get?_rows_serve (table : MemoryTable) (request : TableRequest) (id : String) :
    (table.serve request).1.rows.get? id = request.rowAfter id (table.rows.get? id) := by
  cases request with
  | put written details => exact OrderedMap.get?_insert _ _ _ _
  | delete deleted => exact OrderedMap.get?_erase _ _ _
  | next iterator => exact congrArg (fun rows ↦ rows.get? id) (table.rows_next iterator)
  | close iterator => exact congrArg (fun rows ↦ rows.get? id) (table.rows_close iterator)

namespace World

variable {world : World} {number : Nat} {memory : MemoryTable} {faults : List Fault}

/-- A request does to the rows what it says, or a fault fails it and the rows stay as they were. -/
theorem Holds.ask_rows (h : world.Holds number memory faults) {request : TableRequest} {asked : World}
    {answer : TableAnswer} (hask : world.ask number request = (asked, answer)) :
    ∃ rest after, asked.Holds number after rest ∧ (faults = [] → rest = []) ∧
      ((memory.serve request).2 = answer ∧
          (∀ id, asked.row? number id = request.rowAfter id (world.row? number id)) ∨
        faults ≠ [] ∧ (∃ failure, answer = .error failure) ∧
          ∀ id, asked.row? number id = world.row? number id) := by
  obtain ⟨rest, after, hheld, hrest, hserved | ⟨hfaults, hfailed, hafter⟩⟩ := h.ask_cases hask
  · refine ⟨rest, after, hheld, hrest, .inl ⟨congrArg Prod.snd hserved, fun id ↦ ?_⟩⟩
    rw [hheld.row?_eq, h.row?_eq, ← memory.get?_rows_serve request id, hserved]
  · refine ⟨rest, after, hheld, hrest, .inr ⟨hfaults, hfailed, fun id ↦ ?_⟩⟩
    rw [hheld.row?_eq, h.row?_eq]
    rcases hafter with rfl | ⟨iterator, -, rfl⟩
    · rfl
    · rw [memory.rows_close]

/-! ## Loads -/

/-- Two worlds with the same rows that differ in nothing but the log, the iterators and the faults of a table. -/
structure RowsAlike (before : World) (number : Nat) (after : World) : Prop where
  alike : before.manager.Alike after.manager
  observer : after.service.observer = before.service.observer
  held : ∀ {memory faults}, before.Holds number memory faults →
    ∃ read rest, after.Holds number read rest ∧ read.rows = memory.rows ∧ (faults = [] → rest = [])

theorem rowsAlike_withManager (world : World) (number : Nat) {after : Manager}
    (halike : world.manager.Alike after) : world.RowsAlike number (world.withManager after) :=
  ⟨halike, rfl, fun {memory faults} hholds ↦ ⟨memory, faults, hholds, rfl, id⟩⟩

theorem RowsAlike.row? {reached : World} (h : world.RowsAlike number reached)
    (hholds : world.Holds number memory faults) (id : String) :
    reached.row? number id = world.row? number id := by
  obtain ⟨read, rest, hheld, hrows, -⟩ := h.held hholds
  rw [hheld.row?_eq, hholds.row?_eq, hrows]

protected theorem RowsAlike.refl (world : World) (number : Nat) : world.RowsAlike number world where
  alike := .refl world.manager
  observer := rfl
  held {memory faults} hholds := ⟨memory, faults, hholds, rfl, id⟩

/-- A table that is not asked stays as it is. -/
theorem Holds.ask_of_ne (h : world.Holds number memory faults) {other : Nat} (hother : other ≠ number)
    (request : TableRequest) : (world.ask other request).1.Holds number memory faults := by
  unfold ask
  split
  · exact h
  · unfold Holds at h ⊢
    exact (List.getElem?_set_ne hother).trans h

theorem Holds.iterate_of_ne (h : world.Holds number memory faults) {other : Nat} (hother : other ≠ number) :
    (world.iterate other).1.Holds number memory faults := by
  unfold iterate
  split
  · exact h
  · unfold Holds at h ⊢
    exact (List.getElem?_set_ne hother).trans h

/-- Whichever table is read, no rows change. -/
theorem rowsAlike_ask (world : World) (number table : Nat) {request : TableRequest}
    (hreading : request.IsReading) : world.RowsAlike number (world.ask table request).1 where
  alike := world.alike_ask table request
  observer := world.observer_ask table request
  held {memory faults} hholds := by
    by_cases hsame : table = number
    · subst hsame
      cases request with
      | next iterator =>
        obtain ⟨rest, after, hheld, hrows, hrest, -⟩ := hholds.ask_next rfl
        exact ⟨after, rest, hheld, hrows, fun hnone ↦ (hrest hnone).1⟩
      | close iterator =>
        obtain ⟨rest, after, hheld, hrows, hrest⟩ := hholds.ask_close rfl
        exact ⟨after, rest, hheld, hrows, hrest⟩
      | put _ _ | delete _ => exact absurd hreading id
    · exact ⟨memory, faults, hholds.ask_of_ne hsame request, rfl, id⟩

theorem rowsAlike_iterate (world : World) (number table : Nat) :
    world.RowsAlike number (world.iterate table).1 where
  alike := by
    rw [manager_iterate]
    exact .refl world.manager
  observer := by
    unfold iterate
    split <;> rfl
  held {memory faults} hholds := by
    by_cases hsame : table = number
    · subst hsame
      obtain ⟨-, -, rest, after, hheld, hrows, hrest, -⟩ := hholds.iterate_cases rfl
      exact ⟨after, rest, hheld, hrows, hrest⟩
    · exact ⟨memory, faults, hholds.iterate_of_ne hsame, rfl, id⟩

/-- Registering a stored datanode asks nothing of a table. -/
theorem tables_run_stored (world : World) (details : Details) :
    (world.run (.register (world.manager.storedRegistration details))).1.tables = world.tables := by
  cases hplacing : world.manager.placing (world.manager.storedRegistration details) with
  | mk inPlace refusal =>
    cases refusal with
    | some refusal => rw [run_register_refused hplacing]; rfl
    | none => rw [run_register_unwritten hplacing rfl]; rfl

/-- What an iterator over a table in memory has yet to give are rows of the table. -/
def ReadsRows (world : World) (number iterator : Nat) : Prop :=
  ∀ {memory faults}, world.Holds number memory faults → ∀ entry ∈ memory.remaining iterator,
    memory.rows.get? entry.id = some entry.details

section Induction

variable {P : World → Prop}
  (hheld : ∀ {world : World}, P world → ∃ memory faults, world.Holds number memory faults)
  (hread : ∀ {world reached : World}, P world → world.RowsAlike number reached → P reached)
  (hstored : ∀ {world : World} {id : String} {field : Field} {details : Details}, P world →
    world.row? number id = some field → world.manager.screen field = (world.manager, .ok details) →
    P (world.run (.register (world.manager.storedRegistration details))).1)

include hheld hread hstored

/-- What holds through the registration of an admitted row of a table holds while the rows are read. -/
theorem loadRows_induction (h : P world) {iterator : Nat} (hreads : world.ReadsRows number iterator)
    (bound loaded : Nat) : P (loadEntries bound world ⟨number, iterator, loaded⟩).1 := by
  let Reading (world : World) := P world ∧ world.ReadsRows number iterator
  have hended : Reading (loadEntries bound world ⟨number, iterator, loaded⟩).1 := by
    apply loadEntries_induction_given (P := Reading)
      (Q := fun asked entry ↦ asked.row? number entry.id = some entry.details) _ _ _ _ ⟨h, hreads⟩
    · intro world ⟨hready, hreads⟩
      obtain ⟨memory, faults, hholds⟩ := hheld hready
      obtain ⟨rest, after, hafter, hrows, -, -, hremaining⟩ :=
        hholds.ask_next (Prod.eta (world.ask number (.next iterator))).symm
      refine ⟨hread hready (world.rowsAlike_ask number number trivial), fun hasked entry hentry ↦ ?_⟩
      obtain ⟨rfl, -⟩ := hafter.unique hasked
      rw [hrows]
      exact hreads hholds entry (hremaining entry hentry)
    · intro world entry ⟨hready, hreads⟩ hgiven
      obtain ⟨memory, faults, hholds⟩ := hheld hready
      obtain ⟨rest, after, hafter, hrows, -, hfirst, -⟩ :=
        hholds.ask_next (Prod.eta (world.ask number (.next iterator))).symm
      rw [hafter.row?_eq, hrows]
      exact hreads hholds entry (hfirst entry hgiven ▸ List.mem_cons_self)
    · intro world after ⟨hready, hreads⟩ hnoted
      exact ⟨hread hready (world.rowsAlike_withManager number hnoted.alike), hreads⟩
    · intro world entry details ⟨hready, hreads⟩ hrow hscreen
      refine ⟨hstored hready hrow hscreen, fun {memory faults} hholds ↦ ?_⟩
      unfold Holds at hholds
      rw [world.tables_run_stored details] at hholds
      exact hreads hholds
  exact hended.1

/-- What holds through the registration of an admitted row of a table holds through a load of the table, however
far it comes. -/
theorem load_rows_induction (h : P world) (htable : world.manager.table = some number) :
    P world.load.1 := by
  obtain ⟨memory, faults, hholds⟩ := hheld h
  have hopened := hread h (world.rowsAlike_iterate number number)
  unfold load
  rw [htable]
  simp only
  cases hopen : world.iterate number with
  | mk opened outcome =>
    rw [hopen] at hopened
    obtain ⟨-, -, rest, after, hheldAfter, hrows, -, hcases⟩ := hholds.iterate_cases hopen
    rcases hcases with ⟨iterator, rfl, hremaining, -⟩ | ⟨-, failure, rfl⟩
    · have hreads : opened.ReadsRows number iterator := by
        intro held others hother entry hmem
        obtain ⟨rfl, rfl⟩ := hheldAfter.unique hother
        rw [hremaining] at hmem
        rw [hrows]
        exact (memory.mem_sortedRows_iff entry).mp hmem
      have hloaded := loadRows_induction hheld hread hstored hopened hreads
        (opened.entriesLeft number iterator + 1) 0
      have hreading : (TableRequest.close iterator).IsReading := trivial
      have hclosed := hread hloaded (rowsAlike_ask _ number number hreading)
      exact hread hclosed (rowsAlike_withManager _ number (Manager.noted_takeClosed _ _).alike)
    · exact hopened

end Induction

end World

end ClusterMembership
