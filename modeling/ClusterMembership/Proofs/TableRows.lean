import ClusterMembership.Proofs.MemoryTable

/-!
# Rows of any node table

In memory or in a database, a table is a list of rows, each under an identifier.  A request that is carried out puts
one row, leaves one out, or reads.  A table in memory answers from its rows, and so does a database that was given no
answers beforehand: then an answer without an error means that the rows are as they were asked to be.
-/

namespace ClusterMembership

/-- A field in which details of a datanode are written. -/
def Field.Describes (field : Field) (id : String) : Prop :=
  ∃ details, Details.ofField field = .ok details ∧ details.id = id

theorem Details.describes_toValue (details : Details) (id : String) :
    Field.Describes (some details.toValue) id ↔ details.id = id := by
  constructor
  · rintro ⟨given, hgiven, hid⟩
    obtain rfl : details = given := Except.ok.inj hgiven
    exact hid
  · intro hid
    exact ⟨details, rfl, hid⟩

theorem Association.mem_of_mem_put {α : Type} {key : String} {value : α} {entries : List (String × α)}
    {entry : String × α} (h : entry ∈ put key value entries) : entry = (key, value) ∨ entry ∈ entries := by
  induction entries with
  | nil => exact .inl (List.mem_singleton.mp h)
  | cons other rest ih =>
    unfold put at h
    split at h
    · exact (List.mem_cons.mp h).imp_right (List.mem_cons_of_mem other)
    · obtain rfl | hrest := List.mem_cons.mp h
      · exact .inr List.mem_cons_self
      · exact (ih hrest).imp_right (List.mem_cons_of_mem other)

/-! ## Databases -/

namespace Database

def entry (row : Value) : String × Field := (rowId row, some row)

theorem map_entry_store (row : Value) (rows : List Value) :
    (store row rows).map entry = Association.put (rowId row) (some row) (rows.map entry) := by
  induction rows with
  | nil => rfl
  | cons other rest ih =>
    by_cases hsame : rowId other = rowId row
    · simp [store, Association.put, entry, hsame]
    · simp only [store, if_neg hsame, List.map_cons, ih]
      rw [Association.put, if_neg (show ¬ (entry other).1 = rowId row from hsame)]

theorem map_entry_filter (id : String) (rows : List Value) :
    (rows.filter fun row ↦ rowId row ≠ id).map entry = Association.without id (rows.map entry) := by
  unfold Association.without
  rw [List.filter_map]
  rfl

/-- A request that is not answered beforehand is answered from the rows. -/
theorem send_of_nil {database : Database} (h : database.answers = []) (request : DatabaseRequest) :
    database.send request =
      ({ database with
          rows := (answer database.rows request.query).1, requests := database.requests ++ [request] },
        (answer database.rows request.query).2) := by
  unfold send
  simp only [h]

/-- An answer that was given beforehand says nothing of the rows. -/
theorem rows_send_of_cons {database : Database} {given : DatabaseAnswer} {rest : List DatabaseAnswer}
    (h : database.answers = given :: rest) (request : DatabaseRequest) :
    (database.send request).1.rows = database.rows := by
  unfold send
  simp only [h]

end Database

/-! ## Stored details -/

/-- Stored details that are read keep the identifier. -/
theorem StoredDetails.describes_of_read {value : Value} {details : Details} (h : read? value = some details) :
    Field.Describes (some value) details.id := by
  unfold read? at h
  split at h
  · next members =>
    obtain ⟨kept, hkept, rfl⟩ := Option.map_eq_some_iff.mp h
    -- The identity is the first member that is read.
    unfold shape readMembers at hkept
    split at hkept
    · next identity others hidentity _ =>
      have hsame : (Details.mk members).identity = some identity := by
        unfold readText at hidentity
        split at hidentity
        · next text htext => exact htext.trans hidentity
        · cases hidentity
      refine ⟨⟨members⟩, rfl, ?_⟩
      rw [Details.id, hsame, ← Option.some.inj hkept]
      rfl
    · cases hkept
  · cases h

/-! ## Pages -/

/-- What is read from a list is read from its items. -/
theorem exists_mem_of_mapM {α β : Type} {read : α → Except Failure β} {items : List α} {found : List β}
    (h : items.mapM read = .ok found) {value : β} (hmem : value ∈ found) : ∃ item ∈ items, read item = .ok value := by
  induction items generalizing found with
  | nil =>
    obtain rfl : [] = found := by simpa [pure, Except.pure] using h
    cases hmem
  | cons item rest ih =>
    rw [List.mapM_cons] at h
    cases hread : read item with
    | error failure => simp [hread, bind, Except.bind] at h
    | ok first =>
      cases hrest : rest.mapM read with
      | error failure => simp [hread, hrest, bind, Except.bind] at h
      | ok others =>
        obtain rfl : first :: others = found := by simpa [hread, hrest, bind, Except.bind, pure, Except.pure] using h
        obtain rfl | hlater := List.mem_cons.mp hmem
        · exact ⟨item, List.mem_cons_self, hread⟩
        · obtain ⟨other, hother, hvalue⟩ := ih hrest hlater
          exact ⟨other, List.mem_cons_of_mem item hother, hvalue⟩

namespace HostedTable

/-- What an entry describes, the row that it was read from describes. -/
theorem describes_of_readRow {table : HostedTable} {operation : String} {row : Value} {entry : TableEntry}
    (h : table.readRow operation row = .ok entry) {id : String} (hdescribes : entry.details.Describes id) :
    Field.Describes (row.member "details") id := by
  unfold readRow at h
  simp only at h
  split at h
  · next members =>
    split at h
    · next stored details _ hread =>
      obtain rfl := Except.ok.inj h
      obtain ⟨value, hvalue, hdetails⟩ := Option.bind_eq_some_iff.mp hread
      obtain rfl := (Details.describes_toValue _ _).mp hdescribes
      exact (show (Value.object members).member "details" = some value from hvalue) ▸
        StoredDetails.describes_of_read hdetails
    · cases h
    · cases h
  · cases h

theorem iterators_fetch (table : HostedTable) (offset : Nat) :
    (table.fetch offset).1.iterators = table.iterators := by
  unfold fetch
  simp only
  split <;> rfl

/-- A page holds entries of the rows. -/
theorem exists_row_of_fetch {table sent : HostedTable} (hanswers : table.database.answers = []) {offset : Nat}
    {page : List TableEntry} (h : table.fetch offset = (sent, .ok page)) :
    ∀ entry ∈ page, ∃ row ∈ table.database.rows, ∃ operation, table.readRow operation row = .ok entry := by
  unfold fetch send at h
  simp only [Database.send_of_nil hanswers, Database.answer] at h
  have hpage : table.readRows (((Database.sortedRows table.database.rows).drop offset).take table.pageSize) =
      .ok page := congrArg Prod.snd h
  intro entry hentry
  obtain ⟨row, hrow, hread⟩ := exists_mem_of_mapM hpage hentry
  have hsorted := List.mem_of_mem_drop (List.mem_of_mem_take hrow)
  exact ⟨row, List.mem_mergeSort.mp hsorted, "iterate", hread⟩

end HostedTable

namespace TableStore

def rows : TableStore → List (String × Field)
  | memory table => table.rows.entries
  | hosted table => table.database.rows.map Database.entry

def detailsOf : TableStore → Field → Field
  | memory _, row => row
  | hosted _, row => row.member "details"

/-- Nothing but the rows decides about the answers. -/
def AnswersFromRows : TableStore → Prop
  | memory _ => True
  | hosted table => table.database.answers = []

def pending : TableStore → Nat → List TableEntry
  | memory table, iterator => table.remaining iterator
  | hosted table, iterator => ((table.iterators[iterator]?).map HostedIterator.buffer).getD []

end TableStore

/-- What a request can make of rows in which details are read in a certain way. -/
inductive TableRequest.Leads (read : Field → Field) (rows : List (String × Field)) :
    TableRequest → List (String × Field) → Prop
  | put {id : String} {details : Details} {row : Field} (hrow : read row = some details.toValue) :
    Leads read rows (.put id details) (Association.put id row rows)
  | delete (id : String) : Leads read rows (.delete id) (Association.without id rows)
  | same (request : TableRequest) : Leads read rows request rows

/-- A request was carried out or failed. -/
structure TableStore.Serves (request : TableRequest) (before after : TableStore) : Prop where
  rows : request.Leads before.detailsOf before.rows after.rows
  reading : after.detailsOf = before.detailsOf
  answers : before.AnswersFromRows → after.AnswersFromRows

namespace TableStore

/-- Nothing happens to the table. -/
theorem Serves.refl (request : TableRequest) (store : TableStore) : store.Serves request store :=
  ⟨.same request, rfl, fun h ↦ h⟩

/-- Nothing is sent to the database. -/
theorem serves_of_same {request : TableRequest} {before after : HostedTable} (h : after.database = before.database) :
    Serves request (hosted before) (hosted after) where
  rows := by
    unfold rows
    simp only [h]
    exact .same request
  reading := rfl
  answers := by
    unfold AnswersFromRows
    simp only [h]
    exact id

theorem serves_memory (table : MemoryTable) (request : TableRequest) :
    Serves request (memory table) (memory (table.serve request).1) where
  rows := by
    cases request with
    | put id details => exact .put rfl
    | delete id => exact .delete id
    | next iterator =>
      have hrows := congrArg OrderedMap.entries (table.rows_next iterator)
      exact (show (memory (table.next iterator).1).rows = (memory table).rows from hrows) ▸ .same _
    | close iterator =>
      have hrows := congrArg OrderedMap.entries (table.rows_close iterator)
      exact (show (memory (table.close iterator)).rows = (memory table).rows from hrows) ▸ .same _
  reading := rfl
  answers := id

/-- What is sent to a database changes the rows as the database answers, or not at all. -/
theorem serves_sent {request : TableRequest} {before after : HostedTable} {query : DatabaseQuery}
    (hsent : after.database = (before.send query).1.database)
    (hanswer : request.Leads (hosted before).detailsOf (hosted before).rows
      ((Database.answer before.database.rows query).1.map Database.entry)) :
    Serves request (hosted before) (hosted after) where
  rows := by
    unfold rows at hanswer ⊢
    simp only [hsent]
    unfold HostedTable.send
    cases hanswers : before.database.answers with
    | nil =>
      simp only [Database.send_of_nil hanswers]
      exact hanswer
    | cons given rest =>
      simp only [Database.rows_send_of_cons hanswers]
      exact .same request
  reading := rfl
  answers hanswers := by
    unfold AnswersFromRows at hanswers ⊢
    simp only [hsent]
    unfold HostedTable.send
    simp only [Database.send_of_nil hanswers]
    exact hanswers

theorem serves_next (table : HostedTable) (iterator : Nat) :
    Serves (.next iterator) (hosted table) (hosted (table.next iterator).1) := by
  have hfetched (offset : Nat) (after : HostedTable)
      (hsent : after.database = (table.fetch offset).1.database) :
      Serves (.next iterator) (hosted table) (hosted after) := by
    have hfetch : (table.fetch offset).1 =
        (table.send (.selectPage offset (table.lastPlace offset) table.pageSize)).1 := by
      unfold HostedTable.fetch
      simp only
      split <;> rfl
    rw [hfetch] at hsent
    exact serves_sent hsent (.same _)
  unfold HostedTable.next
  split
  · exact serves_of_same rfl
  · exact serves_of_same rfl
  · next held _ _ =>
    split
    · have hpage := hfetched held.offset
      split
      · next sent failure hsent =>
        rw [hsent] at hpage
        exact hpage sent rfl
      · next sent page hsent =>
        rw [hsent] at hpage
        exact hpage _ rfl
    · exact serves_of_same rfl

theorem serves_carryOut (store : TableStore) (now : Instant) (request : TableRequest) :
    Serves request store (Table.carryOut store now request).1 := by
  cases store with
  | memory table =>
    rw [MemoryTable.carryOut_memory]
    exact serves_memory table request
  | hosted table =>
    cases request with
    | put id details =>
      let row := Value.ofFields [("id", some (.text id)), ("details", some details.toValue),
        ("updated_at", some (.text (Instant.text now)))]
      have hput : (Database.store row table.database.rows).map Database.entry =
          Association.put id (some row) (hosted table).rows := Database.map_entry_store row _
      have hsent : (table.put now id (some details.toValue)).1.database = (table.send (.upsert row)).1.database := rfl
      exact serves_sent hsent (hput ▸ .put rfl)
    | delete id =>
      have hdelete : ((table.database.rows.filter fun row ↦ Database.rowId row ≠ id).map Database.entry) =
          Association.without id (hosted table).rows := Database.map_entry_filter id _
      have hsent : (table.delete id).1.database = (table.send (.delete id)).1.database := rfl
      exact serves_sent hsent (hdelete ▸ .delete id)
    | next iterator => exact serves_next table iterator
    | close iterator =>
      have hclosed : (table.close iterator).database = table.database := by
        unfold HostedTable.close
        split <;> rfl
      exact serves_of_same hclosed

theorem serves_perform (table : Table) (now : Instant) (request : TableRequest) :
    Serves request table.store (table.perform now request).1.store := by
  have hcarried := table.store.serves_carryOut now request
  unfold Table.perform
  split
  · exact hcarried
  · split
    · exact hcarried
    · exact .refl request table.store

/-! ## Deletions -/

/-- A deletion that fails leaves the rows, and one that succeeds leaves out the row where the rows decide. -/
theorem rows_delete (table : Table) (now : Instant) (id : String) {after : Table} {note : Option PageNote}
    {answer : TableAnswer} (h : table.perform now (.delete id) = (after, note, answer)) :
    (∀ cause, answer = .error cause → after.store.rows = table.store.rows) ∧
      (table.store.AnswersFromRows → ∀ given, answer = .ok given →
        after.store.rows = Association.without id table.store.rows) := by
  unfold Table.perform at h
  split at h
  · next faults _ =>
    obtain ⟨store, _⟩ := table
    cases store with
    | memory table =>
      simp only [Table.carryOut, Prod.mk.injEq] at h
      obtain ⟨rfl, -, rfl⟩ := h
      exact ⟨nofun, fun _ _ _ ↦ rfl⟩
    | hosted table =>
      have hdelete : ((table.database.rows.filter fun row ↦ Database.rowId row ≠ id).map Database.entry) =
          Association.without id (hosted table).rows := Database.map_entry_filter id _
      simp only [Table.carryOut, HostedTable.delete, HostedTable.send, Prod.mk.injEq] at h
      obtain ⟨rfl, -, rfl⟩ := h
      cases hanswers : table.database.answers with
      | nil =>
        simp only [Database.send_of_nil hanswers]
        exact ⟨nofun, fun _ _ _ ↦ hdelete⟩
      | cons given rest =>
        refine ⟨fun _ _ ↦ ?_, fun hrows ↦ absurd (hanswers.symm.trans hrows) (List.cons_ne_nil _ _)⟩
        unfold rows
        simp only [Database.rows_send_of_cons hanswers]
  · simp only [Prod.mk.injEq] at h
    obtain ⟨rfl, -, rfl⟩ := h
    exact ⟨fun _ _ ↦ rfl, fun _ ↦ nofun⟩

/-! ## Failed writes -/

/-- No row stands under an identifier, and none describes its datanode. -/
def Lacks (store : TableStore) (id : String) : Prop :=
  ∀ row ∈ store.rows, row.1 ≠ id ∧ ¬ (store.detailsOf row.2).Describes id

/-- What an iterator holds does not describe a datanode. -/
def Withholds (store : TableStore) (iterator : Nat) (id : String) : Prop :=
  ∀ entry ∈ store.pending iterator, ¬ entry.details.Describes id

variable {id : String}

/-- A table goes on to lack a datanode when what is written describes the datanode that it is written for. -/
theorem Lacks.of_serves {request : TableRequest} {before after : TableStore} (hlacks : before.Lacks id)
    (hserves : Serves request before after)
    (hother : ∀ written details, request = .put written details → details.id = written ∧ written ≠ id) :
    after.Lacks id := by
  obtain ⟨hrows, hreading, -⟩ := hserves
  unfold Lacks at hlacks ⊢
  rw [hreading]
  generalize hafter : after.rows = rows at hrows
  cases hrows with
  | @put written details row hrow =>
    obtain ⟨hwritten, hne⟩ := hother written details rfl
    intro entry hentry
    obtain rfl | hmem := Association.mem_of_mem_put hentry
    · refine ⟨hne, ?_⟩
      rw [hrow, Details.describes_toValue, hwritten]
      exact hne
    · exact hlacks entry hmem
  | delete deleted => exact fun entry hentry ↦ hlacks entry (List.mem_filter.mp hentry).1
  | same => exact hlacks

theorem withholds_shift (table : HostedTable) (iterator : Nat) (held : HostedIterator)
    (hheld : ∀ entry ∈ held.buffer, ¬ entry.details.Describes id) :
    (hosted (table.shift iterator held).1).Withholds iterator id ∧
      ∀ entry, (table.shift iterator held).2 = some entry → ¬ entry.details.Describes id := by
  refine ⟨fun entry hentry ↦ ?_, fun entry hentry ↦ hheld entry (List.mem_of_head? hentry)⟩
  have htail : entry ∈ held.buffer.tail := by
    unfold pending HostedTable.shift HostedTable.setIterator at hentry
    simp only [List.getElem?_set, if_pos] at hentry
    split at hentry
    · exact hentry
    · exact absurd hentry List.not_mem_nil
  exact hheld entry (List.mem_of_mem_tail htail)

theorem withholds_next_hosted (table : HostedTable) {iterator : Nat} (hanswers : (hosted table).AnswersFromRows)
    (hlacks : (hosted table).Lacks id) (hwithholds : (hosted table).Withholds iterator id) :
    (hosted (table.next iterator).1).Withholds iterator id ∧
      ∀ entry, (table.next iterator).2.2 = .ok (some entry) → ¬ entry.details.Describes id := by
  unfold HostedTable.next
  split
  · exact ⟨hwithholds, nofun⟩
  · exact ⟨hwithholds, nofun⟩
  · next held _ hheld =>
    split
    · split
      · next sent failure hfetch =>
        have hiterators := table.iterators_fetch held.offset
        rw [hfetch] at hiterators
        have hsame : (hosted sent).pending iterator = (hosted table).pending iterator := by
          unfold pending
          simp only [show sent.iterators = table.iterators from hiterators]
        exact ⟨fun entry hentry ↦ hwithholds entry (hsame ▸ hentry), nofun⟩
      · next sent page hfetch =>
        -- A page that was fetched holds entries of the rows.
        have hpage : ∀ entry ∈ page, ¬ entry.details.Describes id := by
          intro entry hentry hdescribes
          obtain ⟨row, hrow, operation, hread⟩ := HostedTable.exists_row_of_fetch hanswers hfetch entry hentry
          exact (hlacks _ (List.mem_map_of_mem hrow)).2 (HostedTable.describes_of_readRow hread hdescribes)
        obtain ⟨hpending, hgiven⟩ := withholds_shift sent iterator (sent.turned held page) hpage
        exact ⟨hpending, fun entry hentry ↦ hgiven entry (Except.ok.inj hentry)⟩
    · have hbuffer : (hosted table).pending iterator = held.buffer := by
        unfold pending
        simp only [hheld]
        rfl
      obtain ⟨hpending, hgiven⟩ := withholds_shift table iterator held fun entry hentry ↦
        hwithholds entry (hbuffer ▸ hentry)
      exact ⟨hpending, fun entry hentry ↦ hgiven entry (Except.ok.inj hentry)⟩

/-- What is read from a table that lacks a datanode does not describe the datanode. -/
theorem withholds_next (table : Table) (now : Instant) {iterator : Nat} {after : Table} {note : Option PageNote}
    {answer : TableAnswer} (h : table.perform now (.next iterator) = (after, note, answer))
    (hanswers : table.store.AnswersFromRows) (hlacks : table.store.Lacks id)
    (hwithholds : table.store.Withholds iterator id) :
    after.store.Withholds iterator id ∧ ∀ entry, answer = .ok (some entry) → ¬ entry.details.Describes id := by
  unfold Table.perform at h
  split at h
  · next faults _ =>
    obtain ⟨store, _⟩ := table
    cases store with
    | memory table =>
      simp only [Table.carryOut, Prod.mk.injEq] at h
      obtain ⟨rfl, -, rfl⟩ := h
      refine ⟨fun entry hentry ↦ hwithholds entry (MemoryTable.mem_remaining_of_next hentry), fun entry hanswer ↦ ?_⟩
      have hfirst := MemoryTable.next_eq_some (Prod.ext rfl hanswer)
      exact hwithholds entry ((show (memory table).pending iterator = _ from hfirst) ▸ List.mem_cons_self)
    | hosted table =>
      simp only [Table.carryOut, Prod.mk.injEq] at h
      obtain ⟨rfl, -, rfl⟩ := h
      exact withholds_next_hosted table hanswers hlacks hwithholds
  · simp only [Prod.mk.injEq] at h
    obtain ⟨rfl, -, rfl⟩ := h
    exact ⟨hwithholds, nofun⟩

/-- An iterator that is opened over a table that lacks a datanode holds nothing that describes it. -/
theorem withholds_iterate (table : Table) (hlacks : table.store.Lacks id) {after : Table} {iterator : Nat}
    (h : table.iterate = (after, .ok iterator)) : after.store.Withholds iterator id := by
  unfold Table.iterate at h
  split at h
  · obtain ⟨store, _⟩ := table
    cases store with
    | memory table =>
      simp only [Table.openIterator, MemoryTable.iterate, Prod.mk.injEq, Except.ok.injEq] at h
      obtain ⟨rfl, rfl⟩ := h
      intro entry hentry
      have hrow : entry ∈ table.sortedRows := by
        simpa [pending, MemoryTable.remaining] using hentry
      rw [MemoryTable.mem_sortedRows_iff, OrderedMap.get?_eq_some_iff] at hrow
      exact (hlacks _ hrow).2
    | hosted table =>
      simp only [Table.openIterator, HostedTable.iterate, Prod.mk.injEq, Except.ok.injEq] at h
      obtain ⟨rfl, rfl⟩ := h
      intro entry hentry
      simp [pending] at hentry
  · simp at h

theorem serves_iterate (table : Table) (request : TableRequest) : Serves request table.store table.iterate.1.store := by
  unfold Table.iterate
  split
  · obtain ⟨store, _⟩ := table
    cases store with
    | memory table => exact ⟨.same request, rfl, fun h ↦ h⟩
    | hosted table => exact serves_of_same rfl
  · exact .refl request table.store

end TableStore

namespace World

def store? (world : World) (number : Nat) : Option TableStore := (world.tables[number]?).map Table.store

def rowsOf (world : World) (number : Nat) : List (String × Field) :=
  ((world.store? number).map TableStore.rows).getD []

/-- The table with a number answers from its rows. -/
def AnswersFromRows (world : World) (number : Nat) : Prop :=
  ∀ store, world.store? number = some store → store.AnswersFromRows

/-- The table with a number has no row of a datanode. -/
def Lacks (world : World) (number : Nat) (id : String) : Prop :=
  ∀ store, world.store? number = some store → store.Lacks id

variable {world : World} {number : Nat}

theorem store?_of_tables {after : World} (h : after.tables = world.tables) (number : Nat) :
    after.store? number = world.store? number := by
  rw [store?, h, store?]

theorem rowsOf_of_store? {after : World} (h : after.store? number = world.store? number) :
    after.rowsOf number = world.rowsOf number := by
  rw [rowsOf, h, rowsOf]

theorem ask_of_absent (h : world.store? number = none) (request : TableRequest) :
    world.ask number request = (world, .ok none) := by
  unfold ask
  rw [Option.map_eq_none_iff.mp h]

theorem store?_ask_of_ne (world : World) {other : Nat} (hother : other ≠ number) (request : TableRequest) :
    (world.ask number request).1.store? other = world.store? other := by
  unfold ask
  split
  · rfl
  · exact congrArg (Option.map Table.store) (List.getElem?_set_ne hother.symm)

/-- A table is asked, and answers. -/
theorem ask_eq {table : Table} (h : world.tables[number]? = some table) (request : TableRequest) :
    ∃ after note, table.perform world.clock request = (after, note, (world.ask number request).2) ∧
      (world.ask number request).1.store? number = some after.store := by
  unfold ask
  rw [h]
  refine ⟨_, _, rfl, ?_⟩
  have hlength : number < world.tables.length := (List.getElem?_eq_some_iff.mp h).1
  unfold store? mapManager withManager
  rw [List.getElem?_set_self hlength]
  rfl

theorem exists_serves_ask {store : TableStore} (h : world.store? number = some store) (request : TableRequest) :
    ∃ after, (world.ask number request).1.store? number = some after ∧ store.Serves request after := by
  obtain ⟨table, htable, rfl⟩ := Option.map_eq_some_iff.mp h
  obtain ⟨after, note, hperform, hafter⟩ := ask_eq htable request
  have hserves := TableStore.serves_perform table world.clock request
  rw [hperform] at hserves
  exact ⟨after.store, hafter, hserves⟩

/-- However a request comes to a table, every table has served it or has been left alone. -/
theorem exists_serves_of_ask {request : TableRequest} {other : Nat} {after : TableStore}
    (h : (world.ask number request).1.store? other = some after) :
    ∃ before, world.store? other = some before ∧ before.Serves request after := by
  by_cases hsame : other = number
  · subst hsame
    cases hstore : world.store? other with
    | none =>
      rw [ask_of_absent hstore, hstore] at h
      cases h
    | some before =>
      obtain ⟨reached, hreached, hserves⟩ := exists_serves_ask hstore request
      exact ⟨before, rfl, Option.some.inj (hreached.symm.trans h) ▸ hserves⟩
  · rw [world.store?_ask_of_ne hsame] at h
    exact ⟨after, h, .refl request after⟩

/-- A deletion that fails leaves the rows of the table, and one that succeeds leaves out a row. -/
theorem rowsOf_ask_delete (world : World) (number : Nat) (id : String) :
    (∀ cause, (world.ask number (.delete id)).2 = .error cause →
      (world.ask number (.delete id)).1.rowsOf number = world.rowsOf number) ∧
    (world.AnswersFromRows number → ∀ given, (world.ask number (.delete id)).2 = .ok given →
      (world.ask number (.delete id)).1.rowsOf number = Association.without id (world.rowsOf number)) := by
  cases hstore : world.store? number with
  | none =>
    rw [ask_of_absent hstore]
    refine ⟨nofun, fun _ _ _ ↦ ?_⟩
    unfold rowsOf
    rw [hstore]
    rfl
  | some store =>
    obtain ⟨table, htable, rfl⟩ := Option.map_eq_some_iff.mp hstore
    obtain ⟨after, note, hperform, hafter⟩ := ask_eq htable (.delete id)
    obtain ⟨hfailed, hdeleted⟩ := TableStore.rows_delete table world.clock id hperform
    unfold rowsOf
    rw [hafter, hstore]
    exact ⟨hfailed, fun hanswers ↦ hdeleted (hanswers _ hstore)⟩

theorem store?_iterate_of_ne (world : World) {other : Nat} (hother : other ≠ number) :
    (world.iterate number).1.store? other = world.store? other := by
  unfold iterate
  split
  · rfl
  · exact congrArg (Option.map Table.store) (List.getElem?_set_ne hother.symm)

/-- An iterator over a table is opened, or it fails. -/
theorem iterate_eq {table : Table} (h : world.tables[number]? = some table) :
    ∃ after, table.iterate = (after, (world.iterate number).2) ∧
      (world.iterate number).1.store? number = some after.store := by
  unfold iterate
  rw [h]
  refine ⟨_, rfl, ?_⟩
  have hlength : number < world.tables.length := (List.getElem?_eq_some_iff.mp h).1
  unfold store?
  rw [List.getElem?_set_self hlength]
  rfl

theorem exists_serves_of_iterate (request : TableRequest) {other : Nat} {after : TableStore}
    (h : (world.iterate number).1.store? other = some after) :
    ∃ before, world.store? other = some before ∧ before.Serves request after := by
  by_cases hsame : other = number
  · subst hsame
    cases htable : world.tables[other]? with
    | none =>
      have hstore : world.store? other = none := Option.map_eq_none_iff.mpr htable
      unfold iterate at h
      rw [htable] at h
      exact absurd (hstore.symm.trans h) nofun
    | some table =>
      obtain ⟨opened, hopened, hreached⟩ := iterate_eq htable
      have hserves := TableStore.serves_iterate table request
      rw [hopened] at hserves
      exact ⟨table.store, congrArg (Option.map Table.store) htable, Option.some.inj (hreached.symm.trans h) ▸ hserves⟩
  · rw [world.store?_iterate_of_ne hsame] at h
    exact ⟨after, h, .refl request after⟩

end World

end ClusterMembership
