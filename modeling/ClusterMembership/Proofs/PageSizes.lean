import ClusterMembership.Proofs.InterruptedLoad

/-!
# What the size of a page changes

The rows of a page are read all together before the first of them is given.  So what an iterator gives of a table with
a row that cannot be read is not every entry before that row, but the entries of the whole pages before it, and how many
these are depends on the size of a page.  It does not when every row can be read, nor when a page ends just before the
row that cannot.  A load registers what its iterator gives, and differs between two page sizes as far as that does.
-/

namespace ClusterMembership

/-! ## Reading row by row -/

namespace HostedTable

variable (table : HostedTable)

/-- The entries of the rows before the first that cannot be read, and the failure to read that one. -/
def readAhead : List Value → List TableEntry × Option Failure
  | [] => ([], none)
  | row :: rest =>
    match table.readRow "iterate" row with
    | .error failure => ([], some failure)
    | .ok entry => (entry :: (readAhead rest).1, (readAhead rest).2)

/-- What is read of the rows of a table in ascending order of identifier. -/
def listing : List TableEntry × Option Failure := table.readAhead (Database.sortedRows table.database.rows)

def wholePages (size : Nat) (read : List TableEntry × Option Failure) : List TableEntry :=
  if read.2 = none then read.1 else read.1.take (size * (read.1.length / size))

def sized (size : Nat) : HostedTable := { table with pageSize := size }

variable {table}

theorem readAhead_cons_of_error {row : Value} {failure : Failure} (h : table.readRow "iterate" row = .error failure)
    (rest : List Value) : table.readAhead (row :: rest) = ([], some failure) := by
  rw [readAhead, h]

theorem readAhead_cons_of_ok {row : Value} {entry : TableEntry} (h : table.readRow "iterate" row = .ok entry)
    (rest : List Value) :
    table.readAhead (row :: rest) = (entry :: (table.readAhead rest).1, (table.readAhead rest).2) := by
  rw [readAhead, h]

/-- A page is read exactly as its rows are, one after another, but for the entries before a row that cannot be read. -/
theorem readRows_eq (table : HostedTable) (rows : List Value) :
    table.readRows rows = match (table.readAhead rows).2 with
      | none => .ok (table.readAhead rows).1
      | some failure => .error failure := by
  unfold readRows
  induction rows with
  | nil => rfl
  | cons row rest ih =>
    rw [List.mapM_cons, ih]
    cases hrow : table.readRow "iterate" row with
    | error failure =>
      rw [readAhead_cons_of_error hrow]
      rfl
    | ok entry =>
      rw [readAhead_cons_of_ok hrow]
      cases (table.readAhead rest).2 <;> rfl

/-- Of the first rows, as much is read as there is before the row that cannot be read. -/
theorem readAhead_take (table : HostedTable) (rows : List Value) (size : Nat) :
    table.readAhead (rows.take size) =
      if (table.readAhead rows).1.length < size then table.readAhead rows
      else ((table.readAhead rows).1.take size, none) := by
  induction rows generalizing size with
  | nil => cases size <;> rfl
  | cons row rest ih =>
    cases size with
    | zero => rfl
    | succ size =>
      rw [List.take_succ_cons]
      cases hrow : table.readRow "iterate" row with
      | error failure => simp [readAhead_cons_of_error hrow]
      | ok entry =>
        simp only [readAhead_cons_of_ok hrow, ih, List.length_cons, Nat.add_lt_add_iff_right]
        split <;> rfl

/-- Behind rows that can be read, reading goes on. -/
theorem readAhead_drop (table : HostedTable) {rows : List Value} {size : Nat}
    (h : size ≤ (table.readAhead rows).1.length) :
    table.readAhead (rows.drop size) = ((table.readAhead rows).1.drop size, (table.readAhead rows).2) := by
  induction rows generalizing size with
  | nil =>
    obtain rfl : size = 0 := Nat.le_zero.mp h
    rfl
  | cons row rest ih =>
    cases size with
    | zero => rfl
    | succ size =>
      rw [List.drop_succ_cons]
      cases hrow : table.readRow "iterate" row with
      | error failure => simp [readAhead_cons_of_error hrow] at h
      | ok entry =>
        rw [readAhead_cons_of_ok hrow] at h ⊢
        exact ih (Nat.le_of_succ_le_succ h)

theorem readAhead_sized (table : HostedTable) (size : Nat) (rows : List Value) :
    (table.sized size).readAhead rows = table.readAhead rows := by
  induction rows with
  | nil => rfl
  | cons row rest ih =>
    rw [readAhead, ih]
    rfl

theorem length_readAhead_le (table : HostedTable) (rows : List Value) :
    (table.readAhead rows).1.length ≤ rows.length := by
  induction rows with
  | nil => exact Nat.le_refl 0
  | cons row rest ih =>
    cases hrow : table.readRow "iterate" row with
    | error failure =>
      rw [readAhead_cons_of_error hrow]
      exact Nat.zero_le _
    | ok entry =>
      rw [readAhead_cons_of_ok hrow]
      exact Nat.succ_le_succ ih

/-! ## Whole pages -/

variable {size : Nat} {read : List TableEntry × Option Failure}

theorem wholePages_of_none (size : Nat) (h : read.2 = none) : wholePages size read = read.1 := if_pos h

theorem wholePages_of_some (size : Nat) (h : read.2 ≠ none) :
    wholePages size read = read.1.take (size * (read.1.length / size)) := if_neg h

/-- The first page that fails gives nothing. -/
theorem wholePages_of_lt (hread : read.2 ≠ none) (hlength : read.1.length < size) : wholePages size read = [] := by
  rw [wholePages_of_some size hread, Nat.div_eq_of_lt hlength, Nat.mul_zero, List.take_zero]

/-- A page that can be read is given before the pages behind it. -/
theorem wholePages_of_le (hpositive : 0 < size) (hlength : size ≤ read.1.length) :
    wholePages size read = read.1.take size ++ wholePages size (read.1.drop size, read.2) := by
  by_cases hread : read.2 = none
  · have hrest : wholePages size (read.1.drop size, read.2) = read.1.drop size := wholePages_of_none size hread
    rw [hrest, wholePages_of_none size hread, List.take_append_drop]
  · have hrest : wholePages size (read.1.drop size, read.2) =
        (read.1.drop size).take (size * ((read.1.drop size).length / size)) := wholePages_of_some size hread
    have hpages : size * (read.1.length / size) = size + size * ((read.1.length - size) / size) := by
      rw [Nat.div_eq_sub_div hpositive hlength, Nat.mul_add, Nat.mul_one, Nat.add_comm]
    rw [hrest, wholePages_of_some size hread, List.length_drop, hpages, List.take_add]

theorem wholePages_eq_iff (size other : Nat) :
    wholePages size read = wholePages other read ↔
      read.2 = none ∨ size * (read.1.length / size) = other * (read.1.length / other) := by
  by_cases hread : read.2 = none
  · rw [wholePages_of_none size hread, wholePages_of_none other hread]
    exact iff_of_true rfl (.inl hread)
  · rw [wholePages_of_some size hread, wholePages_of_some other hread, or_iff_right hread]
    refine ⟨fun h ↦ ?_, fun h ↦ h ▸ rfl⟩
    have hlength := congrArg List.length h
    rwa [List.length_take, List.length_take, Nat.min_eq_left (Nat.mul_div_le _ _),
      Nat.min_eq_left (Nat.mul_div_le _ _)] at hlength

/-- Pages give every entry before the row that cannot be read exactly if one of them ends there. -/
theorem wholePages_eq_fst_iff (size : Nat) :
    wholePages size read = read.1 ↔ read.2 = none ∨ size ∣ read.1.length := by
  have hsingle : wholePages 1 read = read.1 := by
    unfold wholePages
    split
    · rfl
    · rw [Nat.div_one, Nat.one_mul, List.take_length]
  rw [← hsingle, wholePages_eq_iff, hsingle, Nat.div_one, Nat.one_mul, Nat.dvd_iff_div_mul_eq, Nat.mul_comm]

/-! ## Giving page by page -/

/-- An iterator over the rows of a table, of whose database nothing else has changed but the requests. -/
structure IsAt (source : HostedTable) (number : Nat) (held : HostedIterator) (table : HostedTable) : Prop where
  rows : table.database.rows = source.database.rows
  answers : table.database.answers = []
  pageSize : table.pageSize = source.pageSize
  name : table.name = source.name
  held : table.iterators[number]? = some held

variable {source : HostedTable} {number offset : Nat} {held : HostedIterator}

theorem IsAt.readRows (h : IsAt source number held table) (rows : List Value) :
    table.readRows rows = source.readRows rows := by
  have hrow : table.readRow = source.readRow := by
    unfold readRow
    rw [h.name]
  unfold HostedTable.readRows
  rw [hrow]

theorem IsAt.page (h : IsAt source number held table) (offset : Nat) :
    table.page offset = ((Database.sortedRows source.database.rows).drop offset).take source.pageSize := by
  rw [HostedTable.page, h.rows, h.pageSize]

theorem IsAt.set (h : IsAt source number held table) (other : HostedIterator) :
    IsAt source number other (table.setIterator number other) :=
  ⟨h.rows, h.answers, h.pageSize, h.name, List.getElem?_set_self (List.getElem?_eq_some_iff.mp h.held).1⟩

theorem IsAt.noted (h : IsAt source number held table) (request : DatabaseRequest) :
    IsAt source number held (table.noted request) :=
  ⟨h.rows, h.answers, h.pageSize, h.name, h.held⟩

theorem isAt_iterate (hanswers : table.database.answers = []) :
    IsAt table table.iterate.2 ⟨0, [], false, false⟩ table.iterate.1 :=
  ⟨rfl, hanswers, rfl, rfl, List.getElem?_concat_length⟩

section Reading

variable {faults : List Fault} (hreadable : Table.IsReadable ⟨.hosted source, faults⟩) {now : Instant}
  {given : List TableEntry} {ending : Option Failure}

include hreadable

theorem reads_of_given {after : HostedTable} {note : Option PageNote} {entry : TableEntry}
    (hnext : table.next number = (after, note, .ok (some entry)))
    (hrest : Table.Reads now number ⟨.hosted after, faults⟩ given ending) :
    Table.Reads now number ⟨.hosted table, faults⟩ (entry :: given) ending := by
  have hstill : Table.IsReadable ⟨.hosted table, faults⟩ := hreadable
  have hperform : Table.perform ⟨.hosted table, faults⟩ now (.next number) =
      (⟨.hosted after, faults⟩, note, .ok (some entry)) := by
    rw [Table.perform_next hstill]
    simp only [Table.carryOut, hnext]
  refine .given (congrArg (·.2.2) hperform) ?_
  rw [hperform]
  exact hrest

theorem reads_of_end (hnext : (table.next number).2.2 = .ok none) :
    Table.Reads now number ⟨.hosted table, faults⟩ [] none := by
  have hstill : Table.IsReadable ⟨.hosted table, faults⟩ := hreadable
  refine .ended ?_
  rw [Table.perform_next hstill]
  exact hnext

theorem reads_of_failure {failure : Failure} (hnext : (table.next number).2.2 = .error failure) :
    Table.Reads now number ⟨.hosted table, faults⟩ [] (some failure) := by
  have hstill : Table.IsReadable ⟨.hosted table, faults⟩ := hreadable
  refine .failed ?_
  rw [Table.perform_next hstill]
  exact hnext

/-- What an iterator holds is given before what comes behind it. -/
theorem reads_of_buffer {buffer : List TableEntry} {exhausted : Bool}
    (h : IsAt source number ⟨offset, buffer, exhausted, false⟩ table)
    (hrest : ∀ {after}, IsAt source number ⟨offset, [], exhausted, false⟩ after →
      Table.Reads now number ⟨.hosted after, faults⟩ given ending) :
    Table.Reads now number ⟨.hosted table, faults⟩ (buffer ++ given) ending := by
  induction buffer generalizing table with
  | nil => exact hrest h
  | cons entry rest ih => exact reads_of_given hreadable (next_of_cons h.held) (ih (h.set _))

/-- The entries of a page are given before what comes behind it. -/
theorem reads_of_page (h : IsAt source number ⟨offset, [], false, false⟩ table) {entries : List TableEntry}
    (hpage : table.readRows (table.page offset) = .ok entries) (hentries : entries ≠ [])
    (hrest : ∀ {after}, IsAt source number
        ⟨offset + entries.length, [], entries.length < source.pageSize, false⟩ after →
      Table.Reads now number ⟨.hosted after, faults⟩ given ending) :
    Table.Reads now number ⟨.hosted table, faults⟩ (entries ++ given) ending := by
  have hnext := next_of_page h.held h.answers ((table.readRows_eq_ok_iff _ _).mp hpage)
  rw [h.pageSize] at hnext
  obtain ⟨entry, rest, rfl⟩ := List.exists_cons_of_ne_nil hentries
  exact reads_of_given hreadable hnext (reads_of_buffer hreadable ((h.noted _).set _) hrest)

/-- A page that cannot be read ends the reading, and nothing of it is given. -/
theorem reads_of_last (h : IsAt source number ⟨offset, [], false, false⟩ table)
    {read : List TableEntry × Option Failure}
    (hpage : table.readRows (table.page offset) = match read.2 with
      | none => .ok read.1
      | some failure => .error failure) (hlast : read.1.length < source.pageSize) :
    Table.Reads now number ⟨.hosted table, faults⟩ (wholePages source.pageSize read) read.2 := by
  obtain ⟨entries, failure⟩ := read
  cases failure with
  | some failure =>
    rw [wholePages_of_lt (Option.some_ne_none failure) hlast]
    exact reads_of_failure hreadable (next_of_failed h.held h.answers hpage)
  | none =>
    cases entries with
    | nil =>
      have hnext := next_of_page h.held h.answers ((table.readRows_eq_ok_iff _ _).mp hpage)
      exact reads_of_end hreadable (congrArg (·.2.2) hnext)
    | cons entry rest =>
      have hread : Table.Reads now number ⟨.hosted table, faults⟩ ((entry :: rest) ++ []) none := by
        refine reads_of_page hreadable h hpage (List.cons_ne_nil entry rest) fun {after} hafter ↦ ?_
        rw [decide_eq_true hlast] at hafter
        exact reads_of_end hreadable (congrArg (·.2.2) (next_of_exhausted hafter.held))
      rwa [List.append_nil] at hread

/-- From a place on, an iterator gives the whole pages of what can be read from there. -/
theorem reads_of_isAt (hpositive : 0 < source.pageSize) (h : IsAt source number ⟨offset, [], false, false⟩ table) :
    Table.Reads now number ⟨.hosted table, faults⟩
      (wholePages source.pageSize (source.readAhead ((Database.sortedRows source.database.rows).drop offset)))
      (source.readAhead ((Database.sortedRows source.database.rows).drop offset)).2 := by
  induction hbehind : (Database.sortedRows source.database.rows).length - offset using Nat.strong_induction_on
    generalizing table offset with
  | h behind ih =>
    let rows := (Database.sortedRows source.database.rows).drop offset
    have hpage : table.readRows (table.page offset) = _ :=
      ((h.readRows _).trans (congrArg source.readRows (h.page offset))).trans
        (source.readRows_eq (rows.take source.pageSize))
    rw [source.readAhead_take rows source.pageSize] at hpage
    change Table.Reads now number ⟨.hosted table, faults⟩ (wholePages source.pageSize (source.readAhead rows))
      (source.readAhead rows).2
    by_cases hlast : (source.readAhead rows).1.length < source.pageSize
    · rw [if_pos hlast] at hpage
      exact reads_of_last hreadable h hpage hlast
    · have hfull : source.pageSize ≤ (source.readAhead rows).1.length := Nat.le_of_not_lt hlast
      have hlength : ((source.readAhead rows).1.take source.pageSize).length = source.pageSize := by
        rw [List.length_take, Nat.min_eq_left hfull]
      have hmore : source.pageSize ≤ (Database.sortedRows source.database.rows).length - offset := by
        have hrows := source.length_readAhead_le rows
        rw [List.length_drop] at hrows
        exact hfull.trans hrows
      rw [if_neg hlast] at hpage
      rw [wholePages_of_le hpositive hfull]
      have hgiven := List.ne_nil_of_length_pos (hpositive.trans_eq hlength.symm)
      refine reads_of_page hreadable h hpage hgiven fun {after} hafter ↦ ?_
      rw [hlength, decide_eq_false (Nat.lt_irrefl _)] at hafter
      have hrest := ih _ (by omega) hafter rfl
      rwa [← List.drop_drop, source.readAhead_drop hfull] at hrest

/-- An iterator just opened gives the entries of the whole pages before the row that cannot be read, and fails there;
if there is none such, it gives all entries and ends. -/
theorem reads_iterate {size : Nat} (hpositive : 0 < size) (hanswers : source.database.answers = []) (now : Instant) :
    Table.Reads now (source.sized size).iterate.2 ⟨.hosted (source.sized size).iterate.1, faults⟩
      (wholePages size source.listing) source.listing.2 := by
  have hstill : Table.IsReadable ⟨.hosted (source.sized size), faults⟩ := hreadable
  have hat : IsAt (source.sized size) (source.sized size).iterate.2 ⟨0, [], false, false⟩
      (source.sized size).iterate.1 := isAt_iterate hanswers
  have hreads : Table.Reads now (source.sized size).iterate.2 ⟨.hosted (source.sized size).iterate.1, faults⟩ _ _ :=
    reads_of_isAt hstill hpositive hat
  rw [List.drop_zero, readAhead_sized] at hreads
  exact hreads

end Reading

end HostedTable

/-! ## Loading by page -/

namespace World

variable {world : World} {number : Nat} {hosted : HostedTable} {faults : List Fault}

def paged (world : World) (number : Nat) (hosted : HostedTable) (faults : List Fault) (size : Nat) : World :=
  { world with tables := world.tables.set number ⟨.hosted (hosted.sized size), faults⟩ }

/-- To tell of a load changes neither the log nor the tables. -/
theorem aside_tellLoad_aside (world : World) (log other : List LogEntry) (tables others : List Table) (failed : Bool) :
    ((world.aside log tables).tellLoad failed).aside other others = (world.tellLoad failed).aside other others := rfl

/-- A load registers the datanodes of the whole pages before the row that cannot be read. -/
theorem exists_load_paged (huses : world.manager.table = some number) (hnumber : number < world.tables.length)
    (hreadable : Table.IsReadable ⟨.hosted hosted, faults⟩) (hanswers : hosted.database.answers = []) {size : Nat}
    (hpositive : 0 < size) :
    let given := HostedTable.wholePages size hosted.listing
    let registered := world.registerStored (TableEntry.admittedAhead given)
    ∃ log tables, (world.paged number hosted faults size).load =
      ((registered.1.tellLoad (TableEntry.interrupted given hosted.listing.2)).aside log tables,
        .ok (.count registered.2.length)) := by
  intro given registered
  let table : Table := ⟨.hosted (hosted.sized size), faults⟩
  have htable : (world.paged number hosted faults size).tables[number]? = some table :=
    List.getElem?_set_self hnumber
  have hstill : table.IsReadable := hreadable
  have huses : (world.paged number hosted faults size).manager.table = some number := huses
  obtain ⟨log, hload⟩ := exists_load_of_reads huses htable (Table.iterate_eq hstill)
    (HostedTable.reads_iterate hreadable hpositive hanswers _)
  obtain ⟨rest, hregistered⟩ := world.exists_registerStored_aside world.manager.trace.entries
    (world.tables.set number table) (TableEntry.admittedAhead given)
  have hpaged : (world.paged number hosted faults size).registerStored (TableEntry.admittedAhead given) =
      (registered.1.aside rest (world.tables.set number table), registered.2) := hregistered
  rw [hpaged, aside_tellLoad_aside] at hload
  exact ⟨log, _, hload⟩

/-- An iterator over a hosted table gives the entries of the whole pages before the row that cannot be read, and fails
with the failure to read that row; if every row can be read, it gives them all and ends.  It gives every row before the
one that cannot be read exactly if a page ends there.  A load registers what its iterator gives, and is answered with
the number of those registered with success.  Two page sizes give the same exactly if every row can be read or their
whole pages reach equally far, and then a load is answered alike and leaves the same behind but for the log and the
reading of the table. -/
theorem loads_by_page_size (huses : world.manager.table = some number) (hnumber : number < world.tables.length)
    (hreadable : Table.IsReadable ⟨.hosted hosted, faults⟩) (hanswers : hosted.database.answers = []) :
    let read := hosted.listing
    let given (size : Nat) := HostedTable.wholePages size read
    let load (size : Nat) := (world.paged number hosted faults size).load
    (∀ size > 0,
      (∃ opened iterator, Table.iterate ⟨.hosted (hosted.sized size), faults⟩ = (opened, .ok iterator) ∧
        opened.Reads world.clock iterator (given size) read.2) ∧
      (given size = read.1 ↔ read.2 = none ∨ size ∣ read.1.length) ∧
      let registered := world.registerStored (TableEntry.admittedAhead (given size))
      ∃ log tables, load size =
        ((registered.1.tellLoad (TableEntry.interrupted (given size) read.2)).aside log tables,
          .ok (.count registered.2.length))) ∧
    ∀ size > 0, ∀ other > 0,
      (given size = given other ↔
        read.2 = none ∨ size * (read.1.length / size) = other * (read.1.length / other)) ∧
      (given size = given other →
        (load size).2 = (load other).2 ∧ ∃ log tables, (load other).1 = (load size).1.aside log tables) := by
  intro read given load
  refine ⟨fun size hsize ↦ ⟨?_, ?_, ?_⟩, fun size hsize other hother ↦ ⟨?_, fun hsame ↦ ?_⟩⟩
  · have hstill : Table.IsReadable ⟨.hosted (hosted.sized size), faults⟩ := hreadable
    exact ⟨_, _, Table.iterate_eq hstill, HostedTable.reads_iterate hreadable hsize hanswers _⟩
  · exact HostedTable.wholePages_eq_fst_iff size
  · exact exists_load_paged huses hnumber hreadable hanswers hsize
  · exact HostedTable.wholePages_eq_iff size other
  · obtain ⟨log, tables, hload⟩ := exists_load_paged huses hnumber hreadable hanswers hsize
    obtain ⟨log', tables', hload'⟩ := exists_load_paged huses hnumber hreadable hanswers hother
    rw [← show given size = HostedTable.wholePages other hosted.listing from hsame] at hload'
    exact ⟨(congrArg Prod.snd hload).trans (congrArg Prod.snd hload').symm, log', tables',
      (congrArg Prod.fst hload').trans (by rw [show load size = _ from hload]; rfl)⟩

/-- With pages of one row a load registers the datanode before a row that cannot be read, and with pages of two rows it
does not. -/
theorem loads_by_page_size_before_unreadable :
    let details := Details.whole "0f8fad5b-d9cb-469f-a165-70867728950e"
    let rows := [HostedTable.rowOf 0 details.id (some details.toValue),
      HostedTable.rowOf 0 "7c9e6679-7425-40de-944b-e07fc1f90ae7" (some .null)]
    let hosted : HostedTable := ⟨.create rows [], HostedTable.standardName, HostedTable.standardPageSize, []⟩
    let world : World := ⟨Service.make { table := some 0, clock := 0 } .default, [.ofStore (.hosted hosted)]⟩
    world.manager.table = some 0 ∧ Table.IsReadable ⟨.hosted hosted, []⟩ ∧ hosted.database.answers = [] ∧
      hosted.listing.1.length = 1 ∧ hosted.listing.2 ≠ none ∧
      (world.paged 0 hosted [] 1).load.2 = .ok (.count 1) ∧
      (world.paged 0 hosted [] 2).load.2 = .ok (.count 0) := by
  intro details rows hosted world
  have huses : world.manager.table = some 0 := rfl
  have hreadable : Table.IsReadable ⟨.hosted hosted, []⟩ := List.forall_mem_nil _
  have hsorted : Database.sortedRows hosted.database.rows = rows := by
    refine List.mergeSort_of_pairwise ?_
    decide +kernel
  have hlisting : hosted.listing = hosted.readAhead rows := congrArg hosted.readAhead hsorted
  have hanswers : hosted.database.answers = [] := rfl
  obtain ⟨hloads, -⟩ := loads_by_page_size huses Nat.one_pos hreadable hanswers
  obtain ⟨-, -, log, tables, hone⟩ := hloads 1 Nat.one_pos
  obtain ⟨-, -, log', tables', htwo⟩ := hloads 2 Nat.two_pos
  rw [hlisting] at hone htwo ⊢
  have hfirst : (world.registerStored (TableEntry.admittedAhead
      (HostedTable.wholePages 1 (hosted.readAhead rows)))).2.length = 1 := by decide +kernel
  have hnone : (world.registerStored (TableEntry.admittedAhead
      (HostedTable.wholePages 2 (hosted.readAhead rows)))).2.length = 0 := by decide +kernel
  exact ⟨huses, hreadable, hanswers, by decide +kernel, by decide +kernel,
    (congrArg Prod.snd hone).trans (congrArg (fun count ↦ (.ok (.count count) : Outcome)) hfirst),
    (congrArg Prod.snd htwo).trans (congrArg (fun count ↦ (.ok (.count count) : Outcome)) hnone)⟩

end World

end ClusterMembership
