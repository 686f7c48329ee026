import ClusterMembership.Proofs.PagedLoad
import ClusterMembership.Proofs.TableAgreement

/-!
# What a table lists

Whoever reads a table opens an iterator and asks it for one entry after another.  `Table.Gives` says what comes of
that, without regard to what the table is kept in; a table in memory and a hosted one both give the entries of their
rows in ascending order of identifier, as long as no fault is about reading.
-/

namespace ClusterMembership

namespace Table

/-- An iterator that gives entries one after another, and then nothing. -/
def Gives (table : Table) (now : Instant) (iterator : Nat) : List TableEntry → Prop
  | [] => (table.perform now (.next iterator)).2.2 = .ok none
  | entry :: rest =>
    (table.perform now (.next iterator)).2.2 = .ok (some entry) ∧
      (table.perform now (.next iterator)).1.Gives now iterator rest

/-- A table lists entries when an iterator that is opened over it gives them. -/
structure Lists (table : Table) (now : Instant) (entries : List TableEntry) (opened : Table) (iterator : Nat) :
    Prop where
  opens : table.iterate = (opened, .ok iterator)
  gives : opened.Gives now iterator entries
  bounded : entries.length ≤ opened.entriesLeft iterator

/-- The entries of the rows of a table in ascending order of identifier.  Every row of a hosted table can be read, and
its database answers from the rows. -/
inductive Stores (table : Table) (entries : List TableEntry) : Prop
  | memory {memory : MemoryTable} (hstore : table.store = .memory memory) (hentries : memory.sortedRows = entries)
  | hosted {hosted : HostedTable} (hstore : table.store = .hosted hosted) (hanswers : hosted.database.answers = [])
      (hpageSize : 0 < hosted.pageSize) (hdistinct : (hosted.database.rows.map Database.rowId).Nodup)
      (hentries : List.Forall₂ RowHolds (Database.sortedRows hosted.database.rows) entries)

/-- No fault of a table is about reading it. -/
def IsReadable (table : Table) : Prop := ∀ fault ∈ table.faults, fault.method ≠ .iterate ∧ fault.method ≠ .next

/-! ## Faults -/

theorem takeFault_of_forall_ne {method : TableMethod} {faults : List Fault}
    (h : ∀ fault ∈ faults, fault.method ≠ method) : takeFault method faults = (faults, none) := by
  induction faults with
  | nil => rfl
  | cons fault rest ih =>
    obtain ⟨hfault, hrest⟩ := List.forall_mem_cons.mp h
    unfold takeFault
    rw [if_neg fun htaken ↦ hfault htaken.1, ih hrest]

theorem perform_next {table : Table} (hreadable : table.IsReadable) (now : Instant) (iterator : Nat) :
    table.perform now (.next iterator) =
      (⟨(carryOut table.store now (.next iterator)).1, table.faults⟩,
        (carryOut table.store now (.next iterator)).2) := by
  have hfaults : takeFault (TableRequest.next iterator).method table.faults = (table.faults, none) :=
    takeFault_of_forall_ne fun fault hfault ↦ (hreadable fault hfault).2
  unfold perform
  rw [hfaults]

theorem iterate_eq {table : Table} (hreadable : table.IsReadable) :
    table.iterate = (⟨(openIterator table.store).1, table.faults⟩, .ok (openIterator table.store).2) := by
  have hfaults : takeFault .iterate table.faults = (table.faults, none) :=
    takeFault_of_forall_ne fun fault hfault ↦ (hreadable fault hfault).1
  unfold iterate
  rw [hfaults]

/-! ## Tables in memory -/

theorem gives_memory {memory : MemoryTable} {faults : List Fault} (hreadable : IsReadable ⟨.memory memory, faults⟩)
    (now : Instant) {iterator : Nat} {entries : List TableEntry}
    (hiterator : memory.iterators[iterator]? = some ⟨entries, false⟩) :
    Gives ⟨.memory memory, faults⟩ now iterator entries := by
  induction entries generalizing memory with
  | nil =>
    unfold Gives
    rw [perform_next hreadable]
    exact congrArg Prod.snd (MemoryTable.next_of_open hiterator)
  | cons entry rest ih =>
    have hnext := MemoryTable.next_of_open hiterator
    have hlength := (List.getElem?_eq_some_iff.mp hiterator).1
    unfold Gives
    rw [perform_next hreadable]
    refine ⟨congrArg Prod.snd hnext, ?_⟩
    have hrest : (memory.next iterator).1.iterators[iterator]? = some ⟨rest, false⟩ := by
      rw [hnext]
      exact List.getElem?_set_self hlength
    exact ih hreadable hrest

theorem lists_memory {memory : MemoryTable} {faults : List Fault} (hreadable : IsReadable ⟨.memory memory, faults⟩)
    (now : Instant) :
    Lists ⟨.memory memory, faults⟩ now memory.sortedRows ⟨.memory memory.iterate.1, faults⟩ memory.iterate.2 := by
  have hopened : memory.iterate.1.iterators[memory.iterate.2]? = some ⟨memory.sortedRows, false⟩ :=
    List.getElem?_concat_length
  have hstill : IsReadable ⟨.memory memory.iterate.1, faults⟩ := hreadable
  refine ⟨iterate_eq hreadable, gives_memory hstill now hopened, ?_⟩
  unfold entriesLeft
  simp only [hopened]
  rfl

/-! ## Hosted tables -/

theorem gives_hosted {hosted : HostedTable} {faults : List Fault} (hreadable : IsReadable ⟨.hosted hosted, faults⟩)
    (hanswers : hosted.database.answers = []) (hpageSize : 0 < hosted.pageSize) (now : Instant) {iterator : Nat}
    {rows : List Value} {entries : List TableEntry} (hbrings : hosted.Brings iterator rows)
    (hread : List.Forall₂ RowHolds rows entries) : Gives ⟨.hosted hosted, faults⟩ now iterator entries := by
  induction hread generalizing hosted with
  | nil =>
    unfold Gives
    rw [perform_next hreadable]
    exact (hbrings.next_nil hanswers).1
  | @cons row entry rest others hrow hrest ih =>
    unfold Gives
    rw [perform_next hreadable]
    obtain ⟨given, hgiven, hanswer, hbrought⟩ | ⟨⟨other, hother, hunread⟩, -⟩ :=
      hbrings.next_cons hanswers hpageSize
    · obtain rfl := hrow.unique hgiven
      have hfollows := HostedTable.follows_call hanswers now (.request (.next iterator))
      exact ⟨hanswer, ih hreadable hfollows.answers (hfollows.pageSize ▸ hpageSize) hbrought⟩
    · exact absurd ((HostedTable.exists_entries_iff _).mp ⟨_, .cons hrow hrest⟩ other hother) hunread

theorem lists_hosted {hosted : HostedTable} {faults : List Fault} (hreadable : IsReadable ⟨.hosted hosted, faults⟩)
    (hanswers : hosted.database.answers = []) (hpageSize : 0 < hosted.pageSize) (now : Instant)
    {entries : List TableEntry}
    (hread : List.Forall₂ RowHolds (Database.sortedRows hosted.database.rows) entries) :
    Lists ⟨.hosted hosted, faults⟩ now entries ⟨.hosted hosted.iterate.1, faults⟩ hosted.iterate.2 := by
  have hstill : IsReadable ⟨.hosted hosted.iterate.1, faults⟩ := hreadable
  refine ⟨iterate_eq hreadable, gives_hosted hstill hanswers hpageSize now hosted.brings_iterate hread, ?_⟩
  have hlength : entries.length = hosted.database.rows.length := by
    rw [← hread.length_eq, Database.sortedRows, List.length_mergeSort]
  rw [hlength]
  unfold entriesLeft
  exact Nat.le_add_left _ _

/-! ## Tables of either kind -/

theorem Stores.exists_lists {table : Table} {entries : List TableEntry} (h : table.Stores entries)
    (hreadable : table.IsReadable) (now : Instant) : ∃ opened iterator, table.Lists now entries opened iterator := by
  obtain ⟨store, faults⟩ := table
  cases h with
  | memory hstore hentries =>
    obtain rfl : store = _ := hstore
    exact ⟨_, _, hentries ▸ lists_memory hreadable now⟩
  | hosted hstore hanswers hpageSize _ hentries =>
    obtain rfl : store = _ := hstore
    exact ⟨_, _, lists_hosted hreadable hanswers hpageSize now hentries⟩

/-- Every entry has an identifier of its own. -/
theorem Stores.nodup {table : Table} {entries : List TableEntry} (h : table.Stores entries) :
    (entries.map TableEntry.id).Nodup := by
  cases h with
  | @memory memory _ hentries => exact hentries ▸ memory.nodup_sortedRows
  | @hosted hosted _ _ _ hdistinct hentries =>
    have hids : (Database.sortedRows hosted.database.rows).map Database.rowId = entries.map TableEntry.id := by
      rw [← List.forall₂_eq_eq_eq, List.forall₂_map_left_iff, List.forall₂_map_right_iff]
      exact hentries.imp fun _ _ hrow ↦ hrow.rowId_eq
    rw [← hids]
    exact ((List.mergeSort_perm _ _).map _).nodup_iff.mpr hdistinct

end Table

end ClusterMembership
