import ClusterMembership.Proofs.TableListing

/-!
# Reading a table to its end or to a failure

An iterator that is asked for one entry after another gives some, and then it gives nothing or fails.  It comes to one
of the two for every table, whatever faults the table has and whatever answers its database was given beforehand: with
each entry that it gives, fewer are left that it could give.  What it gives up to there is a beginning of what
the table lists, and all of it when nothing fails.
-/

namespace ClusterMembership

namespace HostedTable

variable {table sent : HostedTable} {offset number : Nat}

/-- How many entries an iterator can still give: those it holds, those in the answers given beforehand, and those of the
rows behind its place. -/
def supply (table : HostedTable) (number : Nat) : Nat :=
  ((table.iterators[number]?).map fun held ↦ held.buffer.length + (table.database.rows.length - held.offset)).getD 0 +
    table.database.givenRows.length

theorem supply_eq {held : HostedIterator} (hheld : table.iterators[number]? = some held) :
    table.supply number =
      held.buffer.length + (table.database.rows.length - held.offset) + table.database.givenRows.length := by
  unfold supply
  rw [hheld, Option.map_some, Option.getD_some]

theorem items_of_pageRows {data : Value} {rows : List Value} (h : pageRows data = .ok rows) :
    rows = Field.items (some data) := by
  unfold pageRows at h
  split at h
  · exact (Except.ok.inj h).symm
  · exact (Except.ok.inj h).symm
  · cases h

/-- The entries of a page come out of the answers given beforehand, or out of the rows behind its place. -/
theorem supply_of_fetch {page : List TableEntry} (h : table.fetch offset = (sent, .ok page)) :
    page.length + (sent.database.rows.length - (offset + page.length)) + sent.database.givenRows.length ≤
        (table.database.rows.length - offset) + table.database.givenRows.length ∧
      sent.iterators = table.iterators := by
  have hlength {data : Value} (hread : (pageRows data).bind table.readRows = .ok page) :
      page.length = (Field.items (some data)).length := by
    obtain ⟨rows, hrows, hentries⟩ : ∃ rows, pageRows data = .ok rows ∧ table.readRows rows = .ok page := by
      cases hrows : pageRows data with
      | error failure => rw [hrows] at hread; cases hread
      | ok rows => exact ⟨rows, rfl, by rwa [hrows] at hread⟩
    rw [← items_of_pageRows hrows]
    exact ((table.readRows_eq_ok_iff rows page).mp hentries).length_eq.symm
  unfold fetch send Database.send at h
  cases hanswers : table.database.answers with
  | cons given rest =>
    simp only [hanswers] at h
    split at h
    · cases h
    · obtain ⟨rfl, hread⟩ := Prod.mk.inj h
      refine ⟨?_, rfl⟩
      have hgiven : table.database.givenRows.length =
          (Field.items (some given.data)).length +
            (rest.flatMap fun answer ↦ Field.items (some answer.data)).length := by
        rw [Database.givenRows, hanswers, List.flatMap_cons, List.length_append]
      rw [hgiven, ← hlength hread]
      simp only [Database.givenRows]
      omega
  | nil =>
    simp only [hanswers, Database.answer] at h
    obtain ⟨rfl, hread⟩ := Prod.mk.inj h
    refine ⟨?_, rfl⟩
    have hpage := hlength hread
    simp only [Field.items, List.length_take, List.length_drop, Database.sortedRows, List.length_mergeSort] at hpage
    simp only [Database.givenRows, hanswers, List.flatMap_nil, List.length_nil]
    omega

/-- With each entry that an iterator gives, it can give fewer. -/
theorem supply_next {entry : TableEntry} (h : (table.next number).2.2 = .ok (some entry)) :
    (table.next number).1.supply number < table.supply number := by
  have hset {after : HostedTable} (hafter : after.iterators = table.iterators) {held : HostedIterator}
      (hheld : table.iterators[number]? = some held) (other : HostedIterator) :
      (after.setIterator number other).supply number =
        other.buffer.length + (after.database.rows.length - other.offset) + after.database.givenRows.length := by
    have hset : (after.setIterator number other).iterators[number]? = some other :=
      List.getElem?_set_self (hafter ▸ (List.getElem?_eq_some_iff.mp hheld).1)
    exact supply_eq hset
  unfold next at h ⊢
  cases hheld : table.iterators[number]? with
  | none => simp [hheld] at h
  | some held =>
    obtain ⟨offset, buffer, exhausted, closed⟩ := held
    cases closed with
    | true => simp [hheld] at h
    | false =>
      simp only [hheld] at h ⊢
      rw [supply_eq hheld]
      split at h
      · next hturn =>
        -- The iterator turns the page: it holds none, so that what it gives is the first entry of the page.
        obtain ⟨hnone, -⟩ : buffer.isEmpty = true ∧ _ := Bool.and_eq_true_iff.mp hturn
        rw [if_pos hturn]
        cases hfetch : table.fetch offset with
        | mk sent answer =>
          rw [hfetch] at h
          cases answer with
          | error failure => cases h
          | ok page =>
            obtain ⟨hsupply, hiterators⟩ := supply_of_fetch hfetch
            have hfirst : page.head? = some entry := Except.ok.inj h
            have hpage : 0 < page.length := List.length_pos_of_mem (List.mem_of_mem_head? hfirst)
            simp only [shift, hset hiterators hheld, turned, List.length_tail]
            omega
      · next hhold =>
        rw [if_neg hhold]
        have hfirst : buffer.head? = some entry := Except.ok.inj h
        have hbuffer : 0 < buffer.length := List.length_pos_of_mem (List.mem_of_mem_head? hfirst)
        simp only [shift, hset rfl hheld, List.length_tail]
        omega

end HostedTable

namespace Table

variable {table : Table} {iterator : Nat} {now : Instant}

def supply (table : Table) (iterator : Nat) : Nat :=
  match table.store with
  | .memory memory => (memory.remaining iterator).length
  | .hosted hosted => hosted.supply iterator

theorem supply_le_entriesLeft (table : Table) (iterator : Nat) :
    table.supply iterator ≤ table.entriesLeft iterator := by
  obtain ⟨store, faults⟩ := table
  cases store with
  | memory memory =>
    simp only [supply, entriesLeft, MemoryTable.remaining]
    cases memory.iterators[iterator]? <;> exact Nat.le_refl _
  | hosted hosted =>
    simp only [supply, entriesLeft, HostedTable.supply]
    cases hosted.iterators[iterator]? with
    | none => exact Nat.le_add_right _ _
    | some held =>
      simp only [Option.map_some, Option.getD_some]
      omega

theorem supply_perform {entry : TableEntry} (h : (table.perform now (.next iterator)).2.2 = .ok (some entry)) :
    (table.perform now (.next iterator)).1.supply iterator < table.supply iterator := by
  obtain ⟨store, faults⟩ := table
  unfold perform at h ⊢
  cases htaken : takeFault (TableRequest.next iterator).method faults with
  | mk rest failure =>
    simp only [htaken] at h ⊢
    cases failure with
    | some failure => cases h
    | none =>
      cases store with
      | hosted hosted => exact HostedTable.supply_next h
      | memory memory =>
        have hnext : memory.next iterator = ((memory.next iterator).1, .ok (some entry)) := Prod.ext rfl h
        have hremaining := congrArg List.length (MemoryTable.next_eq_some hnext)
        exact Nat.lt_of_succ_le (Nat.le_of_eq hremaining.symm)

/-! ## What comes of reading -/

/-- What an iterator gives that is asked for one entry after another, up to the end or to the first call that fails. -/
inductive Reads (now : Instant) (iterator : Nat) : Table → List TableEntry → Option Failure → Prop
  | ended {table : Table} (hanswer : (table.perform now (.next iterator)).2.2 = .ok none) :
      Reads now iterator table [] none
  | failed {table : Table} {failure : Failure} (hanswer : (table.perform now (.next iterator)).2.2 = .error failure) :
      Reads now iterator table [] (some failure)
  | given {table : Table} {entry : TableEntry} {rest : List TableEntry} {ending : Option Failure}
      (hanswer : (table.perform now (.next iterator)).2.2 = .ok (some entry))
      (hrest : Reads now iterator (table.perform now (.next iterator)).1 rest ending) :
      Reads now iterator table (entry :: rest) ending

/-- Every reading comes to its end or fails. -/
theorem exists_reads (table : Table) (now : Instant) (iterator : Nat) :
    ∃ given ending, table.Reads now iterator given ending ∧ given.length ≤ table.supply iterator := by
  induction hsupply : table.supply iterator using Nat.strong_induction_on generalizing table with
  | h supply ih =>
    cases hanswer : (table.perform now (.next iterator)).2.2 with
    | error failure => exact ⟨[], some failure, .failed hanswer, Nat.zero_le _⟩
    | ok entry =>
      cases entry with
      | none => exact ⟨[], none, .ended hanswer, Nat.zero_le _⟩
      | some entry =>
        have hless := supply_perform hanswer
        rw [hsupply] at hless
        obtain ⟨rest, ending, hrest, hlength⟩ := ih _ hless _ rfl
        exact ⟨entry :: rest, ending, .given hanswer hrest, Nat.succ_le_of_lt (Nat.lt_of_le_of_lt hlength hless)⟩

variable {given : List TableEntry} {ending : Option Failure}

theorem Reads.unique (h : table.Reads now iterator given ending) {others : List TableEntry} {other : Option Failure}
    (hother : table.Reads now iterator others other) : given = others ∧ ending = other := by
  induction h generalizing others other with
  | ended hanswer => cases hother <;> simp_all
  | failed hanswer => cases hother <;> simp_all
  | given hanswer hrest ih =>
    cases hother with
    | ended hanswer' => simp [hanswer'] at hanswer
    | failed hanswer' => simp [hanswer'] at hanswer
    | given hanswer' hrest' =>
      obtain rfl : _ = _ := Option.some.inj (Except.ok.inj (hanswer.symm.trans hanswer'))
      obtain ⟨rfl, rfl⟩ := ih hrest'
      exact ⟨rfl, rfl⟩

end Table

end ClusterMembership
