import Mathlib.Algebra.Order.Ring.Unbundled.Rat
import ClusterMembership.Proofs.Paging
import ClusterMembership.Proofs.TableCalls

/-!
# The two tables agree

A table in memory and a hosted one that are called alike give the same answers, up to the order of members, as long as
nothing is written while an iterator is open and only details are written that have exactly the members of their shape.
The rows of the one match those of the other, and so do, sorted by identifier, the entries that two iterators
with the same number have yet to give: those that the hosted one holds and those at the places behind its offset.
-/

namespace ClusterMembership

/-! ## Answers up to the order of members -/

/-- Entries that differ at most in the order of members. -/
def TableEntry.Alike (entry other : TableEntry) : Prop :=
  entry.id = other.id ∧ Option.Rel Value.Alike entry.details other.details

/-- Answers, none of them a failure, that differ at most in the order of members. -/
inductive TableReply.Alike : TableReply → TableReply → Prop
  | found {details others : Field} (h : Option.Rel Value.Alike details others) :
      Alike (.found (.ok details)) (.found (.ok others))
  | opened (iterator : Nat) : Alike (.opened (.ok iterator)) (.opened (.ok iterator))
  | answered {entry other : Option TableEntry} (h : Option.Rel TableEntry.Alike entry other) :
      Alike (.answered (.ok entry)) (.answered (.ok other))

/-! ## Calls in order -/

/-- A call in order: it writes plain details while no iterator is open, or it reads, and asks open iterators only. -/
def TableCall.IsOrderly (table : MemoryTable) : TableCall → Prop
  | .get _ | .iterate | .request (.close _) => True
  | .request (.put _ details) => table.openIterators = 0 ∧ details.IsPlain
  | .request (.delete _) => table.openIterators = 0
  | .request (.next iterator) => (table.iterators[iterator]?).map MemoryIterator.closed = some false

instance (table : MemoryTable) : DecidablePred (TableCall.IsOrderly table)
  | .get _ | .iterate | .request (.close _) => isTrue trivial
  | .request (.put _ details) => inferInstanceAs (Decidable (table.openIterators = 0 ∧ details.IsPlain))
  | .request (.delete _) => inferInstanceAs (Decidable (table.openIterators = 0))
  | .request (.next iterator) =>
    inferInstanceAs (Decidable ((table.iterators[iterator]?).map MemoryIterator.closed = some false))

/-- An iterator that is asked in order is open. -/
theorem TableCall.IsOrderly.exists_remaining {table : MemoryTable} {number : Nat}
    (h : IsOrderly table (.request (.next number))) :
    ∃ remaining, table.iterators[number]? = some ⟨remaining, false⟩ := by
  obtain ⟨⟨remaining, closed⟩, hiterator, rfl⟩ := Option.map_eq_some_iff.mp h
  exact ⟨remaining, hiterator⟩

/-- Calls of a table in memory that are in order one after another. -/
def MemoryTable.Orderly (table : MemoryTable) : List TableCall → Prop
  | [] => True
  | call :: rest => call.IsOrderly table ∧ (table.call call).1.Orderly rest

instance MemoryTable.decidableOrderly (table : MemoryTable) : DecidablePred table.Orderly
  | [] => isTrue trivial
  | call :: rest =>
    have := decidableOrderly (table.call call).1 rest
    inferInstanceAs (Decidable (call.IsOrderly table ∧ (table.call call).1.Orderly rest))

namespace MemoryTable

variable {table : MemoryTable} {number : Nat} {iterator : MemoryIterator}

theorem setIterator_self (h : table.iterators[number]? = some iterator) :
    table.setIterator number iterator = table := by
  obtain ⟨hlength, hget⟩ := List.getElem?_eq_some_iff.mp h
  rw [setIterator, ← hget, List.set_getElem_self]

/-- An open iterator hands out the first of the entries that it has yet to give. -/
theorem next_of_open {remaining : List TableEntry} (h : table.iterators[number]? = some ⟨remaining, false⟩) :
    table.next number = (table.setIterator number ⟨remaining.tail, false⟩, .ok remaining.head?) := by
  unfold next
  simp only [h]
  cases remaining with
  | nil => rw [List.tail_nil, setIterator_self h]; rfl
  | cons entry rest => rfl

theorem closed_of_openIterators (h : table.openIterators = 0) :
    ∀ iterator ∈ table.iterators, iterator.closed = true := by
  intro iterator hiterator
  have hnone : iterator ∉ table.iterators.filter fun iterator ↦ !iterator.closed :=
    List.eq_nil_of_length_eq_zero h ▸ List.not_mem_nil
  simpa [hiterator] using hnone

end MemoryTable

/-! ## Rows that match -/

/-- A row that holds an entry up to the order of members. -/
def RowMatches (row : Value) (entry : TableEntry) : Prop := ∃ read, RowHolds row read ∧ read.Alike entry

namespace RowMatches

variable {row : Value} {entry : TableEntry}

theorem rowId_eq (h : RowMatches row entry) : Database.rowId row = entry.id := by
  obtain ⟨read, hholds, hid, -⟩ := h
  rw [hholds.rowId_eq, hid]

theorem isTruthy (h : RowMatches row entry) : row.isTruthy = true := by
  obtain ⟨read, hholds, -⟩ := h
  exact hholds.isTruthy

theorem isTruthy_details (h : RowMatches row entry) : entry.details.isTruthy = true := by
  obtain ⟨read, ⟨-, details, -, hread⟩, -, hdetails⟩ := h
  rw [hread] at hdetails
  cases hfield : entry.details with
  | none =>
    rw [hfield] at hdetails
    cases hdetails
  | some value =>
    rw [hfield] at hdetails
    obtain ⟨halike⟩ := hdetails
    cases halike <;> rfl

/-- What is read of a row is the entry that it matches. -/
theorem alike_of_holds (h : RowMatches row entry) {read : TableEntry} (hread : RowHolds row read) :
    read.Alike entry := by
  obtain ⟨other, hother, halike⟩ := h
  exact hother.unique hread ▸ halike

end RowMatches

/-- What is read of rows one by one are the entries that they match. -/
theorem forall₂_alike_of_holds {rows : List Value} {entries others : List TableEntry}
    (hread : List.Forall₂ RowHolds rows entries) (hmatch : List.Forall₂ RowMatches rows others) :
    List.Forall₂ TableEntry.Alike entries others := by
  induction hread generalizing others with
  | nil =>
    obtain rfl := List.forall₂_nil_left_iff.mp hmatch
    exact .nil
  | cons hentry _ ih =>
    obtain ⟨other, rest, hother, hrest, rfl⟩ := List.forall₂_cons_left_iff.mp hmatch
    exact .cons (hother.alike_of_holds hentry) (ih hrest)

theorem readable_of_matches {rows : List Value} {entries : List TableEntry} (h : List.Forall₂ RowMatches rows entries) :
    ∀ row ∈ rows, ∃ entry, RowHolds row entry := by
  induction h with
  | nil => exact List.forall_mem_nil _
  | cons hrow _ ih =>
    obtain ⟨read, hread, -⟩ := hrow
    exact List.forall_mem_cons.mpr ⟨⟨read, hread⟩, ih⟩

/-- Details that have exactly the members of their shape are written as a row that matches them. -/
theorem rowMatches_rowOf (now : Instant) (id : String) {details : Details} (hplain : details.IsPlain) :
    RowMatches (HostedTable.rowOf now id (some details.toValue)) ⟨id, some details.toValue⟩ := by
  obtain ⟨kept, hkept⟩ := (StoredDetails.exists_read?_iff details).mpr hplain.toIsStorable
  exact ⟨⟨id, some kept.toValue⟩, HostedTable.rowHolds_rowOf now id hkept, rfl,
    .some ((StoredDetails.alike_read?_iff hkept).mpr hplain.toHasNoMore)⟩

/-- Rows of a database that match the rows of a table in memory one by one. -/
def RowsMatch (rows : List Value) (entries : List (String × Field)) : Prop :=
  List.Forall₂ (fun row stored ↦ RowMatches row ⟨stored.1, stored.2⟩) rows entries

namespace RowsMatch

variable {rows : List Value} {entries : List (String × Field)}

theorem store (h : RowsMatch rows entries) {row : Value} {id : String} {field : Field}
    (hrow : RowMatches row ⟨id, field⟩) : RowsMatch (Database.store row rows) (Association.put id field entries) := by
  have hid : Database.rowId row = id := hrow.rowId_eq
  induction h with
  | nil => exact .cons hrow .nil
  | @cons other stored rows entries hother hrest ih =>
    have hotherId : Database.rowId other = stored.1 := hother.rowId_eq
    unfold Database.store Association.put
    rw [hotherId, hid]
    split
    · exact .cons hrow hrest
    · exact .cons hother ih

theorem without (h : RowsMatch rows entries) (id : String) :
    RowsMatch (rows.filter fun row ↦ Database.rowId row ≠ id) (Association.without id entries) := by
  refine List.rel_filter (fun row stored hrow ↦ ?_) h
  have hid : Database.rowId row = stored.1 := hrow.rowId_eq
  simp [hid]

theorem of_filter (h : RowsMatch rows entries) (hdistinct : (entries.map Prod.fst).Nodup) (id : String) :
    (Association.find? id entries = none ∧ rows.filter (fun row ↦ Database.rowId row = id) = []) ∨
      ∃ row field, Association.find? id entries = some field ∧
        rows.filter (fun row ↦ Database.rowId row = id) = [row] ∧ RowMatches row ⟨id, field⟩ := by
  induction h with
  | nil => exact .inl ⟨rfl, rfl⟩
  | @cons row stored rows entries hrow hrest ih =>
    have hid : Database.rowId row = stored.1 := hrow.rowId_eq
    rw [List.map_cons, List.nodup_cons] at hdistinct
    rw [Association.find?, List.filter_cons, hid]
    by_cases hsame : stored.1 = id
    · subst hsame
      -- No other row has the identifier.
      have hnone : rows.filter (fun row ↦ Database.rowId row = stored.1) = [] := by
        rcases ih hdistinct.2 with ⟨-, hnil⟩ | ⟨_, field, hfound, -⟩
        · exact hnil
        · exact absurd ((Association.isSome_find?_iff _ _).mp (by rw [hfound]; rfl)) hdistinct.1
      refine .inr ⟨row, stored.2, by simp, ?_, hrow⟩
      simp [hnone]
    · simp only [hsame, if_false, decide_false, Bool.false_eq_true]
      exact ih hdistinct.2

theorem map_rowId (h : RowsMatch rows entries) : rows.map Database.rowId = entries.map Prod.fst := by
  induction h with
  | nil => rfl
  | cons hrow _ ih => rw [List.map_cons, List.map_cons, hrow.rowId_eq, ih]

theorem readable (h : RowsMatch rows entries) : ∀ row ∈ rows, ∃ entry, RowHolds row entry :=
  readable_of_matches (List.forall₂_map_right_iff.mpr h)

/-- Sorted by identifier, the rows still match. -/
theorem sortedRows (h : RowsMatch rows entries) :
    List.Forall₂ RowMatches (Database.sortedRows rows)
      ((entries.map fun row ↦ TableEntry.mk row.1 row.2).mergeSort fun a b ↦ Text.atMost a.id b.id) := by
  refine forall₂_mergeSort (fun ha hb ↦ ?_) (List.forall₂_map_right_iff.mpr h)
  rw [ha.rowId_eq, hb.rowId_eq]

end RowsMatch

/-! ## Tables that match -/

/-- Iterators that are both closed, or both open with matching entries to give. -/
structure IteratorsMatch (rows : List Value) (held : HostedIterator) (iterator : MemoryIterator) : Prop where
  closed : held.closed = iterator.closed
  given : held.closed = false → ∃ front back, iterator.remaining = front ++ back ∧
    List.Forall₂ TableEntry.Alike held.buffer front ∧ List.Forall₂ RowMatches (held.ahead rows) back

theorem iteratorsMatch_of_closed {rows : List Value} {held : HostedIterator} {iterator : MemoryIterator}
    (h : held.closed = iterator.closed) (hclosed : iterator.closed = true) : IteratorsMatch rows held iterator where
  closed := h
  given hopen := absurd (h.symm.trans hopen) (by simp [hclosed])

/-- A hosted table that matches a table in memory. -/
structure HostedTable.Mirrors (hosted : HostedTable) (memory : MemoryTable) : Prop where
  answers : hosted.database.answers = []
  pageSize : 0 < hosted.pageSize
  rows : RowsMatch hosted.database.rows memory.rows.entries
  length : hosted.iterators.length = memory.iterators.length
  iterators : ∀ {number : Nat} {held : HostedIterator} {iterator : MemoryIterator},
    hosted.iterators[number]? = some held → memory.iterators[number]? = some iterator →
      IteratorsMatch hosted.database.rows held iterator

namespace HostedTable.Mirrors

variable {hosted : HostedTable} {memory : MemoryTable}

theorem noted (h : hosted.Mirrors memory) (request : DatabaseRequest) : (hosted.noted request).Mirrors memory :=
  { h with }

theorem setIterator (h : hosted.Mirrors memory) (number : Nat) {held : HostedIterator} {iterator : MemoryIterator}
    (hmatch : IteratorsMatch hosted.database.rows held iterator) :
    (hosted.setIterator number held).Mirrors (memory.setIterator number iterator) where
  answers := h.answers
  pageSize := h.pageSize
  rows := h.rows
  length := by
    unfold HostedTable.setIterator MemoryTable.setIterator
    simp only [List.length_set, h.length]
  iterators := by
    intro other held' iterator' hheld hiterator
    unfold HostedTable.setIterator at hheld
    unfold MemoryTable.setIterator at hiterator
    simp only [List.getElem?_set] at hheld hiterator
    by_cases hsame : number = other
    · simp only [if_pos hsame] at hheld hiterator
      split at hheld
      · split at hiterator
        · obtain rfl := Option.some.inj hheld
          obtain rfl := Option.some.inj hiterator
          exact hmatch
        · cases hiterator
      · cases hheld
    · simp only [if_neg hsame] at hheld hiterator
      exact h.iterators hheld hiterator

/-- An iterator of the one table is there when one of the other is. -/
theorem exists_held (h : hosted.Mirrors memory) {number : Nat} {iterator : MemoryIterator}
    (hiterator : memory.iterators[number]? = some iterator) :
    ∃ held, hosted.iterators[number]? = some held ∧ IteratorsMatch hosted.database.rows held iterator := by
  have hlength : number < hosted.iterators.length := h.length ▸ (List.getElem?_eq_some_iff.mp hiterator).1
  have hheld := List.getElem?_eq_getElem hlength
  exact ⟨_, hheld, h.iterators hheld hiterator⟩

/-- A write while no iterator is open leaves tables that match when the rows still do. -/
theorem written (h : hosted.Mirrors memory) (hclosed : memory.openIterators = 0) {database : Database}
    (hanswers : database.answers = []) {rows : OrderedMap Field} (hrows : RowsMatch database.rows rows.entries) :
    Mirrors { hosted with database := database } { memory with rows := rows } where
  answers := hanswers
  pageSize := h.pageSize
  rows := hrows
  length := h.length
  iterators hheld hiterator := iteratorsMatch_of_closed (h.iterators hheld hiterator).closed
    (MemoryTable.closed_of_openIterators hclosed _ (List.mem_of_getElem? hiterator))

theorem iterate (h : hosted.Mirrors memory) : hosted.iterate.1.Mirrors memory.iterate.1 where
  answers := h.answers
  pageSize := h.pageSize
  rows := h.rows
  length := by
    unfold HostedTable.iterate MemoryTable.iterate
    simp [h.length]
  iterators := by
    intro number held iterator hheld hiterator
    unfold HostedTable.iterate at hheld
    unfold MemoryTable.iterate at hiterator
    have hlength := h.length
    rcases Nat.lt_trichotomy number memory.iterators.length with hless | heq | hgreater
    · rw [List.getElem?_append_left (by omega)] at hheld hiterator
      exact h.iterators hheld hiterator
    · rw [List.getElem?_append_right (by omega)] at hheld hiterator
      simp only [heq, hlength, Nat.sub_self, List.getElem?_cons_zero, Option.some.injEq] at hheld hiterator
      subst hheld hiterator
      exact ⟨rfl, fun _ ↦ ⟨[], memory.sortedRows, rfl, .nil, h.rows.sortedRows⟩⟩
    · rw [List.getElem?_eq_none (by simp; omega)] at hiterator
      cases hiterator

theorem close (h : hosted.Mirrors memory) (number : Nat) : (hosted.close number).Mirrors (memory.close number) := by
  unfold MemoryTable.close
  cases hiterator : memory.iterators[number]? with
  | none =>
    have hheld : hosted.iterators[number]? = none :=
      List.getElem?_eq_none (h.length ▸ List.getElem?_eq_none_iff.mp hiterator)
    unfold HostedTable.close
    simp only [hheld]
    exact h
  | some iterator =>
    obtain ⟨held, hheld, -⟩ := h.exists_held hiterator
    unfold HostedTable.close
    simp only [hheld]
    exact h.setIterator number (iteratorsMatch_of_closed rfl rfl)

/-- Details are found in both tables or in neither. -/
theorem get (h : hosted.Mirrors memory) (id : String) :
    (hosted.get id).1.Mirrors memory ∧
      (TableReply.found (hosted.get id).2).Alike (.found (.ok (memory.get id))) := by
  unfold MemoryTable.get OrderedMap.get?
  rcases h.rows.of_filter memory.rows.distinct id with ⟨hnone, hrows⟩ | ⟨row, field, hfound, hrows, hrow⟩
  · rw [HostedTable.get_of_nil h.answers hrows, hnone]
    exact ⟨h.noted _, .found .none⟩
  · rw [HostedTable.get_of_row h.answers hrows hrow.isTruthy, hfound]
    have htruthy : field.isTruthy = true := hrow.isTruthy_details
    obtain ⟨read, hread, hid, hdetails⟩ := hrow
    rw [(hosted.readRow_eq_ok_iff "get" row read).mpr hread]
    refine ⟨h.noted _, .found ?_⟩
    cases field with
    | none => cases htruthy
    | some value =>
      have hvalue : value.isTruthy = true := htruthy
      rw [Option.getD_some, Option.filter_some, if_pos hvalue]
      exact hdetails

/-- Two iterators hand out entries that match, and what they have yet to give then matches again. -/
theorem shift {rows : List Value} {offset : Nat} {buffer remaining : List TableEntry} {exhausted : Bool}
    (h : IteratorsMatch rows ⟨offset, buffer, exhausted, false⟩ ⟨remaining, false⟩)
    (hend : buffer = [] → exhausted = true) :
    IteratorsMatch rows ⟨offset, buffer.tail, exhausted, false⟩ ⟨remaining.tail, false⟩ ∧
      Option.Rel TableEntry.Alike buffer.head? remaining.head? := by
  obtain ⟨front, back, hremaining, hfront, hback⟩ := h.given rfl
  obtain rfl : remaining = front ++ back := hremaining
  cases buffer with
  | nil =>
    obtain rfl : front = [] := List.forall₂_nil_left_iff.mp hfront
    obtain rfl := hend rfl
    obtain rfl : back = [] := List.forall₂_nil_left_iff.mp hback
    exact ⟨⟨rfl, fun _ ↦ ⟨[], [], rfl, .nil, .nil⟩⟩, .none⟩
  | cons entry rest =>
    obtain ⟨other, others, hentry, hrest, rfl⟩ := List.forall₂_cons_left_iff.mp hfront
    exact ⟨⟨rfl, fun _ ↦ ⟨others, back, rfl, hrest, hback⟩⟩, .some hentry⟩

/-- An iterator that turns the page goes on to match, for the page has the rows that come next. -/
theorem turned {offset : Nat} {remaining : List TableEntry}
    (hmatch : IteratorsMatch hosted.database.rows ⟨offset, [], false, false⟩ ⟨remaining, false⟩) :
    ∃ entries, List.Forall₂ RowHolds (hosted.page offset) entries ∧
      IteratorsMatch hosted.database.rows
        ⟨offset + entries.length, entries, entries.length < hosted.pageSize, false⟩ ⟨remaining, false⟩ := by
  obtain ⟨front, back, hremaining, hfront, hback⟩ := hmatch.given rfl
  obtain rfl : front = [] := List.forall₂_nil_left_iff.mp hfront
  obtain rfl : remaining = back := hremaining
  have hpage : List.Forall₂ RowMatches (hosted.page offset) (remaining.take hosted.pageSize) :=
    List.forall₂_take hosted.pageSize hback
  obtain ⟨entries, hentries⟩ := (HostedTable.exists_entries_iff _).mpr (readable_of_matches hpage)
  have hlength : entries.length = (remaining.take hosted.pageSize).length :=
    hentries.length_eq.symm.trans hpage.length_eq
  rw [List.length_take] at hlength
  refine ⟨entries, hentries, rfl, fun _ ↦
    ⟨remaining.take hosted.pageSize, remaining.drop hosted.pageSize, (List.take_append_drop _ _).symm, ?_, ?_⟩⟩
  · exact forall₂_alike_of_holds hentries hpage
  · unfold HostedIterator.ahead
    simp only [decide_eq_true_eq]
    split
    · next hshort =>
      rw [List.drop_eq_nil_of_le (by omega)]
      exact .nil
    · next hfull =>
      have hdropped : (Database.sortedRows hosted.database.rows).drop (offset + entries.length) =
          ((Database.sortedRows hosted.database.rows).drop offset).drop hosted.pageSize := by
        rw [List.drop_drop]
        congr 1
        omega
      rw [hdropped]
      exact List.forall₂_drop hosted.pageSize hback

/-- Two open iterators with the same number hand out entries that match. -/
theorem next (h : hosted.Mirrors memory) {number : Nat} {remaining : List TableEntry}
    (hiterator : memory.iterators[number]? = some ⟨remaining, false⟩) :
    (hosted.next number).1.Mirrors (memory.next number).1 ∧
      (TableReply.answered (hosted.next number).2.2).Alike (.answered (memory.next number).2) := by
  rw [MemoryTable.next_of_open hiterator]
  obtain ⟨⟨offset, buffer, exhausted, closed⟩, hheld, hmatch⟩ := h.exists_held hiterator
  obtain rfl : closed = false := hmatch.closed
  cases buffer with
  | cons entry rest =>
    obtain ⟨hshifted, hhanded⟩ := shift hmatch nofun
    rw [HostedTable.next_of_cons hheld]
    exact ⟨h.setIterator number hshifted, .answered hhanded⟩
  | nil =>
    cases exhausted with
    | true =>
      obtain ⟨hshifted, hhanded⟩ := shift hmatch fun _ ↦ rfl
      have hsame : hosted.setIterator number ⟨offset, [], true, false⟩ = hosted := HostedTable.setIterator_self hheld
      rw [HostedTable.next_of_exhausted hheld, ← hsame]
      exact ⟨h.setIterator number hshifted, .answered hhanded⟩
    | false =>
      obtain ⟨entries, hentries, hturned⟩ := turned hmatch
      have hpositive := h.pageSize
      have hend : entries = [] → decide (entries.length < hosted.pageSize) = true := by
        rintro rfl
        simpa using hpositive
      obtain ⟨hshifted, hhanded⟩ := shift hturned hend
      rw [HostedTable.next_of_page hheld h.answers hentries]
      exact ⟨(h.noted _).setIterator number hshifted, .answered hhanded⟩

/-- Tables that match answer a call in order alike and match afterwards. -/
theorem call (h : hosted.Mirrors memory) (now : Instant) {call : TableCall} (horderly : call.IsOrderly memory) :
    (hosted.call now call).1.Mirrors (memory.call call).1 ∧
      (hosted.call now call).2.Alike (memory.call call).2 := by
  rcases call with id | _ | ⟨id, details⟩ | id | iterator | iterator
  · exact h.get id
  · refine ⟨h.iterate, ?_⟩
    change (TableReply.opened (.ok hosted.iterators.length)).Alike (.opened (.ok memory.iterators.length))
    rw [h.length]
    exact .opened _
  · obtain ⟨hclosed, hplain⟩ := horderly
    unfold HostedTable.call MemoryTable.call
    simp only [HostedTable.put_of_nil h.answers]
    have hrows : RowsMatch (Database.store (HostedTable.rowOf now id (some details.toValue)) hosted.database.rows)
        (memory.rows.insert id (some details.toValue)).entries := h.rows.store (rowMatches_rowOf now id hplain)
    refine ⟨h.written hclosed ?_ hrows, .answered .none⟩
    exact h.answers
  · unfold HostedTable.call MemoryTable.call
    simp only [HostedTable.delete_of_nil h.answers]
    have hrows : RowsMatch (hosted.database.rows.filter fun row ↦ Database.rowId row ≠ id)
        (memory.rows.erase id).entries := h.rows.without id
    refine ⟨h.written horderly ?_ hrows, .answered .none⟩
    exact h.answers
  · obtain ⟨remaining, hiterator⟩ := horderly.exists_remaining
    exact h.next hiterator
  · exact ⟨h.close iterator, .answered .none⟩

/-- Tables that match answer a run of calls in order alike. -/
theorem replies (h : hosted.Mirrors memory) {calls : List (Instant × TableCall)}
    (horderly : memory.Orderly (calls.map Prod.snd)) :
    List.Forall₂ TableReply.Alike (((Table.ofStore (.hosted hosted)).steps calls).map TableStep.reply)
      (((Table.ofStore (.memory memory)).steps calls).map TableStep.reply) := by
  induction calls generalizing hosted memory with
  | nil => exact .nil
  | cons call rest ih =>
    obtain ⟨now, call⟩ := call
    obtain ⟨hcall, hrest⟩ := horderly
    obtain ⟨hmirrors, halike⟩ := h.call now hcall
    unfold Table.steps
    rw [Table.call_hosted, Table.call_memory, List.map_cons, List.map_cons]
    unfold TableStep.reply
    rw [Table.call_hosted, Table.call_memory]
    exact .cons halike (ih hmirrors hrest)

end HostedTable.Mirrors

/-! ## One iteration -/

/-- An iterator over rows that hold some entries, after a number of them were given and a number of pages fetched. -/
structure HostedTable.Reads (table : HostedTable) (number : Nat) (entries : List TableEntry) (given pages : Nat) :
    Prop where
  answers : table.database.answers = []
  pageSize : 0 < table.pageSize
  rows : List.Forall₂ RowHolds (Database.sortedRows table.database.rows) entries
  iterator : ∃ offset exhausted,
    table.iterators[number]? = some ⟨offset, (entries.take offset).drop given, exhausted, false⟩ ∧
      (exhausted = false ∧ offset = pages * table.pageSize ∧ offset ≤ entries.length ∧ given ≤ offset ∨
        exhausted = true ∧ offset = entries.length ∧ pages = entries.length / table.pageSize + 1)

namespace HostedTable.Reads

variable {table : HostedTable} {number : Nat} {entries : List TableEntry} {given pages : Nat}

/-- Once more was asked for than there is, every page was fetched. -/
theorem pages_eq (h : table.Reads number entries given pages) (hgiven : entries.length < given) :
    pages = entries.length / table.pageSize + 1 := by
  obtain ⟨offset, exhausted, -, ⟨-, -, hoffset, hless⟩ | ⟨-, -, hpages⟩⟩ := h.iterator
  · omega
  · exact hpages

/-- An iterator just opened has given nothing and fetched nothing. -/
theorem opened (hanswers : table.database.answers = []) (hsize : 0 < table.pageSize)
    (hrows : List.Forall₂ RowHolds (Database.sortedRows table.database.rows) entries) :
    table.iterate.1.Reads table.iterators.length entries 0 0 where
  answers := hanswers
  pageSize := hsize
  rows := hrows
  iterator := by
    refine ⟨0, false, ?_, .inl ⟨rfl, (Nat.zero_mul _).symm, Nat.zero_le _, le_rfl⟩⟩
    simp [iterate]

/-- A call that writes nothing, and neither asks nor closes an iterator, leaves it where it is. -/
theorem call (h : table.Reads number entries given pages) (now : Instant) {call : TableCall}
    (hrows : rowsAfter now table.database.rows call = table.database.rows)
    (hnext : call ≠ .request (.next number)) (hclose : call ≠ .request (.close number)) :
    (table.call now call).1.Reads number entries given pages := by
  have hfollows := follows_call h.answers now call
  obtain ⟨offset, exhausted, hheld, hplace⟩ := h.iterator
  exact
    { answers := hfollows.answers
      pageSize := hfollows.pageSize ▸ h.pageSize
      rows := by rw [hfollows.rows, hrows]; exact h.rows
      iterator := ⟨offset, exhausted, iterator_call hheld now hnext hclose, hfollows.pageSize ▸ hplace⟩ }

/-- Replacing the iterator, an iteration goes on from where the new one stands. -/
theorem replace (h : table.Reads number entries given pages) {requests : List DatabaseRequest} {offset : Nat}
    {exhausted : Bool} {given' pages' : Nat}
    (hplace : exhausted = false ∧ offset = pages' * table.pageSize ∧ offset ≤ entries.length ∧ given' ≤ offset ∨
      exhausted = true ∧ offset = entries.length ∧ pages' = entries.length / table.pageSize + 1) :
    (({ table with database := { table.database with requests := requests } } : HostedTable).setIterator number
      ⟨offset, (entries.take offset).drop given', exhausted, false⟩).Reads number entries given' pages' where
  answers := h.answers
  pageSize := h.pageSize
  rows := h.rows
  iterator := by
    obtain ⟨_, _, hheld, -⟩ := h.iterator
    exact ⟨offset, exhausted, List.getElem?_set_self (List.getElem?_eq_some_iff.mp hheld).1, hplace⟩

/-- Asked at the end of a page that was full, an iterator fetches the page behind it. -/
theorem next_page (h : table.Reads number entries (pages * table.pageSize) pages)
    (hheld : table.iterators[number]? = some ⟨pages * table.pageSize, [], false, false⟩)
    (hwithin : pages * table.pageSize ≤ entries.length) :
    (table.next number).2.2 = .ok entries[pages * table.pageSize]? ∧
      ((table.next number).1.Reads number entries (pages * table.pageSize + 1) pages ∧
          (table.next number).1.database.requests = table.database.requests ∨
        (table.next number).1.Reads number entries (pages * table.pageSize + 1) (pages + 1) ∧
          (table.next number).1.database.requests =
            table.database.requests ++ [table.pageRequest (pages * table.pageSize)]) := by
  have hpositive := h.pageSize
  obtain ⟨offset, hoffset⟩ : ∃ offset, offset = pages * table.pageSize := ⟨_, rfl⟩
  rw [← hoffset] at h hheld hwithin ⊢
  obtain ⟨page, hpage⟩ : ∃ page, page = (entries.drop offset).take table.pageSize := ⟨_, rfl⟩
  have hlength : page.length = min table.pageSize (entries.length - offset) := by
    rw [hpage, List.length_take, List.length_drop]
  have hrows : List.Forall₂ RowHolds (table.page offset) page :=
    hpage ▸ List.forall₂_take table.pageSize (List.forall₂_drop offset h.rows)
  have hfirst : page.head? = entries[offset]? := by
    rw [hpage, List.head?_eq_getElem?, List.getElem?_take_of_lt hpositive, List.getElem?_drop, Nat.add_zero]
  have hrest : page.tail = (entries.take (offset + page.length)).drop (offset + 1) := by
    have hplaces : page = (entries.take (offset + page.length)).drop offset := by
      rw [List.drop_take, Nat.add_sub_cancel_left, hlength, hpage, List.take_eq_take_iff, List.length_drop]
      omega
    rw [← List.tail_drop, ← hplaces]
  rw [next_of_page hheld h.answers hrows, hrest]
  refine ⟨congrArg Except.ok hfirst, .inr ⟨h.replace ?_, rfl⟩⟩
  by_cases hfull : page.length < table.pageSize
  · have hquotient : entries.length / table.pageSize = pages :=
      Nat.div_eq_of_lt_le (by omega) (by rw [Nat.succ_mul]; omega)
    exact .inr ⟨decide_eq_true hfull, by omega, by rw [hquotient]⟩
  · exact .inl ⟨decide_eq_false hfull, by rw [Nat.succ_mul]; omega, by omega, by omega⟩

/-- Asked once more, an iterator gives the entry at the next place, or nothing behind the last, and fetches a page or
none. -/
theorem next (h : table.Reads number entries given pages) :
    (table.next number).2.2 = .ok entries[given]? ∧
      ((table.next number).1.Reads number entries (given + 1) pages ∧
          (table.next number).1.database.requests = table.database.requests ∨
        (table.next number).1.Reads number entries (given + 1) (pages + 1) ∧
          (table.next number).1.database.requests =
            table.database.requests ++ [table.pageRequest (pages * table.pageSize)]) := by
  obtain ⟨offset, exhausted, hheld, hplace⟩ := h.iterator
  cases hbuffer : (entries.take offset).drop given with
  | cons entry rest =>
    -- The iterator holds the entry at the next place.
    have hgiven : (entries.take offset)[given]? = some entry := by
      rw [← List.head?_drop, hbuffer, List.head?_cons]
    have hless : given < offset := by
      have hlength := (List.getElem?_eq_some_iff.mp hgiven).1
      rw [List.length_take] at hlength
      omega
    rw [List.getElem?_take_of_lt hless] at hgiven
    have hrest : rest = (entries.take offset).drop (given + 1) := by
      rw [← List.tail_drop, hbuffer, List.tail_cons]
    rw [hbuffer] at hheld
    rw [next_of_cons hheld, hrest]
    refine ⟨congrArg Except.ok hgiven.symm, .inl ⟨h.replace ?_, rfl⟩⟩
    exact hplace.imp_left fun ⟨hmore, hoffset, hwithin, _⟩ ↦ ⟨hmore, hoffset, hwithin, hless⟩
  | nil =>
    have hpassed : min offset entries.length ≤ given := by
      have hlength := congrArg List.length hbuffer
      rw [List.length_drop, List.length_take, List.length_nil] at hlength
      omega
    rw [hbuffer] at hheld
    obtain ⟨rfl, rfl, hwithin, hgiven⟩ | ⟨rfl, rfl, rfl⟩ := hplace
    · obtain rfl : given = pages * table.pageSize := by omega
      exact h.next_page hheld hwithin
    · have hempty : (entries.take entries.length).drop (given + 1) = [] := by
        rw [List.drop_eq_nil_iff, List.length_take]
        omega
      have hend : entries[given]? = none := List.getElem?_eq_none (by omega)
      rw [next_of_exhausted hheld, hend]
      exact ⟨rfl, .inl ⟨{ h with iterator := ⟨_, true, hempty ▸ hheld, .inr ⟨rfl, rfl, rfl⟩⟩ }, rfl⟩⟩

end HostedTable.Reads

namespace MemoryTable

variable {table : MemoryTable} {number : Nat}

theorem getElem?_setIterator_of_ne {other : Nat} (hne : other ≠ number) (iterator : MemoryIterator) :
    (table.setIterator other iterator).iterators[number]? = table.iterators[number]? := List.getElem?_set_ne hne

/-- A closed iterator stays closed in calls in order. -/
theorem closed_call {iterator : MemoryIterator} (hiterator : table.iterators[number]? = some iterator)
    (hclosed : iterator.closed = true) {call : TableCall} (horderly : call.IsOrderly table) :
    ∃ after, (table.call call).1.iterators[number]? = some after ∧ after.closed = true := by
  rcases call with id | _ | ⟨id, details⟩ | id | other | other
  · exact ⟨iterator, hiterator, hclosed⟩
  · exact ⟨iterator, (List.getElem?_append_left (List.getElem?_eq_some_iff.mp hiterator).1).trans hiterator, hclosed⟩
  · exact ⟨iterator, hiterator, hclosed⟩
  · exact ⟨iterator, hiterator, hclosed⟩
  · obtain ⟨remaining, hother⟩ := horderly.exists_remaining
    have hne : other ≠ number := by
      rintro rfl
      obtain rfl : iterator = ⟨remaining, false⟩ := Option.some.inj (hiterator.symm.trans hother)
      cases hclosed
    refine ⟨iterator, ?_, hclosed⟩
    change (table.next other).1.iterators[number]? = some iterator
    rw [next_of_open hother]
    exact (getElem?_setIterator_of_ne hne _).trans hiterator
  · change ∃ after, (table.close other).iterators[number]? = some after ∧ after.closed = true
    unfold close
    cases hother : table.iterators[other]? with
    | none => exact ⟨iterator, hiterator, hclosed⟩
    | some found =>
      by_cases hsame : other = number
      · subst hsame
        exact ⟨_, List.getElem?_set_self (List.getElem?_eq_some_iff.mp hother).1, rfl⟩
      · exact ⟨iterator, (getElem?_setIterator_of_ne hsame _).trans hiterator, hclosed⟩

/-- In calls in order a closed iterator is not asked. -/
theorem not_asked_of_closed {iterator : MemoryIterator} (hiterator : table.iterators[number]? = some iterator)
    (hclosed : iterator.closed = true) {calls : List TableCall} (horderly : table.Orderly calls) :
    .request (.next number) ∉ calls := by
  induction calls generalizing table iterator with
  | nil => exact List.not_mem_nil
  | cons call rest ih =>
    obtain ⟨hcall, hrest⟩ := horderly
    obtain ⟨after, hafter, hstill⟩ := closed_call hiterator hclosed hcall
    rw [List.mem_cons, not_or]
    refine ⟨?_, ih hafter hstill hrest⟩
    rintro rfl
    obtain ⟨remaining, hopen⟩ := hcall.exists_remaining
    obtain rfl : iterator = ⟨remaining, false⟩ := Option.some.inj (hiterator.symm.trans hopen)
    cases hclosed

/-- While an iterator is open, a call in order writes nothing. -/
theorem rowsAfter_of_open {remaining : List TableEntry} (hopen : table.iterators[number]? = some ⟨remaining, false⟩)
    {call : TableCall} (horderly : call.IsOrderly table) (now : Instant) (rows : List Value) :
    HostedTable.rowsAfter now rows call = rows := by
  have hsome : table.openIterators ≠ 0 := fun hnone ↦
    Bool.false_ne_true (closed_of_openIterators hnone _ (List.mem_of_getElem? hopen))
  rcases call with id | _ | ⟨id, details⟩ | id | other | other
  · rfl
  · rfl
  · exact absurd horderly.1 hsome
  · exact absurd horderly hsome
  · rfl
  · rfl

end MemoryTable

/-- What is answered and sent when an iterator over some entries is asked again and again: each entry once, in order,
then nothing for good; and for all entries one page after another, the last of them the first that is not full. -/
structure HostedTable.Iterates (table : HostedTable) (entries : List TableEntry) (asked : List TableStep) : Prop where
  replies : asked.map TableStep.reply =
    (List.range asked.length).map fun place ↦ .answered (.ok entries[place]?)
  requests : entries.length < asked.length → asked.flatMap TableStep.requests =
    (List.range (entries.length / table.pageSize + 1)).map fun page ↦ table.pageRequest (page * table.pageSize)

namespace HostedTable.Reads

variable {hosted : HostedTable} {memory : MemoryTable} {number : Nat} {entries : List TableEntry} {given pages : Nat}

theorem exists_remaining (h : hosted.Reads number entries given pages) (hmirrors : hosted.Mirrors memory) :
    ∃ remaining, memory.iterators[number]? = some ⟨remaining, false⟩ := by
  obtain ⟨offset, exhausted, hheld, -⟩ := h.iterator
  have hlength : number < memory.iterators.length := hmirrors.length ▸ (List.getElem?_eq_some_iff.mp hheld).1
  obtain ⟨⟨remaining, closed⟩, hiterator⟩ : ∃ iterator, memory.iterators[number]? = some iterator :=
    ⟨_, List.getElem?_eq_getElem hlength⟩
  obtain rfl : false = closed := (hmirrors.iterators hheld hiterator).closed
  exact ⟨remaining, hiterator⟩

/-- A step in which an iterator is asked gives the entry at the next place and sends for the next page or for none. -/
theorem step (h : hosted.Reads number entries given pages) (now : Instant) {step : TableStep}
    (hstep : step = ⟨.ofStore (.hosted hosted), now, .request (.next number)⟩) :
    step.reply = .answered (.ok entries[given]?) ∧
      ∃ more, (hosted.call now (.request (.next number))).1.Reads number entries (given + 1) (pages + more) ∧
        step.requests =
          (List.range' pages more).map (fun page ↦ hosted.pageRequest (page * hosted.pageSize)) := by
  subst hstep
  have hcall := Table.call_hosted hosted now (.request (.next number))
  have hrequests : (⟨.ofStore (.hosted hosted), now, .request (.next number)⟩ : TableStep).requests =
      (hosted.next number).1.database.requests.drop hosted.database.requests.length := by
    unfold TableStep.requests TableStep.after
    rw [hcall]
    rfl
  obtain ⟨hreply, hnext⟩ := h.next
  refine ⟨?_, ?_⟩
  · unfold TableStep.reply
    rw [hcall]
    exact congrArg TableReply.answered hreply
  · rw [hrequests]
    rcases hnext with ⟨hreads, hsame⟩ | ⟨hreads, hfetched⟩
    · exact ⟨0, hreads, by rw [hsame]; simp⟩
    · exact ⟨1, hreads, by rw [hfetched, List.drop_left]; simp⟩

/-- The steps in which an iterator is asked give the entries from the next place on and fetch the pages from the next
one on. -/
theorem asked (h : hosted.Reads number entries given pages) (hmirrors : hosted.Mirrors memory)
    {calls : List (Instant × TableCall)} (horderly : memory.Orderly (calls.map Prod.snd)) {asked : List TableStep}
    (hasked : (Table.ofStore (.hosted hosted)).asked number calls = asked) :
    asked.map TableStep.reply =
        (List.range' given asked.length).map (fun place ↦ .answered (.ok entries[place]?)) ∧
      ∃ later, asked.flatMap TableStep.requests =
          (List.range' pages later).map (fun page ↦ hosted.pageRequest (page * hosted.pageSize)) ∧
        (entries.length < given + asked.length → pages + later = entries.length / hosted.pageSize + 1) := by
  induction calls generalizing hosted memory given pages asked with
  | nil =>
    subst hasked
    exact ⟨rfl, 0, rfl, fun hmore ↦ h.pages_eq hmore⟩
  | cons call rest ih =>
    obtain ⟨now, call⟩ := call
    obtain ⟨hcall, hrest⟩ := horderly
    obtain ⟨hafter, -⟩ := hmirrors.call now hcall
    have hfollows := HostedTable.follows_call h.answers now call
    obtain ⟨remaining, hopen⟩ := h.exists_remaining hmirrors
    have hrequest := hfollows.pageRequest_eq
    have hsize := hfollows.pageSize
    by_cases hnext : call = .request (.next number)
    · subst hnext
      simp only [Table.asked_cons_next, Table.call_hosted] at hasked
      obtain ⟨hreply, more, hmore, hsent⟩ := h.step now rfl
      obtain ⟨hreplies, later, hlater, hpages⟩ := ih hmore hafter hrest rfl
      simp only [hrequest, hsize] at hlater hpages
      subst hasked
      refine ⟨?_, more + later, ?_, fun hlength ↦ ?_⟩
      · rw [List.map_cons, hreply, hreplies]
        rfl
      · rw [List.flatMap_cons, hsent, hlater, ← List.range'_append_1, List.map_append]
      · rw [← Nat.add_assoc, hpages (by rw [List.length_cons] at hlength; omega)]
    · rw [Table.asked_cons_of_ne hnext, Table.call_hosted] at hasked
      by_cases hclose : call = .request (.close number)
      · subst hclose
        have hclosed : (memory.close number).iterators[number]? = some ⟨remaining, true⟩ := by
          unfold MemoryTable.close
          rw [hopen]
          exact List.getElem?_set_self (List.getElem?_eq_some_iff.mp hopen).1
        obtain rfl : [] = asked :=
          (Table.asked_eq_nil (MemoryTable.not_asked_of_closed hclosed rfl hrest)).symm.trans hasked
        exact ⟨rfl, 0, rfl, fun hmore ↦ h.pages_eq hmore⟩
      · have hrows := MemoryTable.rowsAfter_of_open hopen hcall now hosted.database.rows
        obtain ⟨hreplies, later, hlater, hpages⟩ := ih (h.call now hrows hnext hclose) hafter hrest hasked
        simp only [hrequest, hsize] at hlater hpages
        exact ⟨hreplies, later, hlater, hpages⟩

end HostedTable.Reads

/-! ## Runs -/

namespace HostedTable

/-- Tables that match still do after calls in order. -/
theorem Mirrors.called {hosted : HostedTable} {memory : MemoryTable} (h : hosted.Mirrors memory)
    {before later : List (Instant × TableCall)} (horderly : memory.Orderly ((before ++ later).map Prod.snd)) :
    ∃ after mirrored, (Table.ofStore (.hosted hosted)).called before = .ofStore (.hosted after) ∧
      after.Mirrors mirrored ∧ mirrored.Orderly (later.map Prod.snd) ∧ after.name = hosted.name ∧
      after.pageSize = hosted.pageSize := by
  induction before generalizing hosted memory with
  | nil => exact ⟨hosted, memory, rfl, h, horderly, rfl, rfl⟩
  | cons call rest ih =>
    obtain ⟨now, call⟩ := call
    obtain ⟨hcall, hrest⟩ := horderly
    have hfollows := follows_call h.answers now call
    obtain ⟨after, mirrored, hcalled, hmirrors, horderly, hname, hsize⟩ := ih (h.call now hcall).1 hrest
    refine ⟨after, mirrored, ?_, hmirrors, horderly, hname.trans hfollows.name, hsize.trans hfollows.pageSize⟩
    rw [← hcalled]
    unfold Table.called
    rw [List.foldl_cons, Table.call_hosted]

/-- A table that matches a table in memory is regular. -/
theorem Mirrors.isRegular {hosted : HostedTable} {memory : MemoryTable} (h : hosted.Mirrors memory) :
    hosted.IsRegular where
  answers := h.answers
  pageSize := h.pageSize
  distinct := by
    rw [h.rows.map_rowId]
    exact memory.rows.distinct
  readable := h.rows.readable

theorem create_eq_ok {database : Database} {size : Option Number} {name : Option String} {hosted : HostedTable}
    (h : create database size name = .ok hosted) :
    hosted.database = database ∧ hosted.iterators = [] ∧ 0 < hosted.pageSize := by
  unfold create at h
  cases hsize : readPageSize (size.getD (Number.ofNat standardPageSize)) with
  | error failure => simp [hsize, Except.map] at h
  | ok pageSize =>
    rw [hsize, Except.map, Except.ok.injEq] at h
    subst h
    refine ⟨rfl, rfl, ?_⟩
    unfold readPageSize at hsize
    split at hsize
    · next value _ =>
      split at hsize
      · next hvalue =>
        obtain rfl := Except.ok.inj hsize
        have hpositive : 0 < value.num := Rat.num_pos.mpr (lt_of_lt_of_le (by decide) hvalue.2)
        exact Int.pos_iff_toNat_pos.mp hpositive
      · cases hsize
    · cases hsize

end HostedTable

/-- Tables that are empty at first give the same answers, up to the order of members, to calls that are in order.  An
iteration gives each row of the hosted table once in ascending order of identifier and then nothing, and it asks the
database for each page once. -/
theorem tables_agree {size : Option Number} {name : Option String} {hosted : HostedTable}
    (hcreate : HostedTable.create (Database.create [] []) size name = .ok hosted)
    {calls : List (Instant × TableCall)} (horderly : (MemoryTable.create []).Orderly (calls.map Prod.snd)) :
    List.Forall₂ TableReply.Alike (((Table.ofStore (.hosted hosted)).steps calls).map TableStep.reply)
        (((Table.ofStore (.memory (.create []))).steps calls).map TableStep.reply) ∧
      ∀ before now later, calls = before ++ (now, .iterate) :: later →
        ∃ table number entries, (Table.ofStore (.hosted hosted)).called before = .ofStore (.hosted table) ∧
          (table.call now .iterate).2 = .opened (.ok number) ∧
          (entries.Pairwise fun a b ↦ Text.Before a.id b.id) ∧
          (∀ entry, entry ∈ entries ↔ entry.details ≠ none ∧ (table.get entry.id).2 = .ok entry.details) ∧
          hosted.Iterates entries ((Table.ofStore (.hosted (table.call now .iterate).1)).asked number later) := by
  obtain ⟨hdatabase, hiterators, hsize⟩ := HostedTable.create_eq_ok hcreate
  have hmirrors : hosted.Mirrors (.create []) :=
    { answers := by rw [hdatabase]; rfl
      pageSize := hsize
      rows := by rw [hdatabase]; exact .nil
      length := by rw [hiterators]; rfl
      iterators := fun hheld ↦ by rw [hiterators] at hheld; cases hheld }
  refine ⟨hmirrors.replies horderly, ?_⟩
  rintro before now later rfl
  obtain ⟨table, memory, hcalled, hmatch, hlater, hname, hpages⟩ := hmirrors.called horderly
  obtain ⟨-, hrest⟩ := hlater
  obtain ⟨entries, hentries, hascending⟩ := hmatch.isRegular.exists_entries
  refine ⟨table, table.iterators.length, entries, hcalled, rfl, hascending, fun entry ↦ ?_, ?_⟩
  · obtain ⟨id, field⟩ := entry
    rw [HostedTable.mem_entries_iff hentries]
    cases field with
    | none =>
      simp only [ne_eq, not_true, false_and, iff_false]
      rintro ⟨row, -, -, details, -, hnone⟩
      cases hnone
    | some value =>
      rw [hmatch.isRegular.get_eq_ok_iff]
      simp [Database.sortedRows, List.mem_mergeSort]
  · have hreads := HostedTable.Reads.opened hmatch.answers hmatch.pageSize hentries
    obtain ⟨hreplies, pages, hrequests, hcount⟩ := hreads.asked hmatch.iterate hrest rfl
    have hrequest (offset : Nat) : table.iterate.1.pageRequest offset = hosted.pageRequest offset := by
      unfold HostedTable.pageRequest HostedTable.lastPlace HostedTable.iterate
      rw [hname, hpages]
    have hpageSize : table.iterate.1.pageSize = hosted.pageSize := hpages
    rw [Nat.zero_add, Nat.zero_add, hpageSize] at hcount
    refine ⟨?_, fun hmore ↦ ?_⟩
    · rw [List.range_eq_range']
      exact hreplies
    · rw [← hcount hmore, List.range_eq_range']
      simp only [hrequest, hpageSize] at hrequests
      exact hrequests

/-- A row fills a page, so that the end comes with a second page; afterwards another row is written. -/
def TableCall.sample : List (Instant × TableCall) :=
  [(0, .request (.put "a" (.whole "a"))), (1, .iterate), (2, .request (.next 0)), (3, .request (.next 0)),
    (4, .request (.next 0)), (5, .request (.close 0)), (6, .request (.put "b" (.whole "b"))), (7, .get "b"),
    (8, .request (.delete "a"))]

theorem tables_agree_on_full_page :
    HostedTable.create (Database.create [] []) (some (.finite 1)) none =
        .ok ⟨.create [] [], HostedTable.standardName, 1, []⟩ ∧
      (MemoryTable.create []).Orderly (TableCall.sample.map Prod.snd) ∧
      List.Forall₂ TableReply.Alike
        (((Table.ofStore (.hosted ⟨.create [] [], HostedTable.standardName, 1, []⟩)).steps TableCall.sample).map
          TableStep.reply)
        (((Table.ofStore (.memory (.create []))).steps TableCall.sample).map TableStep.reply) := by
  have hcreate : HostedTable.create (Database.create [] []) (some (.finite 1)) none =
      .ok ⟨.create [] [], HostedTable.standardName, 1, []⟩ := rfl
  have horderly : (MemoryTable.create []).Orderly (TableCall.sample.map Prod.snd) := by decide +kernel
  exact ⟨hcreate, horderly, (tables_agree hcreate horderly).1⟩

end ClusterMembership
