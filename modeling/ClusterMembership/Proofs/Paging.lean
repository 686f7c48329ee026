import ClusterMembership.Proofs.StoredShape
import ClusterMembership.Proofs.TableCalls
import ClusterMembership.Proofs.TableRows
import ClusterMembership.Proofs.TextOrder

/-!
# Pages of a hosted table

A row holds an entry when it has an identifier and details that can be read back.  Over a database that answers from its
rows, an iterator does one of three things when it is asked: it hands out what it holds, it has come to the end, or it
fetches the rows at the places that come next and hands out the first of them.  A page can be read exactly when each of
its rows holds an entry.
-/

namespace ClusterMembership

/-- What is read from a list of rows is read from each of them. -/
theorem mapM_eq_ok_iff {α β : Type} {read : α → Except Failure β} {items : List α} {found : List β} :
    items.mapM read = .ok found ↔ List.Forall₂ (fun item value ↦ read item = .ok value) items found := by
  induction items generalizing found with
  | nil => simp [pure, Except.pure, eq_comm]
  | cons item rest ih =>
    rw [List.mapM_cons, List.forall₂_cons_left_iff]
    cases hread : read item with
    | error failure => simp [bind, Except.bind]
    | ok first =>
      simp only [bind, Except.bind, Except.ok.injEq, ← ih]
      cases rest.mapM read with
      | error failure => simp
      | ok others => simp [pure, Except.pure, eq_comm]

/-! ## Stored rows -/

namespace Database

theorem mem_of_mem_store {row other : Value} {rows : List Value} (h : other ∈ store row rows) :
    other = row ∨ other ∈ rows := by
  induction rows with
  | nil => exact .inl (List.mem_singleton.mp h)
  | cons first rest ih =>
    unfold store at h
    split at h
    · exact (List.mem_cons.mp h).imp_right (List.mem_cons_of_mem first)
    · obtain rfl | hrest := List.mem_cons.mp h
      · exact .inr List.mem_cons_self
      · exact (ih hrest).imp_right (List.mem_cons_of_mem first)

/-- Storing a row leaves no two rows with one identifier. -/
theorem nodup_rowId_store (row : Value) {rows : List Value} (h : (rows.map rowId).Nodup) :
    ((store row rows).map rowId).Nodup := by
  have hentries (rows : List Value) : (rows.map entry).map Prod.fst = rows.map rowId := List.map_map
  have hstored := (OrderedMap.insert ⟨rows.map entry, hentries rows ▸ h⟩ (rowId row) (some row)).distinct
  rw [← hentries, map_entry_store]
  exact hstored

theorem mem_store_self (row : Value) (rows : List Value) : row ∈ store row rows := by
  induction rows with
  | nil => exact List.mem_singleton_self row
  | cons first rest ih =>
    unfold store
    split
    · exact List.mem_cons_self
    · exact List.mem_cons_of_mem first ih

/-- In rows with identifiers of their own, a row is the only one under its identifier. -/
theorem filter_rowId_eq_singleton {row : Value} {rows : List Value} (h : (rows.map rowId).Nodup) (hmem : row ∈ rows) :
    rows.filter (fun other ↦ rowId other = rowId row) = [row] := by
  induction rows with
  | nil => exact absurd hmem List.not_mem_nil
  | cons first rest ih =>
    obtain ⟨hnew, hrest⟩ := List.nodup_cons.mp h
    obtain rfl | hbehind := List.mem_cons.mp hmem
    · have hnone : rest.filter (fun other ↦ rowId other = rowId row) = [] := by
        rw [List.filter_eq_nil_iff]
        intro other hother hsame
        exact hnew (of_decide_eq_true hsame ▸ List.mem_map_of_mem hother)
      rw [List.filter_cons_of_pos (by simp), hnone]
    · have hne : rowId first ≠ rowId row := fun hsame ↦ hnew (hsame ▸ List.mem_map_of_mem hbehind)
      rw [List.filter_cons_of_neg (by simpa using hne), ih hrest hbehind]

end Database

/-! ## Entries -/

/-- An entry that a row holds: the row has its identifier, and details that are read back as the entry's. -/
def RowHolds (row : Value) (entry : TableEntry) : Prop :=
  row.member "id" = some (.text entry.id) ∧
    ∃ details, (row.member "details").bind StoredDetails.read? = some details ∧
      entry.details = some details.toValue

namespace RowHolds

variable {row : Value} {entry other : TableEntry}

theorem rowId_eq (h : RowHolds row entry) : Database.rowId row = entry.id := by
  rw [Database.rowId, h.1]
  rfl

/-- A row with an entry is an object. -/
theorem isTruthy (h : RowHolds row entry) : row.isTruthy = true := by
  cases row with
  | object members => rfl
  | _ => cases h.1

/-- A row holds one entry. -/
theorem unique (h : RowHolds row entry) (hother : RowHolds row other) : entry = other := by
  obtain ⟨id, field⟩ := entry
  obtain ⟨id', field'⟩ := other
  obtain ⟨hid, details, hdetails, rfl⟩ := h
  obtain ⟨hid', details', hdetails', rfl⟩ := hother
  obtain rfl : id = id' := by simpa using hid.symm.trans hid'
  obtain rfl : details = details' := Option.some.inj (hdetails.symm.trans hdetails')
  rfl

end RowHolds

/-- The rows behind the places that an iterator has passed. -/
def HostedIterator.ahead (held : HostedIterator) (rows : List Value) : List Value :=
  if held.exhausted then [] else (Database.sortedRows rows).drop held.offset

namespace HostedTable

/-! ## Rows -/

/-- A row is read without an error exactly when it holds an entry, and then that entry is read. -/
theorem readRow_eq_ok_iff (table : HostedTable) (operation : String) (row : Value) (entry : TableEntry) :
    table.readRow operation row = .ok entry ↔ RowHolds row entry := by
  obtain ⟨id, field⟩ := entry
  unfold readRow RowHolds Value.member
  cases row with
  | object members =>
    simp only
    split
    · next given details hid hdetails =>
      simp only [hid, hdetails, Except.ok.injEq, TableEntry.mk.injEq, Option.some.injEq, Value.text.injEq]
      grind
    · next given hid hdetails => simp [hid, hdetails]
    · next hother _ =>
      simp only [reduceCtorEq, false_iff]
      rintro ⟨hid, details, hdetails, -⟩
      exact hother _ _ hid hdetails
  | _ => simp

/-- A row with an identifier whose details cannot be read back is refused by name. -/
theorem readRow_malformed (table : HostedTable) (operation : String) {row : Value} {id : String}
    (hid : row.member "id" = some (.text id)) (hdetails : (row.member "details").bind StoredDetails.read? = none) :
    table.readRow operation row = .error (.service
      (.persistence s!"Malformed row in {table.name} for {id}" operation (some id))) := by
  cases row with
  | object members =>
    unfold Value.member at hid hdetails
    unfold readRow
    simp only [hid, hdetails, toString, String.append_assoc]
  | _ => cases hid

theorem readRows_eq_ok_iff (table : HostedTable) (rows : List Value) (entries : List TableEntry) :
    table.readRows rows = .ok entries ↔ List.Forall₂ RowHolds rows entries := by
  unfold readRows
  simp only [mapM_eq_ok_iff, readRow_eq_ok_iff]

/-! ## Requests -/

/-- A table after a request that only reads. -/
def noted (table : HostedTable) (request : DatabaseRequest) : HostedTable :=
  { table with database := { table.database with requests := table.database.requests ++ [request] } }

variable {table : HostedTable}

/-- A query that is not answered beforehand is answered from the rows. -/
theorem send_of_nil (h : table.database.answers = []) (query : DatabaseQuery) :
    table.send query =
      ({ table with database :=
          { table.database with
            rows := (Database.answer table.database.rows query).1
            requests := table.database.requests ++ [⟨table.name, query⟩] } },
        (Database.answer table.database.rows query).2) := by
  unfold send
  rw [Database.send_of_nil h]

def rowOf (now : Instant) (id : String) (details : Field) : Value :=
  .ofFields [("id", some (.text id)), ("details", details), ("updated_at", some (.text (Instant.text now)))]

theorem rowHolds_rowOf (now : Instant) (id : String) {details kept : Details}
    (h : StoredDetails.read? details.toValue = some kept) :
    RowHolds (rowOf now id (some details.toValue)) ⟨id, some kept.toValue⟩ := ⟨rfl, kept, h, rfl⟩

theorem put_of_nil (h : table.database.answers = []) (now : Instant) (id : String) (details : Field) :
    table.put now id details =
      ({ table with database :=
          { table.database with
            rows := Database.store (rowOf now id details) table.database.rows
            requests := table.database.requests ++ [⟨table.name, .upsert (rowOf now id details)⟩] } }, .ok ()) := by
  unfold put
  simp only [send_of_nil h]
  rfl

theorem delete_of_nil (h : table.database.answers = []) (id : String) :
    table.delete id =
      ({ table with database :=
          { table.database with
            rows := table.database.rows.filter fun row ↦ Database.rowId row ≠ id
            requests := table.database.requests ++ [⟨table.name, .delete id⟩] } }, .ok ()) := by
  unfold delete
  simp only [send_of_nil h]
  rfl

/-- Details are looked for among the rows under their identifier. -/
theorem get_of_nil (h : table.database.answers = []) {id : String}
    (hrows : table.database.rows.filter (fun row ↦ Database.rowId row = id) = []) :
    table.get id = (table.noted ⟨table.name, .selectOne id⟩, .ok none) := by
  unfold get
  simp only [send_of_nil h, Database.answer, hrows]
  rfl

/-- The only row under an identifier is read. -/
theorem get_of_row (h : table.database.answers = []) {id : String} {row : Value}
    (hrow : table.database.rows.filter (fun row ↦ Database.rowId row = id) = [row])
    (hobject : row.isTruthy = true) :
    table.get id = (table.noted ⟨table.name, .selectOne id⟩, (table.readRow "get" row).map TableEntry.details) := by
  have hnull : Value.isTruthy .null = false := rfl
  unfold get
  simp only [send_of_nil h, Database.answer, hrow, hobject, hnull]
  rfl

def page (table : HostedTable) (offset : Nat) : List Value :=
  ((Database.sortedRows table.database.rows).drop offset).take table.pageSize

def pageRequest (table : HostedTable) (offset : Nat) : DatabaseRequest :=
  ⟨table.name, .selectPage offset (table.lastPlace offset) table.pageSize⟩

theorem fetch_of_nil (h : table.database.answers = []) (offset : Nat) :
    table.fetch offset = (table.noted (table.pageRequest offset), table.readRows (table.page offset)) := by
  unfold fetch
  rw [send_of_nil h]
  rfl

theorem mem_rows_of_mem_page {offset : Nat} {row : Value} (h : row ∈ table.page offset) :
    row ∈ table.database.rows :=
  List.mem_mergeSort.mp (List.mem_of_mem_drop (List.mem_of_mem_take h))

/-- Rows hold a list of entries exactly when each of them holds an entry. -/
theorem exists_entries_iff (rows : List Value) :
    (∃ entries, List.Forall₂ RowHolds rows entries) ↔ ∀ row ∈ rows, ∃ entry, RowHolds row entry := by
  induction rows with
  | nil => exact iff_of_true ⟨[], .nil⟩ (List.forall_mem_nil _)
  | cons row rest ih =>
    rw [List.forall_mem_cons, ← ih]
    constructor
    · rintro ⟨_, _ | ⟨hrow, hrest⟩⟩
      exact ⟨⟨_, hrow⟩, _, hrest⟩
    · rintro ⟨⟨entry, hrow⟩, entries, hrest⟩
      exact ⟨entry :: entries, .cons hrow hrest⟩

/-! ## Asking an iterator -/

variable {number offset : Nat}

/-- An iterator hands out what it holds, one entry after another. -/
theorem next_of_cons {entry : TableEntry} {rest : List TableEntry} {exhausted : Bool}
    (hheld : table.iterators[number]? = some ⟨offset, entry :: rest, exhausted, false⟩) :
    table.next number = (table.setIterator number ⟨offset, rest, exhausted, false⟩, none, .ok (some entry)) := by
  unfold next
  simp only [hheld]
  rfl

theorem setIterator_self {held : HostedIterator} (hheld : table.iterators[number]? = some held) :
    table.setIterator number held = table := by
  obtain ⟨hlength, hget⟩ := List.getElem?_eq_some_iff.mp hheld
  rw [setIterator, ← hget, List.set_getElem_self]

/-- At the end an iterator hands out nothing, however often it is asked. -/
theorem next_of_exhausted (hheld : table.iterators[number]? = some ⟨offset, [], true, false⟩) :
    table.next number = (table, none, .ok none) := by
  have hsame : table.setIterator number ⟨offset, [], true, false⟩ = table := setIterator_self hheld
  unfold next
  simp only [hheld]
  unfold shift
  simp [hsame]

/-- An iterator that holds nothing fetches the next page and hands out the first of its entries. -/
theorem next_of_page (hheld : table.iterators[number]? = some ⟨offset, [], false, false⟩)
    (hanswers : table.database.answers = []) {entries : List TableEntry}
    (hentries : List.Forall₂ RowHolds (table.page offset) entries) :
    table.next number =
      ((table.noted (table.pageRequest offset)).setIterator number
        ⟨offset + entries.length, entries.tail, entries.length < table.pageSize, false⟩,
        some ⟨table.name, entries.length, offset + entries.length⟩, .ok entries.head?) := by
  have hread := (table.readRows_eq_ok_iff _ _).mpr hentries
  unfold next
  simp only [hheld, fetch_of_nil hanswers, hread]
  rfl

/-- A page that cannot be read fails the call. -/
theorem next_of_failed (hheld : table.iterators[number]? = some ⟨offset, [], false, false⟩)
    (hanswers : table.database.answers = []) {failure : Failure}
    (hread : table.readRows (table.page offset) = .error failure) : (table.next number).2.2 = .error failure := by
  unfold next
  simp only [hheld, fetch_of_nil hanswers, hread]
  rfl

theorem next_of_unreadable (hheld : table.iterators[number]? = some ⟨offset, [], false, false⟩)
    (hanswers : table.database.answers = [])
    (hunreadable : ¬∃ entries, List.Forall₂ RowHolds (table.page offset) entries) :
    ∃ failure, (table.next number).2.2 = .error failure := by
  cases hread : table.readRows (table.page offset) with
  | ok entries => exact absurd ⟨entries, (table.readRows_eq_ok_iff _ _).mp hread⟩ hunreadable
  | error failure => exact ⟨failure, next_of_failed hheld hanswers hread⟩

/-! ## The rows that are still to be given -/

/-- An open iterator with the rows that it has yet to give: those of the page that it has read, and those behind it. -/
def Brings (table : HostedTable) (number : Nat) (pending : List Value) : Prop :=
  ∃ held front, table.iterators[number]? = some held ∧ held.closed = false ∧
    List.Forall₂ RowHolds front held.buffer ∧ pending = front ++ held.ahead table.database.rows

/-- An iterator just opened has yet to give every row. -/
theorem brings_iterate (table : HostedTable) :
    table.iterate.1.Brings table.iterate.2 (Database.sortedRows table.database.rows) := by
  refine ⟨⟨0, [], false, false⟩, [], ?_, rfl, .nil, rfl⟩
  exact List.getElem?_concat_length

/-- Behind the last row nothing is given, however often. -/
theorem Brings.next_nil (h : table.Brings number []) (hanswers : table.database.answers = []) :
    (table.next number).2.2 = .ok none ∧ (table.next number).1.Brings number [] := by
  obtain ⟨⟨offset, buffer, exhausted, closed⟩, front, hheld, hclosed, hfront, hpending⟩ := id h
  obtain rfl : closed = false := hclosed
  obtain ⟨rfl, hahead⟩ := List.append_eq_nil_iff.mp hpending.symm
  obtain rfl : buffer = [] := List.forall₂_nil_left_iff.mp hfront
  cases exhausted with
  | true =>
    rw [next_of_exhausted hheld]
    exact ⟨rfl, h⟩
  | false =>
    have hnone : (Database.sortedRows table.database.rows).drop offset = [] := hahead
    have hpage : table.page offset = [] := by
      unfold page
      rw [hnone, List.take_nil]
    have hread : List.Forall₂ RowHolds (table.page offset) [] := hpage ▸ .nil
    rw [next_of_page hheld hanswers hread]
    refine ⟨rfl, _, [], List.getElem?_set_self (List.getElem?_eq_some_iff.mp hheld).1, rfl, .nil, ?_⟩
    unfold HostedIterator.ahead
    split
    · rfl
    · exact hnone.symm

/-- The next row is given, unless a row on its page cannot be read. -/
theorem Brings.next_cons {row : Value} {rest : List Value} (h : table.Brings number (row :: rest))
    (hanswers : table.database.answers = []) (hsize : 0 < table.pageSize) :
    (∃ entry, RowHolds row entry ∧ (table.next number).2.2 = .ok (some entry) ∧
        (table.next number).1.Brings number rest) ∨
      (∃ other ∈ row :: rest, ¬∃ entry, RowHolds other entry) ∧
        ∃ failure, (table.next number).2.2 = .error failure := by
  obtain ⟨⟨offset, buffer, exhausted, closed⟩, front, hheld, hclosed, hfront, hpending⟩ := h
  obtain rfl : closed = false := hclosed
  have hset (after : HostedIterator) : (table.iterators.set number after)[number]? = some after :=
    List.getElem?_set_self (List.getElem?_eq_some_iff.mp hheld).1
  cases buffer with
  | cons entry more =>
    obtain ⟨first, others, hentry, hothers, rfl⟩ := List.forall₂_cons_right_iff.mp hfront
    obtain ⟨rfl, rfl⟩ := List.cons.inj hpending
    rw [next_of_cons hheld]
    exact .inl ⟨entry, hentry, rfl, ⟨offset, more, exhausted, false⟩, others, hset _, rfl, hothers, rfl⟩
  | nil =>
    obtain rfl : front = [] := List.forall₂_nil_right_iff.mp hfront
    cases exhausted with
    | true => cases hpending
    | false =>
      have hbehind : (Database.sortedRows table.database.rows).drop offset = row :: rest := hpending.symm
      obtain ⟨size, hsize⟩ := Nat.exists_eq_succ_of_ne_zero (Nat.ne_of_gt hsize)
      have hpage : table.page offset = row :: rest.take size := by
        unfold page
        rw [hbehind, hsize, List.take_succ_cons]
      by_cases hread : ∃ entries, List.Forall₂ RowHolds (table.page offset) entries
      · obtain ⟨entries, hentries⟩ := hread
        rw [next_of_page hheld hanswers hentries]
        rw [hpage] at hentries
        obtain ⟨entry, more, hentry, hmore, rfl⟩ := List.forall₂_cons_left_iff.mp hentries
        refine .inl ⟨entry, hentry, rfl, ⟨_, more, _, false⟩, rest.take size, hset _, rfl, hmore, ?_⟩
        have hlength : more.length = min size rest.length := by rw [← hmore.length_eq, List.length_take]
        unfold HostedIterator.ahead
        simp only [List.length_cons, decide_eq_true_eq]
        split
        · next hshort => rw [List.append_nil, List.take_of_length_le (by omega)]
        · next hfull =>
          have hmoved : more.length = size := by omega
          have hdropped : (Database.sortedRows table.database.rows).drop (offset + (more.length + 1)) =
              rest.drop size := by
            rw [← List.drop_drop, hbehind, hmoved, List.drop_succ_cons]
          exact ((congrArg (rest.take size ++ ·) hdropped).trans (List.take_append_drop size rest)).symm
      · refine .inr ⟨?_, next_of_unreadable hheld hanswers hread⟩
        by_contra hall
        push Not at hall
        refine hread ((exists_entries_iff _).mpr fun other hother ↦ hall other ?_)
        rw [hpage] at hother
        exact List.mem_cons.mpr ((List.mem_cons.mp hother).imp_right List.mem_of_mem_take)

/-! ## Calls -/

/-- What a call makes of the rows. -/
def rowsAfter (now : Instant) (rows : List Value) : TableCall → List Value
  | .request (.put id details) => Database.store (rowOf now id (some details.toValue)) rows
  | .request (.delete id) => rows.filter fun row ↦ Database.rowId row ≠ id
  | _ => rows

/-- A table that was called, with the same name and page size and the rows that the call has made. -/
structure Follows (now : Instant) (call : TableCall) (before after : HostedTable) : Prop where
  name : after.name = before.name
  pageSize : after.pageSize = before.pageSize
  answers : after.database.answers = []
  rows : after.database.rows = rowsAfter now before.database.rows call

theorem Follows.pageRequest_eq {now : Instant} {call : TableCall} {after : HostedTable}
    (h : Follows now call table after) (offset : Nat) : after.pageRequest offset = table.pageRequest offset := by
  unfold pageRequest lastPlace
  rw [h.name, h.pageSize]

theorem fst_get_of_nil (h : table.database.answers = []) (id : String) :
    (table.get id).1 = table.noted ⟨table.name, .selectOne id⟩ := by
  have hrows : (Database.answer table.database.rows (.selectOne id)).1 = table.database.rows := by
    unfold Database.answer
    simp only
    split <;> rfl
  unfold get
  simp only [send_of_nil h, hrows]
  split
  · rfl
  · split <;> rfl

theorem follows_call (h : table.database.answers = []) (now : Instant) (call : TableCall) :
    Follows now call table (table.call now call).1 := by
  rcases call with id | _ | ⟨id, details⟩ | id | iterator | iterator
  · change Follows now (.get id) table (table.get id).1
    rw [fst_get_of_nil h]
    exact ⟨rfl, rfl, h, rfl⟩
  · exact ⟨rfl, rfl, h, rfl⟩
  · change Follows now (.request (.put id details)) table (table.put now id (some details.toValue)).1
    rw [put_of_nil h]
    exact ⟨rfl, rfl, h, rfl⟩
  · change Follows now (.request (.delete id)) table (table.delete id).1
    rw [delete_of_nil h]
    exact ⟨rfl, rfl, h, rfl⟩
  · change Follows now (.request (.next iterator)) table (table.next iterator).1
    unfold next
    split
    · exact ⟨rfl, rfl, h, rfl⟩
    · exact ⟨rfl, rfl, h, rfl⟩
    · split
      · rw [fetch_of_nil h]
        split
        · next hsent =>
          obtain rfl := (congrArg Prod.fst hsent).symm
          exact ⟨rfl, rfl, h, rfl⟩
        · next hsent =>
          obtain rfl := (congrArg Prod.fst hsent).symm
          exact ⟨rfl, rfl, h, rfl⟩
      · exact ⟨rfl, rfl, h, rfl⟩
  · change Follows now (.request (.close iterator)) table (table.close iterator)
    unfold close
    split <;> exact ⟨rfl, rfl, h, rfl⟩

theorem getElem?_setIterator_of_ne {other : Nat} (hne : other ≠ number) (held : HostedIterator) :
    (table.setIterator other held).iterators[number]? = table.iterators[number]? := List.getElem?_set_ne hne

theorem iterators_get (table : HostedTable) (id : String) : (table.get id).1.iterators = table.iterators := by
  unfold get
  simp only
  split
  · rfl
  · split <;> rfl

theorem getElem?_iterators_next (table : HostedTable) {other : Nat} (hne : other ≠ number) :
    (table.next other).1.iterators[number]? = table.iterators[number]? := by
  unfold next
  split
  · rfl
  · rfl
  · next iterator _ _ =>
    split
    · have hfetched := table.iterators_fetch iterator.offset
      split
      · next hsent =>
        rw [hsent] at hfetched
        exact congrArg (·[number]?) hfetched
      · next hsent =>
        rw [hsent] at hfetched
        exact (getElem?_setIterator_of_ne hne _).trans (congrArg (·[number]?) hfetched)
    · exact getElem?_setIterator_of_ne hne _

theorem getElem?_iterators_close (table : HostedTable) {other : Nat} (hne : other ≠ number) :
    (table.close other).iterators[number]? = table.iterators[number]? := by
  unfold close
  split
  · exact getElem?_setIterator_of_ne hne _
  · rfl

/-- An iterator stands as it was while it is neither asked nor closed. -/
theorem iterator_call {held : HostedIterator} (hheld : table.iterators[number]? = some held) (now : Instant)
    {call : TableCall}
    (hnext : call ≠ .request (.next number)) (hclose : call ≠ .request (.close number)) :
    (table.call now call).1.iterators[number]? = some held := by
  rcases call with id | _ | ⟨id, details⟩ | id | other | other
  · exact (congrArg (·[number]?) (table.iterators_get id)).trans hheld
  · exact (List.getElem?_append_left (List.getElem?_eq_some_iff.mp hheld).1).trans hheld
  · exact hheld
  · exact hheld
  · exact (table.getElem?_iterators_next fun hsame ↦ hnext (by rw [hsame])).trans hheld
  · exact (table.getElem?_iterators_close fun hsame ↦ hclose (by rw [hsame])).trans hheld

/-! ## Regular tables -/

/-- A table whose database answers from its rows, each with an identifier of its own and with an entry. -/
structure IsRegular (table : HostedTable) : Prop where
  answers : table.database.answers = []
  pageSize : 0 < table.pageSize
  distinct : (table.database.rows.map Database.rowId).Nodup
  readable : ∀ row ∈ table.database.rows, ∃ entry, RowHolds row entry

variable {rows : List Value} {entries : List TableEntry}

/-- An entry is among those of some rows when one of the rows holds it. -/
theorem mem_entries_iff (h : List.Forall₂ RowHolds rows entries) (entry : TableEntry) :
    entry ∈ entries ↔ ∃ row ∈ rows, RowHolds row entry := by
  induction h with
  | nil => simp
  | @cons row other rows entries hrow _ ih =>
    rw [List.mem_cons, ih, List.exists_mem_cons_iff]
    exact or_congr_left ⟨fun hsame ↦ hsame ▸ hrow, fun hholds ↦ hholds.unique hrow⟩

theorem map_rowId_of_holds (h : List.Forall₂ RowHolds rows entries) :
    rows.map Database.rowId = entries.map TableEntry.id := by
  induction h with
  | nil => rfl
  | cons hrow _ ih => rw [List.map_cons, List.map_cons, hrow.rowId_eq, ih]

namespace IsRegular

/-- The rows in order hold a list of entries whose identifiers ascend strictly. -/
theorem exists_entries (h : table.IsRegular) :
    ∃ entries, List.Forall₂ RowHolds (Database.sortedRows table.database.rows) entries ∧
      entries.Pairwise fun a b ↦ Text.Before a.id b.id := by
  have hsorted : ∀ row ∈ Database.sortedRows table.database.rows, ∃ entry, RowHolds row entry :=
    fun row hrow ↦ h.readable row (List.mem_mergeSort.mp hrow)
  obtain ⟨entries, hentries⟩ := (exists_entries_iff _).mpr hsorted
  refine ⟨entries, hentries, ?_⟩
  have hascending := List.pairwise_map.mpr (pairwise_before_mergeSort h.distinct)
  exact List.pairwise_map.mp (map_rowId_of_holds hentries ▸ hascending)

/-- Details are found under an identifier exactly when a row holds them under it. -/
theorem get_eq_ok_iff (h : table.IsRegular) (id : String) (value : Value) :
    (table.get id).2 = .ok (some value) ↔ ∃ row ∈ table.database.rows, RowHolds row ⟨id, some value⟩ := by
  by_cases hrow : ∃ row ∈ table.database.rows, Database.rowId row = id
  · obtain ⟨row, hmem, rfl⟩ := hrow
    obtain ⟨entry, hentry⟩ := h.readable row hmem
    rw [get_of_row h.answers (Database.filter_rowId_eq_singleton h.distinct hmem) hentry.isTruthy,
      (table.readRow_eq_ok_iff "get" row entry).mpr hentry]
    constructor
    · intro hfound
      have hdetails : entry.details = some value := Except.ok.inj hfound
      exact ⟨row, hmem, hentry.rowId_eq ▸ hdetails ▸ hentry⟩
    · rintro ⟨other, hother, hholds⟩
      obtain rfl : other = row := List.inj_on_of_nodup_map h.distinct hother hmem hholds.rowId_eq
      exact congrArg (fun entry ↦ Except.ok (TableEntry.details entry)) (hentry.unique hholds)
  · have hnone : table.database.rows.filter (fun row ↦ Database.rowId row = id) = [] := by
      rw [List.filter_eq_nil_iff]
      exact fun row hmem hsame ↦ hrow ⟨row, hmem, of_decide_eq_true hsame⟩
    rw [get_of_nil h.answers hnone]
    refine ⟨nofun, ?_⟩
    rintro ⟨row, hmem, hholds⟩
    exact absurd ⟨row, hmem, hholds.rowId_eq⟩ hrow

end IsRegular

end HostedTable

end ClusterMembership
