import Mathlib.Data.Finset.Card
import ClusterMembership.Proofs.Restart
import ClusterMembership.Proofs.TableAgreement

/-!
# Snapshots of a table in memory

Whatever calls a table in memory gets, in whatever order, it answers as the calls before say.  The details under an
identifier are those of the last put that neither a deletion nor an emptying of the table followed, the rows that
the table was made with counting as puts.  An iterator hands out what was stored when it was opened, one entry for
each request, and what is written later is nothing to it.  Since iterators are numbered in the order in which they
are opened, the calls also say which of them are open.
-/

namespace ClusterMembership

/-! ## Calls -/

/-- A call of a table in memory, which can also be emptied. -/
inductive MemoryCall where
  | call (call : TableCall)
  | clear
  deriving DecidableEq

namespace MemoryCall

/-- Ask for the details under an identifier. -/
abbrev get (id : String) : MemoryCall := .call (.get id)

abbrev put (id : String) (details : Details) : MemoryCall := .call (.request (.put id details))

abbrev iterate : MemoryCall := .call .iterate

/-- Ask an iterator for its next entry. -/
abbrev next (number : Nat) : MemoryCall := .call (.request (.next number))

abbrev close (number : Nat) : MemoryCall := .call (.request (.close number))

/-- A call that writes or deletes the row of a datanode. -/
def Touches (id : String) : MemoryCall → Prop
  | .call (.request request) => request.IsFor id
  | .call (.get _) | .call .iterate => False
  | .clear => True

def detailsAfter (id : String) (details : Option Details) : MemoryCall → Option Details
  | .call (.request (.put written given)) => if written = id then some given else details
  | .call (.request (.delete deleted)) => if deleted = id then none else details
  | .call (.request (.next _)) | .call (.request (.close _)) | .call (.get _) | .call .iterate => details
  | .clear => none

/-- The details after a call are those that it puts, or those from before that it does not touch. -/
theorem detailsAfter_eq_some_iff {id : String} {before : Option Details} {call : MemoryCall} {details : Details} :
    call.detailsAfter id before = some details ↔
      call = .put id details ∨ before = some details ∧ ¬ call.Touches id := by
  rcases call with (_ | _ | ⟨written, given⟩ | deleted | _ | _) | _
  case call.request.put =>
    by_cases hsame : written = id <;> simp [detailsAfter, Touches, TableRequest.IsFor, hsame]
  case call.request.delete =>
    by_cases hsame : deleted = id <;> simp [detailsAfter, Touches, TableRequest.IsFor, hsame]
  all_goals simp [detailsAfter, Touches, TableRequest.IsFor]

end MemoryCall

def TableEntry.ofStored (stored : String × Details) : TableEntry := ⟨stored.1, some stored.2.toValue⟩

theorem TableEntry.ofStored_injective : Function.Injective ofStored := by
  intro stored other h
  obtain ⟨hid, hdetails⟩ := TableEntry.mk.inj h
  exact Prod.ext hid (Details.toValue_inj.mp (Option.some.inj hdetails))

namespace MemoryTable

def respond (table : MemoryTable) : MemoryCall → MemoryTable × TableReply
  | .call call => table.call call
  | .clear => (table.clear, .answered (.ok none))

def afterCalls (table : MemoryTable) (calls : List MemoryCall) : MemoryTable :=
  calls.foldl (fun table call ↦ (table.respond call).1) table

theorem afterCalls_append (table : MemoryTable) (calls others : List MemoryCall) :
    table.afterCalls (calls ++ others) = (table.afterCalls calls).afterCalls others := by
  unfold afterCalls
  rw [List.foldl_append]

theorem afterCalls_concat (table : MemoryTable) (calls : List MemoryCall) (call : MemoryCall) :
    table.afterCalls (calls ++ [call]) = ((table.afterCalls calls).respond call).1 :=
  table.afterCalls_append calls [call]

def storing (rows : List (String × Details)) : MemoryTable := create (rows.map TableEntry.ofStored)

/-- The rows that a table is made with are there as if they had been put. -/
theorem storing_eq_afterCalls (rows : List (String × Details)) :
    storing rows = (create []).afterCalls (rows.map fun row ↦ .put row.1 row.2) := by
  unfold storing create OrderedMap.ofList afterCalls
  rw [List.map_nil, List.foldl_nil]
  generalize OrderedMap.empty = map
  induction rows generalizing map with
  | nil => rfl
  | cons row rest ih => exact ih (map.insert row.1 (some row.2.toValue))

end MemoryTable

/-! ## Rows -/

/-- Details that a table made with some rows holds after some calls, by what was put and deleted since. -/
def IsStored (rows : List (String × Details)) (calls : List MemoryCall) (id : String) (details : Details) : Prop :=
  Since (fun _ call ↦ call = MemoryCall.put id details) (fun _ call ↦ call.Touches id)
    (rows.map (fun row ↦ .put row.1 row.2) ++ calls)

namespace MemoryTable

/-- A table has for each identifier the details that a function tells, or no row. -/
def HasRows (table : MemoryTable) (details : String → Option Details) : Prop :=
  ∀ id, table.rows.get? id = (details id).map fun found ↦ some found.toValue

theorem HasRows.respond {table : MemoryTable} {details : String → Option Details} (h : table.HasRows details)
    (call : MemoryCall) : (table.respond call).1.HasRows fun id ↦ call.detailsAfter id (details id) := by
  intro id
  rcases call with (_ | _ | ⟨written, given⟩ | deleted | iterator | iterator) | _
  case call.request.put =>
    have hrow := OrderedMap.get?_insert table.rows written id (some given.toValue)
    by_cases hsame : written = id
    · simpa [MemoryTable.respond, MemoryTable.call, put, MemoryCall.detailsAfter, hsame] using hrow
    · simpa [MemoryTable.respond, MemoryTable.call, put, MemoryCall.detailsAfter, hsame, h id] using hrow
  case call.request.delete =>
    have hrow := OrderedMap.get?_erase table.rows deleted id
    by_cases hsame : deleted = id
    · simpa [MemoryTable.respond, MemoryTable.call, delete, MemoryCall.detailsAfter, hsame] using hrow
    · simpa [MemoryTable.respond, MemoryTable.call, delete, MemoryCall.detailsAfter, hsame, h id] using hrow
  case call.request.next => exact (congrArg (OrderedMap.get? · id) (table.rows_next iterator)).trans (h id)
  case call.request.close => exact (congrArg (OrderedMap.get? · id) (table.rows_close iterator)).trans (h id)
  case call.get | call.iterate => exact h id
  case clear => rfl

/-- After a run that began with an empty table the rows are what was put and not touched since. -/
theorem exists_hasRows_afterCalls (calls : List MemoryCall) :
    ∃ details : String → Option Details, ((create []).afterCalls calls).HasRows details ∧
      ∀ id found, details id = some found ↔
        Since (fun _ call ↦ call = MemoryCall.put id found) (fun _ call ↦ call.Touches id) calls := by
  induction calls using List.reverseRecOn with
  | nil =>
    refine ⟨fun _ ↦ none, fun id ↦ rfl, fun id found ↦ ?_⟩
    simp [not_since_nil]
  | append_singleton past call ih =>
    obtain ⟨details, hrows, hsince⟩ := ih
    refine ⟨fun id ↦ call.detailsAfter id (details id), ?_, fun id found ↦ ?_⟩
    · rw [afterCalls_concat]
      exact hrows.respond call
    · rw [since_append_iff, MemoryCall.detailsAfter_eq_some_iff, hsince]

theorem exists_hasRows_storing (rows : List (String × Details)) (calls : List MemoryCall) :
    ∃ details : String → Option Details, ((storing rows).afterCalls calls).HasRows details ∧
      ∀ id found, details id = some found ↔ IsStored rows calls id found := by
  rw [storing_eq_afterCalls, ← afterCalls_append]
  exact exists_hasRows_afterCalls _

theorem HasRows.get_eq {table : MemoryTable} {details : String → Option Details} (h : table.HasRows details)
    (id : String) : table.get id = (details id).map Details.toValue := by
  unfold MemoryTable.get
  rw [h id]
  cases details id <;> rfl

/-- The rows in order are all that is stored, each identifier once. -/
theorem HasRows.exists_sortedRows {table : MemoryTable} {details : String → Option Details}
    (h : table.HasRows details) : ∃ entries : List (String × Details),
      table.sortedRows = entries.map TableEntry.ofStored ∧
      entries.Pairwise (fun stored other ↦ Text.Before stored.1 other.1) ∧
      ∀ id found, (id, found) ∈ entries ↔ details id = some found := by
  have hrow {id : String} {field : Field} :
      table.rows.get? id = some field ↔ ∃ found, details id = some found ∧ some found.toValue = field := by
    rw [h id, Option.map_eq_some_iff]
  obtain ⟨entries, hentries⟩ : table.sortedRows ∈ Set.range (List.map TableEntry.ofStored) := by
    rw [Set.range_list_map]
    intro row hmem
    obtain ⟨found, -, hfound⟩ := hrow.mp ((table.mem_sortedRows_iff row).mp hmem)
    exact ⟨(row.id, found), by rw [TableEntry.ofStored, hfound]⟩
  refine ⟨entries, hentries.symm, ?_, fun id found ↦ ?_⟩
  · have hordered : table.sortedRows.Pairwise fun row other ↦ Text.Before row.id other.id :=
      pairwise_before_mergeSort (by simpa [Function.comp_def] using table.rows.distinct)
    rw [← hentries, List.pairwise_map] at hordered
    exact hordered
  · rw [← List.mem_map_of_injective TableEntry.ofStored_injective, hentries, table.mem_sortedRows_iff]
    change table.rows.get? id = some (some found.toValue) ↔ _
    rw [h id]
    cases details id <;> simp [Details.toValue_inj]

end MemoryTable

/-! ## Iterators -/

/-- An iterator that was opened in a run of calls and not closed since. -/
def IsOpen (calls : List MemoryCall) (number : Nat) : Prop :=
  Since (fun past call ↦ call = MemoryCall.iterate ∧ past.count .iterate = number)
    (fun _ call ↦ call = .close number) calls

namespace MemoryTable

variable {table : MemoryTable} {number : Nat}

theorem exists_next_eq (table : MemoryTable) (number : Nat) :
    (table.next number).1 = table ∨ ∃ iterator, (table.next number).1 = table.setIterator number iterator := by
  unfold next
  split
  · exact .inl rfl
  · exact .inl rfl
  · exact .inl rfl
  · exact .inr ⟨_, rfl⟩

theorem exists_close_eq (table : MemoryTable) (number : Nat) :
    table.close number = table ∨ ∃ iterator, table.close number = table.setIterator number iterator := by
  unfold close
  split
  · exact .inr ⟨_, rfl⟩
  · exact .inl rfl

theorem next_of_closed {remaining : List TableEntry} (h : table.iterators[number]? = some ⟨remaining, true⟩) :
    table.next number = (table, .error (.error "Iterator is closed")) := by
  unfold next
  simp only [h]

/-- A call opens one iterator or none. -/
theorem length_iterators_respond (table : MemoryTable) (call : MemoryCall) :
    (table.respond call).1.iterators.length = table.iterators.length + if call = .iterate then 1 else 0 := by
  have hset (iterator : MemoryIterator) (other : Nat) :
      (table.setIterator other iterator).iterators.length = table.iterators.length := List.length_set
  rcases call with (_ | _ | _ | _ | other | other) | _
  case call.iterate => exact List.length_append
  case call.request.next =>
    change (table.next other).1.iterators.length = _
    obtain hsame | ⟨iterator, hnext⟩ := table.exists_next_eq other
    · rw [hsame]; rfl
    · rw [hnext]; exact hset iterator other
  case call.request.close =>
    change (table.close other).iterators.length = _
    obtain hsame | ⟨iterator, hclose⟩ := table.exists_close_eq other
    · rw [hsame]; rfl
    · rw [hclose]; exact hset iterator other
  all_goals rfl

/-- What a call leaves of an iterator: the next entry goes when it is asked for, and a close lasts. -/
theorem getElem?_iterators_respond {iterator : MemoryIterator} (h : table.iterators[number]? = some iterator)
    (call : MemoryCall) : (table.respond call).1.iterators[number]? = some
      ⟨if call = .next number ∧ iterator.closed = false then iterator.remaining.tail else iterator.remaining,
        iterator.closed || call = .close number⟩ := by
  have hlength := (List.getElem?_eq_some_iff.mp h).1
  rcases call with (_ | _ | _ | _ | other | other) | _
  case call.iterate => exact ((List.getElem?_append_left hlength).trans h).trans (by simp)
  case call.request.next =>
    change (table.next other).1.iterators[number]? = _
    by_cases hsame : other = number
    · subst hsame
      obtain ⟨remaining, closed⟩ := iterator
      cases closed with
      | false => rw [next_of_open h, setIterator, List.getElem?_set_self hlength]; simp
      | true => rw [next_of_closed h]; simpa using h
    · obtain hnext | ⟨given, hnext⟩ := table.exists_next_eq other
      · rw [hnext]; simpa [hsame] using h
      · rw [hnext, getElem?_setIterator_of_ne hsame]; simpa [hsame] using h
  case call.request.close =>
    change (table.close other).iterators[number]? = _
    by_cases hsame : other = number
    · subst hsame
      unfold close
      rw [h]
      simp only
      rw [setIterator, List.getElem?_set_self hlength]
      simp
    · obtain hclose | ⟨closed, hclose⟩ := table.exists_close_eq other
      · rw [hclose]; simpa [hsame] using h
      · rw [hclose, getElem?_setIterator_of_ne hsame]; simpa [hsame] using h
  all_goals exact h.trans (by simp)

/-- An iterator that is not there comes with the call that opens it. -/
theorem getElem?_iterators_respond_of_length_le (h : table.iterators.length ≤ number) (call : MemoryCall) :
    (table.respond call).1.iterators[number]? =
      if call = .iterate ∧ table.iterators.length = number then some ⟨table.sortedRows, false⟩ else none := by
  by_cases hopens : call = .iterate ∧ table.iterators.length = number
  · obtain ⟨rfl, rfl⟩ := hopens
    rw [if_pos ⟨rfl, rfl⟩]
    exact List.getElem?_concat_length
  · rw [if_neg hopens, List.getElem?_eq_none_iff, length_iterators_respond]
    split <;> grind

theorem length_iterators_afterCalls (rows : List (String × Details)) (calls : List MemoryCall) :
    ((storing rows).afterCalls calls).iterators.length = calls.count .iterate := by
  induction calls using List.reverseRecOn with
  | nil => rfl
  | append_singleton past call ih =>
    rw [afterCalls_concat, length_iterators_respond, ih, List.count_append, List.count_singleton]
    simp

/-- The iterators that are open are those that the calls say are open. -/
theorem exists_open_iff (rows : List (String × Details)) (calls : List MemoryCall) (number : Nat) :
    (∃ remaining, ((storing rows).afterCalls calls).iterators[number]? = some ⟨remaining, false⟩) ↔
      IsOpen calls number := by
  induction calls using List.reverseRecOn with
  | nil => simp [IsOpen, not_since_nil, storing, create, afterCalls]
  | append_singleton past call ih =>
    have hcount := length_iterators_afterCalls rows past
    unfold IsOpen at ih ⊢
    rw [since_append_iff, ← ih, afterCalls_concat]
    generalize (storing rows).afterCalls past = table at hcount ⊢
    cases hiterator : table.iterators[number]? with
    | none =>
      rw [getElem?_iterators_respond_of_length_le (List.getElem?_eq_none_iff.mp hiterator), hcount]
      simp
    | some iterator =>
      have hlength := (List.getElem?_eq_some_iff.mp hiterator).1
      have hnew : ¬ (call = .iterate ∧ past.count .iterate = number) := by omega
      rw [getElem?_iterators_respond hiterator]
      obtain ⟨remaining, closed⟩ := iterator
      simp [hnew]

/-- An iterator hands out one entry after another while it is open, whatever else is called. -/
theorem exists_iterator_afterCalls {entries : List TableEntry}
    (h : table.iterators[number]? = some ⟨entries, false⟩) (later : List MemoryCall) :
    ∃ remaining, (table.afterCalls later).iterators[number]? = some ⟨remaining, decide (.close number ∈ later)⟩ ∧
      (.close number ∉ later → remaining = entries.drop (later.count (.next number))) := by
  induction later using List.reverseRecOn with
  | nil => exact ⟨entries, by simpa [afterCalls] using h, fun _ ↦ rfl⟩
  | append_singleton past call ih =>
    obtain ⟨remaining, hiterator, hremaining⟩ := ih
    have hclosed : (decide (.close number ∈ past) || decide (call = .close number)) =
        decide (.close number ∈ past ++ [call]) := by simp [eq_comm]
    rw [afterCalls_concat, getElem?_iterators_respond hiterator, hclosed]
    refine ⟨_, rfl, fun hopen ↦ ?_⟩
    have hpast : .close number ∉ past := fun h ↦ hopen (List.mem_append_left [call] h)
    rw [hremaining hpast, List.count_append, List.count_singleton]
    by_cases hnext : call = .next number
    · simp [hnext, hpast]
    · simp [hnext]

/-- An iterator, once opened, answers each request by what it has given and whether it was closed. -/
theorem respond_next_afterCalls {entries : List TableEntry}
    (h : table.iterators[number]? = some ⟨entries, false⟩) (later : List MemoryCall) :
    ((table.afterCalls later).respond (.next number)).2 = .answered
      (if .close number ∈ later then .error (.error "Iterator is closed")
        else .ok entries[later.count (.next number)]?) := by
  obtain ⟨remaining, hiterator, hremaining⟩ := exists_iterator_afterCalls h later
  change TableReply.answered ((table.afterCalls later).next number).2 = _
  by_cases hclosed : .close number ∈ later
  · rw [decide_eq_true hclosed] at hiterator
    rw [if_pos hclosed, next_of_closed hiterator]
  · rw [decide_eq_false hclosed] at hiterator
    rw [if_neg hclosed, next_of_open hiterator, hremaining hclosed, List.head?_drop]

/-- The open iterators are counted. -/
theorem exists_card_eq_openIterators (table : MemoryTable) : ∃ opened : Finset Nat,
    (∀ number, number ∈ opened ↔ ∃ remaining, table.iterators[number]? = some ⟨remaining, false⟩) ∧
      table.openIterators = opened.card := by
  unfold openIterators
  induction table.iterators using List.reverseRecOn with
  | nil => exact ⟨∅, by simp, rfl⟩
  | append_singleton others iterator ih =>
    obtain ⟨opened, hopened, hcard⟩ := ih
    have hlast : others.length ∉ opened := by simp [hopened]
    have hnumber (number : Nat) : (∃ remaining, (others ++ [iterator])[number]? = some ⟨remaining, false⟩) ↔
        number ∈ opened ∨ number = others.length ∧ iterator.closed = false := by
      rw [hopened, List.getElem?_append]
      rcases lt_trichotomy number others.length with hlt | rfl | hgt
      · simp [hlt, hlt.ne]
      · obtain ⟨remaining, closed⟩ := iterator
        simp
      · simp [hgt.not_gt, hgt.ne', Nat.sub_ne_zero_of_lt hgt]
    rw [List.filter_append, List.length_append, hcard]
    cases hclosed : iterator.closed with
    | false =>
      refine ⟨insert others.length opened, fun number ↦ ?_, ?_⟩
      · rw [hnumber, Finset.mem_insert, or_comm, hclosed]
        simp
      · rw [Finset.card_insert_of_notMem hlast]
        simp [hclosed]
    | true =>
      refine ⟨opened, fun number ↦ ?_, by simp [hclosed]⟩
      rw [hnumber, hclosed]
      simp

end MemoryTable

/-- In every run of calls of a table in memory, whatever rows it was made with, the details under an identifier
are those of the last put or first row that no deletion and no emptying followed.  An iterator answers its requests
with what was stored when it was opened, in ascending order, each entry once, and then with none, or with a failure
once it was closed.  The open iterators are counted. -/
theorem memory_table_answers_by_calls (rows : List (String × Details)) :
    (∀ calls id, ∃ details : Option Details,
      (((MemoryTable.storing rows).afterCalls calls).respond (.get id)).2 =
        .found (.ok (details.map Details.toValue)) ∧
      ∀ found, details = some found ↔ IsStored rows calls id found) ∧
    (∀ before, ∃ entries : List (String × Details),
      (((MemoryTable.storing rows).afterCalls before).respond .iterate).2 =
        .opened (.ok (before.count .iterate)) ∧
      entries.Pairwise (fun entry other ↦ Text.Before entry.1 other.1) ∧
      (∀ id found, (id, found) ∈ entries ↔ IsStored rows before id found) ∧
      ∀ later, (((MemoryTable.storing rows).afterCalls (before ++ .iterate :: later)).respond
          (.next (before.count .iterate))).2 = .answered
        (if .close (before.count .iterate) ∈ later then .error (.error "Iterator is closed")
          else .ok (entries[later.count (.next (before.count .iterate))]?.map TableEntry.ofStored))) ∧
    ∀ calls, ∃ opened : Finset Nat, (∀ number, number ∈ opened ↔ IsOpen calls number) ∧
      ((MemoryTable.storing rows).afterCalls calls).openIterators = opened.card := by
  refine ⟨fun calls id ↦ ?_, fun before ↦ ?_, fun calls ↦ ?_⟩
  · obtain ⟨details, hrows, hstored⟩ := MemoryTable.exists_hasRows_storing rows calls
    exact ⟨details id, congrArg (fun found ↦ TableReply.found (.ok found)) (hrows.get_eq id), hstored id⟩
  · obtain ⟨details, hrows, hstored⟩ := MemoryTable.exists_hasRows_storing rows before
    obtain ⟨entries, hsorted, hordered, hmem⟩ := hrows.exists_sortedRows
    have hcount := MemoryTable.length_iterators_afterCalls rows before
    refine ⟨entries, ?_, hordered, fun id found ↦ (hmem id found).trans (hstored id found), fun later ↦ ?_⟩
    · exact congrArg (fun number ↦ TableReply.opened (.ok number)) hcount
    · have hopened : ((((MemoryTable.storing rows).afterCalls before).respond .iterate).1).iterators[before.count
          .iterate]? = some ⟨entries.map TableEntry.ofStored, false⟩ := by
        rw [MemoryTable.getElem?_iterators_respond_of_length_le hcount.le, if_pos ⟨rfl, hcount⟩, hsorted]
      rw [MemoryTable.afterCalls_append, ← List.getElem?_map]
      exact MemoryTable.respond_next_afterCalls hopened later
  · obtain ⟨opened, hopened, hcard⟩ := MemoryTable.exists_card_eq_openIterators _
    exact ⟨opened, fun number ↦ (hopened number).trans (MemoryTable.exists_open_iff rows calls number), hcard⟩

end ClusterMembership
