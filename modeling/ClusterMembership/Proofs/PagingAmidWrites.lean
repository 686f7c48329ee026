import Mathlib.Data.List.ReduceOption
import ClusterMembership.Proofs.Paging

/-!
# Pages of a table that is written meanwhile

Each page is read from the rows of its moment, at the places behind those that were read before.  A row that stands at
its place or moves back is met, for no page passes it; a row whose place is passed does not come again while
no row is added up to it.  So a datanode that stays is given when no row before it goes, and what is given later comes
later in order when no row comes in before it.  When rows do go and come, the places shift, and a row may be
missed or given again.
-/

namespace ClusterMembership

/-! ## Places in lists of identifiers -/

namespace Text

variable {ids : List String} {id other : String}

/-- The number of identifiers before one. -/
def rankIn (ids : List String) (id : String) : Nat := ids.countP fun other ↦ Before other id

/-- The number of identifiers up to one. -/
def reachIn (ids : List String) (id : String) : Nat := ids.countP fun other ↦ atMost other id

/-- An identifier in a list has a smaller rank than anything from it on reaches. -/
theorem rankIn_lt_reachIn (h : id ∈ ids) (hle : atMost id other = true) : rankIn ids id < reachIn ids other := by
  have hperm := List.perm_cons_erase h
  have hrest : (ids.erase id).countP (fun third ↦ Before third id) ≤
      (ids.erase id).countP (fun third ↦ atMost third other) := by
    refine List.countP_mono_left fun third _ hbefore ↦ ?_
    exact atMost_trans (Before.atMost (of_decide_eq_true hbefore)) hle
  have hself := not_before_self id
  unfold rankIn reachIn
  rw [hperm.countP_eq, hperm.countP_eq]
  simp only [List.countP_cons, hself, decide_false, hle, if_true, Bool.false_eq_true, if_false]
  omega

/-- Where identifiers are distinct, one of them reaches just beyond its rank. -/
theorem reachIn_eq (hdistinct : ids.Nodup) (h : id ∈ ids) : reachIn ids id = rankIn ids id + 1 := by
  have hperm := List.perm_cons_erase h
  have hnot := not_before_self id
  have hself : atMost id id = true := by simpa using atMost_total id id
  have hrest : (ids.erase id).countP (fun third ↦ atMost third id) =
      (ids.erase id).countP (fun third ↦ Before third id) := by
    refine List.countP_congr fun third hthird ↦ ?_
    have hne : third ≠ id := (hdistinct.mem_erase_iff.mp hthird).1
    rw [decide_eq_true_iff, before_iff]
    exact (and_iff_left hne).symm
  unfold rankIn reachIn
  rw [hperm.countP_eq, hperm.countP_eq]
  simp only [List.countP_cons, hnot, decide_false, hself, if_true, Bool.false_eq_true, if_false, hrest]

end Text

/-! ## Places of rows -/

namespace HostedTable

variable {table : HostedTable}

def ids (table : HostedTable) : List String := table.database.rows.map Database.rowId

variable {offset : Nat} {entries : List TableEntry}

/-- A page before the place of a row is full. -/
theorem length_of_rankIn (hentries : List.Forall₂ RowHolds (table.page offset) entries)
    {id : String} (hid : id ∈ table.ids) (hto : offset + table.pageSize ≤ Text.rankIn table.ids id) :
    entries.length = table.pageSize := by
  have hrank : Text.rankIn table.ids id < table.ids.length := by
    have hreach := Text.rankIn_lt_reachIn hid (by simpa using Text.atMost_total id id)
    exact lt_of_lt_of_le hreach List.countP_le_length
  have hcount : table.ids.length = table.database.rows.length := List.length_map _
  rw [← hentries.length_eq, page, List.length_take, List.length_drop, Database.sortedRows, List.length_mergeSort]
  omega

namespace IsRegular

/-- A row stands at the place of its rank. -/
theorem rankIn_eq (h : table.IsRegular) {place : Nat} {row : Value}
    (hrow : (Database.sortedRows table.database.rows)[place]? = some row) :
    Text.rankIn table.ids (Database.rowId row) = place := by
  have hperm := List.mergeSort_perm table.database.rows
    fun a b ↦ Text.atMost (Database.rowId a) (Database.rowId b)
  have hplace := countP_before_of_getElem? (pairwise_before_mergeSort h.distinct) hrow
  rw [hperm.countP_eq] at hplace
  unfold Text.rankIn ids
  rw [List.countP_map]
  exact hplace

/-- An entry of a page has the rank of its place. -/
theorem rankIn_of_page (h : table.IsRegular) (hentries : List.Forall₂ RowHolds (table.page offset) entries)
    {place : Nat} (hplace : place < entries.length) :
    Text.rankIn table.ids entries[place].id = offset + place := by
  have hlength : place < (table.page offset).length := hentries.length_eq ▸ hplace
  have hholds : RowHolds (table.page offset)[place] entries[place] := hentries.get hlength hplace
  rw [← hholds.rowId_eq]
  apply h.rankIn_eq
  have hrow := List.getElem?_eq_getElem hlength
  unfold page at hrow
  rw [List.getElem?_take_of_lt (by rw [page, List.length_take] at hlength; omega), List.getElem?_drop] at hrow
  exact hrow

/-- The entry of a row is on the page that its rank falls on. -/
theorem mem_of_rankIn (h : table.IsRegular) (hentries : List.Forall₂ RowHolds (table.page offset) entries)
    {id : String} (hid : id ∈ table.ids) (hfrom : offset ≤ Text.rankIn table.ids id)
    (hto : Text.rankIn table.ids id < offset + table.pageSize) : id ∈ entries.map TableEntry.id := by
  obtain ⟨row, hrow, rfl⟩ := List.mem_map.mp hid
  obtain ⟨place, hplace⟩ := List.getElem?_of_mem (List.mem_mergeSort.mpr hrow)
  have hrank : Text.rankIn table.ids (Database.rowId row) = place := h.rankIn_eq hplace
  have hmem : row ∈ table.page offset := by
    apply List.mem_of_getElem? (i := place - offset)
    rw [page, List.getElem?_take_of_lt (by omega), List.getElem?_drop, Nat.add_sub_cancel' (by omega)]
    exact hplace
  rw [← map_rowId_of_holds hentries]
  exact List.mem_map_of_mem hmem

/-- The entries of a page ascend strictly. -/
theorem pairwise_of_page (h : table.IsRegular) (hentries : List.Forall₂ RowHolds (table.page offset) entries) :
    entries.Pairwise fun a b ↦ Text.Before a.id b.id := by
  have hsorted : (Database.sortedRows table.database.rows).Pairwise fun a b ↦
      Text.Before (Database.rowId a) (Database.rowId b) := pairwise_before_mergeSort h.distinct
  have hascending : (table.page offset).Pairwise fun a b ↦ Text.Before (Database.rowId a) (Database.rowId b) :=
    hsorted.drop.take
  have hids := List.pairwise_map.mpr hascending
  exact List.pairwise_map.mp (map_rowId_of_holds hentries ▸ hids)

end IsRegular

/-! ## Moments of an iteration -/

/-- What an iterator gives from where it stands, over a table that it meets at one moment after another.  At a moment it
is left alone, or it is asked: then it hands out what it holds, has come to the end, or turns the page. -/
inductive Paging : Nat → List TableEntry → Bool → List HostedTable → List (Option TableEntry) → Prop
  | done {offset : Nat} {buffer : List TableEntry} {exhausted : Bool} : Paging offset buffer exhausted [] []
  | wait {offset : Nat} {buffer : List TableEntry} {exhausted : Bool} {table : HostedTable}
      {moments : List HostedTable} {given : List (Option TableEntry)} (regular : table.IsRegular)
      (rest : Paging offset buffer exhausted moments given) :
      Paging offset buffer exhausted (table :: moments) given
  | hand {offset : Nat} {entry : TableEntry} {buffer : List TableEntry} {exhausted : Bool} {table : HostedTable}
      {moments : List HostedTable} {given : List (Option TableEntry)} (regular : table.IsRegular)
      (rest : Paging offset buffer exhausted moments given) :
      Paging offset (entry :: buffer) exhausted (table :: moments) (some entry :: given)
  | ended {offset : Nat} {table : HostedTable} {moments : List HostedTable} {given : List (Option TableEntry)}
      (regular : table.IsRegular) (rest : Paging offset [] true moments given) :
      Paging offset [] true (table :: moments) (none :: given)
  | turn {offset : Nat} {entries : List TableEntry} {table : HostedTable} {moments : List HostedTable}
      {given : List (Option TableEntry)} (regular : table.IsRegular)
      (entries_eq : List.Forall₂ RowHolds (table.page offset) entries)
      (rest : Paging (offset + entries.length) entries.tail (entries.length < table.pageSize) moments given) :
      Paging offset [] false (table :: moments) (entries.head? :: given)

/-- An entry that is in a row at one of some moments. -/
def HeldAt (moments : List HostedTable) (entry : TableEntry) : Prop :=
  ∃ moment ∈ moments, ∃ row ∈ moment.database.rows, RowHolds row entry

theorem HeldAt.cons {moments : List HostedTable} {entry : TableEntry} (h : HeldAt moments entry)
    (table : HostedTable) : HeldAt (table :: moments) entry := by
  obtain ⟨moment, hmoment, hheld⟩ := h
  exact ⟨moment, List.mem_cons_of_mem table hmoment, hheld⟩

namespace Paging

variable {offset : Nat} {buffer : List TableEntry} {exhausted : Bool} {moments : List HostedTable}
  {given : List (Option TableEntry)} {id : String}

theorem regular (h : Paging offset buffer exhausted moments given) : ∀ moment ∈ moments, moment.IsRegular := by
  induction h with
  | done => exact nofun
  | wait hregular _ ih => exact List.forall_mem_cons.mpr ⟨hregular, ih⟩
  | hand hregular _ ih => exact List.forall_mem_cons.mpr ⟨hregular, ih⟩
  | ended hregular _ ih => exact List.forall_mem_cons.mpr ⟨hregular, ih⟩
  | turn hregular _ _ ih => exact List.forall_mem_cons.mpr ⟨hregular, ih⟩

/-- What is given was held, or is in a row at one of the moments. -/
theorem held (h : Paging offset buffer exhausted moments given) {entry : TableEntry} (hentry : some entry ∈ given) :
    entry ∈ buffer ∨ HeldAt moments entry := by
  induction h with
  | done => cases hentry
  | wait _ _ ih => exact (ih hentry).imp_right (·.cons _)
  | hand _ _ ih =>
    obtain hfirst | hlater := List.mem_cons.mp hentry
    · exact .inl (Option.some.inj hfirst ▸ List.mem_cons_self)
    · exact (ih hlater).imp (List.mem_cons_of_mem _) (·.cons _)
  | ended _ _ ih =>
    obtain hfirst | hlater := List.mem_cons.mp hentry
    · cases hfirst
    · exact (ih hlater).imp_right (·.cons _)
  | @turn offset entries table moments given _ hentries _ ih =>
    have hpage (hmem : entry ∈ entries) : HeldAt (table :: moments) entry := by
      obtain ⟨row, hrow, hholds⟩ := (mem_entries_iff hentries entry).mp hmem
      exact ⟨table, List.mem_cons_self, row, mem_rows_of_mem_page hrow, hholds⟩
    obtain hfirst | hlater := List.mem_cons.mp hentry
    · exact .inr (hpage (List.mem_of_head? hfirst.symm))
    · exact .inr ((ih hlater).elim (fun hrest ↦ hpage (List.mem_of_mem_tail hrest)) (·.cons table))

/-- An identifier that is always there, and whose rank never falls, is given before the end when no page has passed
it. -/
theorem complete (h : Paging offset buffer exhausted moments given) (hend : none ∈ given)
    (hstays : ∀ moment ∈ moments, id ∈ moment.ids)
    (hrank : (moments.map fun moment ↦ Text.rankIn moment.ids id).Pairwise (· ≤ ·))
    (hahead : id ∈ buffer.map TableEntry.id ∨
      exhausted = false ∧ ∀ moment ∈ moments, offset ≤ Text.rankIn moment.ids id) :
    ∃ entry, some entry ∈ given ∧ entry.id = id := by
  induction h with
  | done => cases hend
  | wait _ _ ih =>
    rw [List.map_cons, List.pairwise_cons] at hrank
    rw [List.forall_mem_cons] at hstays hahead
    exact ih hend hstays.2 hrank.2 (hahead.imp_right fun h ↦ ⟨h.1, h.2.2⟩)
  | hand _ _ ih =>
    rw [List.map_cons, List.pairwise_cons] at hrank
    rw [List.map_cons, List.mem_cons] at hahead
    rw [List.forall_mem_cons] at hstays hahead
    have hend := (List.mem_cons.mp hend).resolve_left nofun
    obtain (hfirst | hrest) | hpast := hahead
    · exact ⟨_, List.mem_cons_self, hfirst.symm⟩
    · obtain ⟨entry, hentry, hid⟩ := ih hend hstays.2 hrank.2 (.inl hrest)
      exact ⟨entry, List.mem_cons_of_mem _ hentry, hid⟩
    · obtain ⟨entry, hentry, hid⟩ := ih hend hstays.2 hrank.2 (.inr ⟨hpast.1, hpast.2.2⟩)
      exact ⟨entry, List.mem_cons_of_mem _ hentry, hid⟩
  | ended _ _ ih =>
    obtain hnone | ⟨hfalse, -⟩ := hahead
    · cases hnone
    · cases hfalse
  | @turn offset entries table moments given hregular hentries _ ih =>
    obtain hnone | ⟨-, hpast⟩ := hahead
    · cases hnone
    rw [List.map_cons, List.pairwise_cons] at hrank
    rw [List.forall_mem_cons] at hstays hpast
    by_cases hon : Text.rankIn table.ids id < offset + table.pageSize
    · -- The page has the entry: it comes first, or it is held.
      have hmem := hregular.mem_of_rankIn hentries hstays.1 hpast.1 hon
      cases entries with
      | nil => cases hmem
      | cons first rest =>
        have hend := (List.mem_cons.mp hend).resolve_left nofun
        obtain hfirst | hrest := List.mem_cons.mp hmem
        · exact ⟨first, List.mem_cons_self, hfirst.symm⟩
        · obtain ⟨entry, hentry, hid⟩ := ih hend hstays.2 hrank.2 (.inl hrest)
          exact ⟨entry, List.mem_cons_of_mem _ hentry, hid⟩
    · have hfull := length_of_rankIn hentries hstays.1 (Nat.le_of_not_lt hon)
      have hsize := hregular.pageSize
      have hend : none ∈ given := by
        obtain hnone | hlater := List.mem_cons.mp hend
        · rw [eq_comm, List.head?_eq_none_iff] at hnone
          rw [hnone, List.length_nil] at hfull
          omega
        · exact hlater
      have hlater : ∀ moment ∈ moments, offset + entries.length ≤ Text.rankIn moment.ids id := by
        intro moment hmoment
        have hgrown := hrank.1 _ (List.mem_map_of_mem hmoment)
        omega
      obtain ⟨entry, hentry, hid⟩ := ih hend hstays.2 hrank.2 (.inr ⟨by simp [hfull], hlater⟩)
      exact ⟨entry, List.mem_cons_of_mem _ hentry, hid⟩

/-- Beyond what is held, nothing comes that is not behind an identifier that the pages have passed, while what it
reaches never grows. -/
theorem before_of_passed (h : Paging offset buffer exhausted moments given)
    (hreach : ∀ moment ∈ moments, Text.reachIn moment.ids id ≤ offset) {entry : TableEntry}
    (hentry : some entry ∈ given) : entry ∈ buffer ∨ Text.Before id entry.id := by
  induction h with
  | done => cases hentry
  | wait _ _ ih => exact ih (List.forall_mem_cons.mp hreach).2 hentry
  | hand _ _ ih =>
    obtain hfirst | hlater := List.mem_cons.mp hentry
    · exact .inl (Option.some.inj hfirst ▸ List.mem_cons_self)
    · exact (ih (List.forall_mem_cons.mp hreach).2 hlater).imp_left (List.mem_cons_of_mem _)
  | ended _ _ ih =>
    obtain hfirst | hlater := List.mem_cons.mp hentry
    · cases hfirst
    · exact ih (List.forall_mem_cons.mp hreach).2 hlater
  | @turn offset entries table moments given hregular hentries _ ih =>
    rw [List.forall_mem_cons] at hreach
    -- An entry of the page has at least as many rows before it as the identifier reaches.
    have hpage (hmem : entry ∈ entries) : Text.Before id entry.id := by
      obtain ⟨place, hplace, rfl⟩ := List.getElem_of_mem hmem
      have hrank := hregular.rankIn_of_page hentries hplace
      obtain ⟨row, hrow, hholds⟩ := (mem_entries_iff hentries entries[place]).mp hmem
      have hlisted : entries[place].id ∈ table.ids :=
        hholds.rowId_eq ▸ List.mem_map_of_mem (mem_rows_of_mem_page hrow)
      refine Bool.eq_false_iff.mpr fun hle ↦ ?_
      have hless := Text.rankIn_lt_reachIn hlisted hle
      omega
    obtain hfirst | hlater := List.mem_cons.mp hentry
    · exact .inr (hpage (List.mem_of_head? hfirst.symm))
    · have hpassed : ∀ moment ∈ moments, Text.reachIn moment.ids id ≤ offset + entries.length :=
        fun moment hmoment ↦ (hreach.2 moment hmoment).trans (Nat.le_add_right _ _)
      exact .inr ((ih hpassed hlater).elim (fun hrest ↦ hpage (List.mem_of_mem_tail hrest)) fun hbefore ↦ hbefore)

/-- What is given later comes later in order than what never reaches further than before. -/
theorem ascending (h : Paging offset buffer exhausted moments given) {steady : String → Prop}
    (hsteady : ∀ id, steady id → (moments.map fun moment ↦ Text.reachIn moment.ids id).Pairwise (· ≥ ·))
    (hbuffer : buffer.Pairwise fun a b ↦ Text.Before a.id b.id)
    (hpassed : ∀ entry ∈ buffer, steady entry.id → ∀ moment ∈ moments, Text.reachIn moment.ids entry.id ≤ offset) :
    given.reduceOption.Pairwise fun a b ↦ steady a.id → Text.Before a.id b.id := by
  have htail {table : HostedTable} {moments : List HostedTable}
      (hsteady : ∀ id, steady id →
        ((table :: moments).map fun moment ↦ Text.reachIn moment.ids id).Pairwise (· ≥ ·)) :
      ∀ id, steady id → (moments.map fun moment ↦ Text.reachIn moment.ids id).Pairwise (· ≥ ·) :=
    fun id hid ↦ (List.pairwise_cons.mp (hsteady id hid)).2
  induction h with
  | done => exact List.Pairwise.nil
  | wait _ _ ih =>
    exact ih (htail hsteady) hbuffer fun entry hentry hid ↦ (List.forall_mem_cons.mp (hpassed entry hentry hid)).2
  | @hand offset entry buffer _ _ moments given _ hrest ih =>
    obtain ⟨hfirst, hbuffer⟩ := List.pairwise_cons.mp hbuffer
    obtain ⟨hentry, hpassed⟩ := List.forall_mem_cons.mp hpassed
    rw [List.reduceOption_cons_of_some, List.pairwise_cons]
    refine ⟨fun other hother hid ↦ ?_, ih (htail hsteady) hbuffer fun entry hentry hid ↦
      (List.forall_mem_cons.mp (hpassed entry hentry hid)).2⟩
    have hreach := (List.forall_mem_cons.mp (hentry hid)).2
    exact (hrest.before_of_passed hreach (List.reduceOption_mem_iff.mp hother)).elim (hfirst other)
      fun hbefore ↦ hbefore
  | ended _ _ ih =>
    rw [List.reduceOption_cons_of_none]
    exact ih (htail hsteady) .nil nofun
  | @turn offset entries table moments given hregular hentries hrest ih =>
    -- Each entry of the page reaches up to the places behind the page, and never further.
    have hpage : ∀ entry ∈ entries, steady entry.id →
        ∀ moment ∈ moments, Text.reachIn moment.ids entry.id ≤ offset + entries.length := by
      intro entry hentry hid moment hmoment
      obtain ⟨place, hplace, rfl⟩ := List.getElem_of_mem hentry
      have hrank := hregular.rankIn_of_page hentries hplace
      obtain ⟨row, hrow, hholds⟩ := (mem_entries_iff hentries entries[place]).mp hentry
      have hlisted : entries[place].id ∈ table.ids :=
        hholds.rowId_eq ▸ List.mem_map_of_mem (mem_rows_of_mem_page hrow)
      have hreach := Text.reachIn_eq hregular.distinct hlisted
      have hfallen : Text.reachIn moment.ids entries[place].id ≤ Text.reachIn table.ids entries[place].id :=
        (List.pairwise_cons.mp (hsteady _ hid)).1 _ (List.mem_map_of_mem hmoment)
      change Text.reachIn table.ids entries[place].id = Text.rankIn table.ids entries[place].id + 1 at hreach
      omega
    have hascending := hregular.pairwise_of_page hentries
    cases entries with
    | nil =>
      rw [List.head?_nil, List.reduceOption_cons_of_none]
      exact ih (htail hsteady) .nil nofun
    | cons first rest =>
      obtain ⟨hfirst, hascending⟩ := List.pairwise_cons.mp hascending
      obtain ⟨hreach, hpage⟩ := List.forall_mem_cons.mp hpage
      rw [List.head?_cons, List.reduceOption_cons_of_some, List.pairwise_cons]
      refine ⟨fun other hother hid ↦ ?_, ih (htail hsteady) hascending hpage⟩
      exact (hrest.before_of_passed (hreach hid) (List.reduceOption_mem_iff.mp hother)).elim (hfirst other)
        fun hbefore ↦ hbefore

end Paging

end HostedTable

/-! ## Runs of calls -/

/-- A call that writes details that can be read back, if any, and does not close an iterator. -/
def TableCall.LeavesOpen (number : Nat) : TableCall → Prop
  | .request (.put _ details) => details.IsStorable
  | .request (.close iterator) => iterator ≠ number
  | _ => True

namespace HostedTable

variable {table : HostedTable} {number : Nat}

/-- A regular table stays regular while what is written can be read back. -/
theorem IsRegular.call (h : table.IsRegular) (now : Instant) {call : TableCall} (hcall : call.LeavesOpen number) :
    (table.call now call).1.IsRegular := by
  have hfollows := follows_call h.answers now call
  have hrows : ((rowsAfter now table.database.rows call).map Database.rowId).Nodup ∧
      ∀ row ∈ rowsAfter now table.database.rows call, ∃ entry, RowHolds row entry := by
    rcases call with id | _ | ⟨id, details⟩ | id | iterator | iterator
    · exact ⟨h.distinct, h.readable⟩
    · exact ⟨h.distinct, h.readable⟩
    · obtain ⟨kept, hkept⟩ := (StoredDetails.exists_read?_iff details).mpr hcall
      refine ⟨Database.nodup_rowId_store _ h.distinct, fun row hrow ↦ ?_⟩
      obtain rfl | hbefore := Database.mem_of_mem_store hrow
      · exact ⟨_, rowHolds_rowOf now id hkept⟩
      · exact h.readable row hbefore
    · refine ⟨h.distinct.sublist (List.filter_sublist.map _), fun row hrow ↦ ?_⟩
      exact h.readable row (List.mem_of_mem_filter hrow)
    · exact ⟨h.distinct, h.readable⟩
    · exact ⟨h.distinct, h.readable⟩
  exact
    { answers := hfollows.answers
      pageSize := hfollows.pageSize ▸ h.pageSize
      distinct := hfollows.rows ▸ hrows.1
      readable := hfollows.rows ▸ hrows.2 }

theorem getElem?_setIterator_self {held : HostedIterator} (hheld : table.iterators[number]? = some held)
    (after : HostedIterator) : (table.setIterator number after).iterators[number]? = some after :=
  List.getElem?_set_self (List.getElem?_eq_some_iff.mp hheld).1

/-- An iterator over a regular table that is asked hands out what it holds, has come to the end, or turns the page. -/
theorem IsRegular.next_cases (h : table.IsRegular) {offset : Nat} {buffer : List TableEntry} {exhausted : Bool}
    (hheld : table.iterators[number]? = some ⟨offset, buffer, exhausted, false⟩) :
    ∃ offset' buffer' exhausted' answer,
      (table.next number).1.iterators[number]? = some ⟨offset', buffer', exhausted', false⟩ ∧
        (table.next number).2.2 = .ok answer ∧
        ∀ {moments given}, Paging offset' buffer' exhausted' moments given →
          Paging offset buffer exhausted (table :: moments) (answer :: given) := by
  cases buffer with
  | cons entry rest =>
    rw [next_of_cons hheld]
    exact ⟨offset, rest, exhausted, some entry, getElem?_setIterator_self hheld _, rfl, .hand h⟩
  | nil =>
    cases exhausted with
    | true =>
      rw [next_of_exhausted hheld]
      exact ⟨offset, [], true, none, hheld, rfl, .ended h⟩
    | false =>
      obtain ⟨entries, hentries⟩ := (exists_entries_iff _).mpr fun row (hrow : row ∈ table.page offset) ↦
        h.readable row (mem_rows_of_mem_page hrow)
      rw [next_of_page hheld h.answers hentries]
      exact ⟨_, _, _, _, List.getElem?_set_self (List.getElem?_eq_some_iff.mp hheld).1, rfl, .turn h hentries⟩

/-- A run of calls that leaves an iterator open leads it through the moments before the calls. -/
theorem exists_paging (h : table.IsRegular) {offset : Nat} {buffer : List TableEntry} {exhausted : Bool}
    (hheld : table.iterators[number]? = some ⟨offset, buffer, exhausted, false⟩)
    {calls : List (Instant × TableCall)} (hcalls : ∀ call ∈ calls.map Prod.snd, call.LeavesOpen number) :
    ∃ moments given, ((Table.ofStore (.hosted table)).steps calls).map TableStep.before =
        moments.map (fun moment ↦ Table.ofStore (.hosted moment)) ∧
      ((Table.ofStore (.hosted table)).asked number calls).map TableStep.reply =
        given.map (fun entry ↦ TableReply.answered (.ok entry)) ∧
      Paging offset buffer exhausted moments given := by
  induction calls generalizing table offset buffer exhausted with
  | nil => exact ⟨[], [], rfl, rfl, .done⟩
  | cons call rest ih =>
    obtain ⟨now, call⟩ := call
    rw [List.map_cons, List.forall_mem_cons] at hcalls
    have hregular := h.call now hcalls.1
    rw [Table.steps, Table.call_hosted, List.map_cons]
    by_cases hnext : call = .request (.next number)
    · subst hnext
      obtain ⟨offset', buffer', exhausted', answer, hheld', hanswer, hpaging⟩ := h.next_cases hheld
      obtain ⟨moments, given, hmoments, hreplies, hrest⟩ := ih hregular hheld' hcalls.2
      refine ⟨table :: moments, answer :: given, congrArg (List.cons _) hmoments, ?_, hpaging hrest⟩
      rw [Table.asked_cons_next, Table.call_hosted, List.map_cons, List.map_cons, ← hreplies, TableStep.reply,
        Table.call_hosted]
      exact congrArg (List.cons · _) (congrArg TableReply.answered hanswer)
    · have hclose : call ≠ .request (.close number) := by
        rintro rfl
        exact hcalls.1 rfl
      obtain ⟨moments, given, hmoments, hreplies, hrest⟩ := ih hregular (iterator_call hheld now hnext hclose) hcalls.2
      refine ⟨table :: moments, given, congrArg (List.cons _) hmoments, ?_, .wait h hrest⟩
      rw [Table.asked_cons_of_ne hnext, Table.call_hosted]
      exact hreplies

end HostedTable

def Table.ids (table : Table) : List String := table.store.rows.map Prod.fst

theorem Table.ids_hosted (table : HostedTable) : (ofStore (.hosted table)).ids = table.ids := List.map_map

/-- What an iterator gives, read to its end, over a table that is written meanwhile.  Each entry is in the table at some
moment.  An identifier that stays is given when the number of rows before it never falls, and once when that number
never changes; what is given after an entry comes after it in order when the number of rows up to it never rises. -/
structure GivesAmidWrites (moments : List Table) (given : List TableEntry) : Prop where
  held : ∀ entry ∈ given, ∃ moment ∈ moments, entry.id ∈ moment.ids ∧ (moment.get entry.id).2 = .ok entry.details
  complete : ∀ id, (∀ moment ∈ moments, id ∈ moment.ids) →
    (moments.map fun moment ↦ Text.rankIn moment.ids id).Pairwise (· ≤ ·) → id ∈ given.map TableEntry.id
  once : ∀ id, (∀ moment ∈ moments, id ∈ moment.ids) →
    (moments.map fun moment ↦ Text.rankIn moment.ids id).Pairwise (· = ·) → (given.map TableEntry.id).count id = 1
  ascending : given.Pairwise fun a b ↦
    (moments.map fun moment ↦ Text.reachIn moment.ids a.id).Pairwise (· ≥ ·) → Text.Before a.id b.id

namespace HostedTable

/-- Of identifiers in which one never comes after itself there is at most one. -/
theorem count_le_one {given : List TableEntry} {id : String}
    (h : given.Pairwise fun a b ↦ a.id = id → Text.Before a.id b.id) : (given.map TableEntry.id).count id ≤ 1 := by
  induction given with
  | nil => exact Nat.zero_le 1
  | cons first rest ih =>
    obtain ⟨hfirst, hrest⟩ := List.pairwise_cons.mp h
    rw [List.map_cons, List.count_cons]
    split
    · next hsame =>
      have hid : first.id = id := by simpa using hsame
      have hnone : id ∉ rest.map TableEntry.id := by
        intro hmem
        obtain ⟨other, hother, hagain⟩ := List.mem_map.mp hmem
        have hbefore := hfirst other hother hid
        rw [hid, hagain] at hbefore
        exact Text.not_before_self id hbefore
      rw [List.count_eq_zero_of_not_mem hnone]
    · exact ih hrest

/-- An iteration over a regular table fails at no entry, and read to its end it gives what the table holds meanwhile, as
far as the places of the rows do not shift. -/
theorem gives_amid_writes {table : HostedTable} (hregular : table.IsRegular)
    {calls : List (Instant × TableCall)}
    (hcalls : ∀ call ∈ calls.map Prod.snd, call.LeavesOpen table.iterators.length) {replies : List TableReply}
    (hreplies : ((Table.ofStore (.hosted table.iterate.1)).asked table.iterators.length calls).map TableStep.reply =
      replies)
    (hend : .answered (.ok none) ∈ replies) :
    (∀ reply ∈ replies, ∃ entry, reply = .answered (.ok entry)) ∧
      GivesAmidWrites (((Table.ofStore (.hosted table.iterate.1)).steps calls).map TableStep.before)
        (replies.filterMap TableReply.entry?) := by
  have hheld : table.iterate.1.iterators[table.iterators.length]? = some ⟨0, [], false, false⟩ := by
    simp [iterate]
  have hopened : table.iterate.1.IsRegular := { hregular with }
  obtain ⟨moments, given, hmoments, hgiven, hpaging⟩ := exists_paging hopened hheld hcalls
  obtain rfl : given.map (fun entry ↦ TableReply.answered (.ok entry)) = replies := hgiven.symm.trans hreplies
  have hregulars := hpaging.regular
  have hlast : none ∈ given := by simpa using hend
  have hcomplete (id : String) (hstays : ∀ moment ∈ moments, id ∈ moment.ids)
      (hrank : (moments.map fun moment ↦ Text.rankIn moment.ids id).Pairwise (· ≤ ·)) :
      id ∈ given.reduceOption.map TableEntry.id := by
    obtain ⟨entry, hentry, hid⟩ :=
      hpaging.complete hlast hstays hrank (.inr ⟨rfl, fun _ _ ↦ Nat.zero_le _⟩)
    exact List.mem_map.mpr ⟨entry, List.reduceOption_mem_iff.mpr hentry, hid⟩
  have hascending := hpaging.ascending (fun _ hsteady ↦ hsteady) .nil (List.forall_mem_nil _)
  rw [hmoments, show (given.map fun entry ↦ TableReply.answered (.ok entry)).filterMap TableReply.entry? =
    given.reduceOption from List.filterMap_map]
  refine ⟨by simp, ?_⟩
  constructor
  · intro entry hentry
    obtain hnone | ⟨moment, hmoment, row, hrow, hholds⟩ := hpaging.held (List.reduceOption_mem_iff.mp hentry)
    · cases hnone
    · refine ⟨_, List.mem_map_of_mem hmoment, ?_, ?_⟩
      · rw [Table.ids_hosted]
        exact hholds.rowId_eq ▸ List.mem_map_of_mem hrow
      · obtain ⟨id, field⟩ := entry
        obtain ⟨details, -, rfl⟩ := hholds.2
        exact ((hregulars moment hmoment).get_eq_ok_iff id details.toValue).mpr ⟨row, hrow, hholds⟩
  · simpa only [List.map_map, Function.comp_def, List.forall_mem_map, Table.ids_hosted] using hcomplete
  · simp only [List.map_map, Function.comp_def, List.forall_mem_map, Table.ids_hosted]
    intro id hstays hrank
    have hreach : (moments.map fun moment ↦ Text.reachIn moment.ids id) =
        (moments.map fun moment ↦ Text.rankIn moment.ids id).map (· + 1) := by
      rw [List.map_map]
      exact List.map_congr_left fun moment hmoment ↦
        Text.reachIn_eq (hregulars moment hmoment).distinct (hstays moment hmoment)
    have hsteady : (moments.map fun moment ↦ Text.reachIn moment.ids id).Pairwise (· ≥ ·) := by
      rw [hreach, List.pairwise_map]
      exact hrank.imp fun hsame ↦ by rw [hsame]
    have hone : given.reduceOption.Pairwise fun a b ↦ a.id = id → Text.Before a.id b.id := by
      refine hascending.imp fun {a b} hlater hid ↦ hlater ?_
      rw [hid]
      exact hsteady
    refine Nat.le_antisymm (count_le_one hone) ?_
    exact List.one_le_count_iff.mpr (hcomplete id hstays (hrank.imp fun hsame ↦ hsame.le))
  · simpa only [List.map_map, Function.comp_def, Table.ids_hosted] using hascending

/-- A row fills the first page and is replaced before the second is fetched. -/
theorem gives_amid_replacement :
    let table : HostedTable :=
      ⟨.create [rowOf 0 "b" (some (Details.whole "b").toValue)] [], standardName, 1, []⟩
    let calls : List (Instant × TableCall) :=
      [(1, .request (.next 0)), (2, .request (.put "b" (.whole "c"))), (3, .request (.next 0))]
    let steps := (Table.ofStore (.hosted table.iterate.1)).steps calls
    let replies := ((Table.ofStore (.hosted table.iterate.1)).asked 0 calls).map TableStep.reply
    table.IsRegular ∧ (∀ call ∈ calls.map Prod.snd, call.LeavesOpen 0) ∧ .answered (.ok none) ∈ replies ∧
      GivesAmidWrites (steps.map TableStep.before) (replies.filterMap TableReply.entry?) ∧
      (replies.filterMap TableReply.entry?).map TableEntry.id = ["b"] := by
  intro table calls steps replies
  have hregular : table.IsRegular :=
    { answers := rfl
      pageSize := Nat.one_pos
      distinct := List.nodup_singleton _
      readable := fun row hrow ↦ by
        obtain rfl := List.mem_singleton.mp hrow
        obtain ⟨kept, hkept⟩ := (StoredDetails.exists_read?_iff (.whole "b")).mpr (by decide +kernel)
        exact ⟨_, rowHolds_rowOf 0 "b" hkept⟩ }
  have hcalls : ∀ call ∈ calls.map Prod.snd, call.LeavesOpen 0 := by
    have hstorable : (Details.whole "c").IsStorable := by decide +kernel
    simpa [calls, TableCall.LeavesOpen] using hstorable
  have hend : .answered (.ok none) ∈ replies := by decide +kernel
  exact ⟨hregular, hcalls, hend, (gives_amid_writes hregular hcalls rfl hend).2, by decide +kernel⟩

end HostedTable

end ClusterMembership
