import ClusterMembership.Proofs.PagedLoad
import ClusterMembership.Proofs.Starting

/-!
# Registered details that are read back

A hosted table keeps whatever a registration writes, but it reads ten members only, and none of them may be missing.
The admission asks for less: it leaves out the expiry and the time of setup when they are not given, and it looks
neither at the version nor at the revision.  So the details of a datanode that was registered with success are found
again exactly when these four are there, and as they were exactly when nothing else was; when they are not found, no
load gets past their row.
-/

namespace ClusterMembership

/-! ## What the admission leaves open -/

/-- A port without a flaw can be read back. -/
theorem Validation.isStorablePort_of_portsFlaw {seen : List String} {index : Nat} {ports : List Value}
    (h : portsFlaw seen index ports = .ok none) : ∀ port ∈ ports, port.IsStorablePort := by
  induction ports generalizing seen index with
  | nil => exact List.forall_mem_nil _
  | cons first rest ih =>
    obtain ⟨hfirst, hrest⟩ := portsFlaw_cons_eq_none_iff.mp h
    refine List.forall_mem_cons.mpr ⟨?_, ih hrest⟩
    obtain ⟨-, hname, hvalue, -⟩ := portFlaw_eq_none_iff.mp hfirst
    obtain ⟨name, htext⟩ : ∃ name, first.member "name" = some (.text name) := by
      unfold PortName.isWritten Field.text? at hname
      split at hname
      · next name hsome => exact ⟨name, hsome⟩
      · cases hname
    obtain ⟨number, hnumber⟩ : ∃ number, first.member "value" = some (.number number) := by
      unfold isPortValue at hvalue
      split at hvalue
      · next number hsome => exact ⟨number, hsome⟩
      · cases hvalue
    exact ⟨name, number, htext ▸ hname, htext, hnumber⟩

/-- Details in their kept form can be read back exactly when they name an operational state, and the four members that
the admission does not ask for are there. -/
theorem Details.Kept.isStorable_iff {details : Details} (hkept : details.Kept) :
    details.IsStorable ↔ OperationalState.isWritten details.operational = true ∧
      (∀ name ∈ ["version", "revision"], ∃ text, details.get name = some (.text text)) ∧
      ∀ name ∈ ["persistedOpStateExpiryEpochSec", "setupTime"],
        ∃ number, details.get name = some (.number number) := by
  constructor
  · intro h
    refine ⟨h.state, fun name hname ↦ h.text name ?_, h.number⟩
    simp only [List.mem_cons, List.not_mem_nil, or_false] at hname ⊢
    tauto
  · rintro ⟨hstate, htext, hnumber⟩
    obtain ⟨id, hid, -⟩ := hkept.identified
    obtain ⟨path, hpath, -⟩ := hkept.located
    obtain ⟨host, hhost, -⟩ := (Validation.requiredText_eq_none_iff _ _ _ _).mp hkept.hostName
    obtain ⟨address, haddress, -⟩ := (Validation.requiredText_eq_none_iff _ _ _ _).mp hkept.ipAddress
    obtain ⟨ports, hports, hflaw⟩ := hkept.listed
    refine ⟨?_, hnumber, hstate, ports, hports, Validation.isStorablePort_of_portsFlaw hflaw⟩
    simp only [List.forall_mem_cons, List.not_mem_nil, false_implies, implies_true, and_true] at htext ⊢
    exact ⟨⟨id, hid⟩, ⟨host, hhost⟩, ⟨address, haddress⟩, ⟨path, hpath⟩, htext.1, htext.2⟩

/-! ## Iterations -/

def TableReply.IsFailure (reply : TableReply) : Prop := ∃ failure, reply = .answered (.error failure)

namespace HostedTable

variable {table : HostedTable} {number : Nat} {pending : List Value}

/-- What an iterator answers when it is asked a number of times. -/
def replies (table : HostedTable) (now : Instant) (number times : Nat) : List TableReply :=
  ((Table.ofStore (.hosted table)).steps (List.replicate times (now, .request (.next number)))).map TableStep.reply

theorem replies_succ (table : HostedTable) (now : Instant) (number times : Nat) :
    table.replies now number (times + 1) =
      .answered (table.next number).2.2 :: (table.next number).1.replies now number times := by
  unfold replies
  rw [List.replicate_succ, Table.steps, Table.call_hosted, List.map_cons]
  unfold TableStep.reply
  rw [Table.call_hosted]
  rfl

/-- Rows that can all be read are given one after another, and behind them nothing. -/
theorem Brings.replies_eq {entries : List TableEntry} (h : table.Brings number pending)
    (hanswers : table.database.answers = []) (hsize : 0 < table.pageSize)
    (hentries : List.Forall₂ RowHolds pending entries) (now : Instant) (times : Nat) :
    table.replies now number times = (List.range times).map fun place ↦ .answered (.ok entries[place]?) := by
  induction times generalizing table pending entries with
  | zero => rfl
  | succ times ih =>
    have hfollows := follows_call hanswers now (.request (.next number))
    rw [replies_succ, List.range_succ_eq_map, List.map_cons, List.map_map]
    cases hentries with
    | nil =>
      obtain ⟨hanswer, hbrings⟩ := h.next_nil hanswers
      rw [hanswer, ih hbrings hfollows.answers (hfollows.pageSize ▸ hsize) .nil]
      rfl
    | @cons row entry pending entries hentry hrest =>
      obtain ⟨given, hgiven, hanswer, hbrings⟩ | ⟨⟨other, hother, hunreadable⟩, -⟩ := h.next_cons hanswers hsize
      · rw [hanswer, ih hbrings hfollows.answers (hfollows.pageSize ▸ hsize) hrest, hgiven.unique hentry]
        rfl
      · exact absurd ((exists_entries_iff _).mp ⟨_, .cons hentry hrest⟩ other hother) hunreadable

/-- Among rows one of which cannot be read, an iterator fails. -/
theorem Brings.exists_failure (h : table.Brings number pending) (hanswers : table.database.answers = [])
    (hsize : 0 < table.pageSize) {row : Value} (hrow : row ∈ pending) (hunreadable : ¬∃ entry, RowHolds row entry)
    (now : Instant) {times : Nat} (htimes : pending.length ≤ times) :
    ∃ reply ∈ table.replies now number times, reply.IsFailure := by
  induction pending generalizing table times with
  | nil => exact absurd hrow List.not_mem_nil
  | cons first rest ih =>
    obtain ⟨times, rfl⟩ := Nat.exists_eq_succ_of_ne_zero (Nat.ne_of_gt (Nat.lt_of_lt_of_le (Nat.succ_pos _) htimes))
    have hfollows := follows_call hanswers now (.request (.next number))
    rw [replies_succ]
    obtain ⟨given, hgiven, -, hbrings⟩ | ⟨-, failure, hfailed⟩ := h.next_cons hanswers hsize
    · have hbehind : row ∈ rest := by
        obtain rfl | hbehind := List.mem_cons.mp hrow
        · exact absurd ⟨given, hgiven⟩ hunreadable
        · exact hbehind
      obtain ⟨reply, hreply, hfailure⟩ :=
        ih hbrings hfollows.answers (hfollows.pageSize ▸ hsize) hbehind (Nat.succ_le_succ_iff.mp htimes)
      exact ⟨reply, List.mem_cons_of_mem _ hreply, hfailure⟩
    · exact ⟨_, List.mem_cons_self, failure, congrArg TableReply.answered hfailed⟩

/-! ## One row -/

/-- How a table gives back details that were stored under an identifier.  Details that can be read back are found, as
they were when nothing else was there, and an iterator gives them when it can read the other rows.  Details that cannot
be read back are refused by name, and fail every iteration that goes far enough. -/
structure ReadsBack (table : HostedTable) (id : String) (details : Details) : Prop where
  found : details.IsStorable → ∃ kept : Details, StoredDetails.read? details.toValue = some kept ∧
    (kept.toValue.Alike details.toValue ↔ details.HasNoMore) ∧
    (table.get id).2 = .ok (some kept.toValue) ∧
    ((∀ row ∈ table.database.rows, Database.rowId row ≠ id → ∃ entry, RowHolds row entry) →
      ∀ now times, table.database.rows.length ≤ times →
        .answered (.ok (some ⟨id, some kept.toValue⟩)) ∈ table.iterate.1.replies now table.iterate.2 times ∧
          ∀ reply ∈ table.iterate.1.replies now table.iterate.2 times, ¬reply.IsFailure)
  refused : ¬details.IsStorable →
    (table.get id).2 =
        .error (.service (.persistence s!"Malformed row in {table.name} for {id}" "get" (some id))) ∧
      ∀ now times, table.database.rows.length ≤ times →
        ∃ reply ∈ table.iterate.1.replies now table.iterate.2 times, reply.IsFailure

/-- A row is found under its identifier, and every iteration comes to it. -/
theorem readsBack_of_mem (hanswers : table.database.answers = []) (hsize : 0 < table.pageSize)
    (hdistinct : (table.database.rows.map Database.rowId).Nodup) {now : Instant} {id : String} {details : Details}
    (hmem : rowOf now id (some details.toValue) ∈ table.database.rows) : table.ReadsBack id details := by
  have hid : Database.rowId (rowOf now id (some details.toValue)) = id := rfl
  have hone := Database.filter_rowId_eq_singleton hdistinct hmem
  rw [hid] at hone
  have hget := get_of_row hanswers hone rfl
  have hsorted {row : Value} : row ∈ Database.sortedRows table.database.rows ↔ row ∈ table.database.rows :=
    List.mem_mergeSort
  have hlength : (Database.sortedRows table.database.rows).length = table.database.rows.length :=
    List.length_mergeSort _
  have hbrings := table.brings_iterate
  constructor
  · intro hstorable
    obtain ⟨kept, hkept⟩ := (StoredDetails.exists_read?_iff details).mpr hstorable
    have hholds : RowHolds (rowOf now id (some details.toValue)) ⟨id, some kept.toValue⟩ := rowHolds_rowOf now id hkept
    refine ⟨kept, hkept, StoredDetails.alike_read?_iff hkept, ?_, fun hothers now times htimes ↦ ?_⟩
    · rw [hget, (table.readRow_eq_ok_iff "get" _ _).mpr hholds]
      rfl
    · have hreadable : ∀ row ∈ Database.sortedRows table.database.rows, ∃ entry, RowHolds row entry := by
        intro row hrow
        by_cases hsame : Database.rowId row = id
        · have hrows := List.inj_on_of_nodup_map hdistinct (hsorted.mp hrow) hmem (hsame.trans hid.symm)
          exact ⟨_, hrows ▸ hholds⟩
        · exact hothers row (hsorted.mp hrow) hsame
      obtain ⟨entries, hentries⟩ := (exists_entries_iff _).mpr hreadable
      rw [hbrings.replies_eq hanswers hsize hentries]
      constructor
      · have hentry := (mem_entries_iff hentries _).mpr ⟨_, hsorted.mpr hmem, hholds⟩
        obtain ⟨place, hplace⟩ := List.mem_iff_getElem?.mp hentry
        have hwithin := (List.getElem?_eq_some_iff.mp hplace).1
        rw [← hentries.length_eq, hlength] at hwithin
        refine List.mem_map.mpr ⟨place, List.mem_range.mpr (Nat.lt_of_lt_of_le hwithin htimes), ?_⟩
        rw [hplace]
      · intro reply hreply
        obtain ⟨place, -, rfl⟩ := List.mem_map.mp hreply
        rintro ⟨failure, hfailure⟩
        cases hfailure
  · intro hnot
    have hnone : StoredDetails.read? details.toValue = none := by
      rw [← Option.not_isSome_iff_eq_none, Option.isSome_iff_exists, StoredDetails.exists_read?_iff]
      exact hnot
    refine ⟨?_, fun now times htimes ↦ hbrings.exists_failure hanswers hsize (hsorted.mpr hmem) ?_ now ?_⟩
    · have hmalformed : table.readRow "get" (rowOf now id (some details.toValue)) = _ :=
        table.readRow_malformed "get" rfl hnone
      rw [hget, hmalformed]
      rfl
    · rintro ⟨entry, -, kept, hread, -⟩
      cases hnone.symm.trans hread
    · rwa [hlength]

end HostedTable

/-! ## One registration -/

/-- A registration that is completed is acknowledged with the details that it came with. -/
theorem Manager.datanode_of_completeRegistration {manager : Manager} {placed : PlacedRegistration}
    {acknowledgement : Acknowledgement} (h : (manager.completeRegistration placed).2 = .ok acknowledgement) :
    acknowledgement.datanode = placed.request.details := by
  unfold completeRegistration at h
  simp only at h
  split at h
  · cases h
  · rw [← Except.ok.inj h]

/-- A registration that was written is completed and acknowledged, on the standings as they are. -/
theorem Manager.standing_of_finishRegistration {manager finished : Manager} {placed : PlacedRegistration}
    {acknowledgement : Acknowledgement} (hkeyed : manager.Keyed)
    (hregistered : manager.registry.contains placed.request.details.id = true)
    (h : manager.finishRegistration placed (.ok none) = (finished, .ok (.acknowledged acknowledgement))) :
    acknowledgement.datanode = placed.request.details ∧ ∀ id, finished.standing id = manager.standing id := by
  have hsettled : manager.settleWrite placed.request.details.id (.ok none) =
      (manager.markSynced placed.request.details.id, .ok ()) := rfl
  obtain ⟨hregistry, htended⟩ := tended_completed hsettled hkeyed hregistered
  rw [finishRegistration_of_settled hsettled] at h
  cases hcompleted : (manager.markSynced placed.request.details.id).completeRegistration placed with
  | mk completed result =>
    rw [hcompleted] at h htended
    cases result with
    | error failure => cases congrArg Prod.snd h
    | ok given =>
      obtain rfl : given = acknowledgement := Reply.acknowledged.inj (Except.ok.inj (congrArg Prod.snd h))
      obtain rfl : completed = finished := congrArg Prod.fst h
      refine ⟨datanode_of_completeRegistration (congrArg Prod.snd hcompleted), fun id ↦ ?_⟩
      rw [htended.standing, standing, hregistry, standing]

namespace World

variable {world after : World} {number : Nat} {hosted : HostedTable} {acknowledgement : Acknowledgement}

/-- A registration over a hosted table is written, and its row holds the details that the registry holds then. -/
theorem exists_record_of_run_register (hsound : world.manager.Sound) (htable : world.manager.table = some number)
    (hhosts : world.Hosts number hosted) {request : RegistrationRequest} (hkept : request.details.Kept)
    (hpersist : request.persist = true)
    (hrun : world.run (.register request) = (after, .ok (.acknowledged acknowledgement)))
    (hpermitted : acknowledgement.permitted = true) :
    ∃ record written now, after.manager.registry.get? acknowledgement.datanode.id = some record ∧
      record.details.id = acknowledgement.datanode.id ∧ record.details.Kept ∧ after.Hosts number written ∧
      written.database.rows =
        Database.store (HostedTable.rowOf now acknowledgement.datanode.id (some record.details.toValue))
          hosted.database.rows := by
  cases hplacing : world.manager.placing request with
  | mk inPlace refusal =>
    cases refusal with
    | some refusal =>
      rw [run_register_refused hplacing] at hrun
      have hanswer := Reply.acknowledged.inj (Except.ok.inj (congrArg Prod.snd hrun))
      rw [← hanswer] at hpermitted
      cases hpermitted
    | none =>
      obtain ⟨hinPlace, hregistered⟩ := hsound.placing hkept hplacing
      have hrenews := Manager.renews_of_placing hsound.keyed hplacing
      have hwrite : (if request.persist then inPlace.table else none) = some number := by
        have hsame : inPlace.table = world.manager.table := congrArg Settings.table hrenews.settings
        rw [hpersist, if_pos rfl, hsame, htable]
      have hwaiting : (world.withManager inPlace).Hosts number hosted := ⟨hhosts.table, hhosts.answers, hhosts.pageSize⟩
      obtain ⟨hasked, hanswer⟩ :=
        hwaiting.ask (.put request.details.id (world.manager.placedBy inPlace request).stored)
      have halike := world.alike_askedToPut inPlace number request
      cases hask : world.askedToPut inPlace number request with
      | mk asked answer =>
        rw [show (world.withManager inPlace).ask number _ = (asked, answer) from hask] at hasked hanswer
        rw [hask] at halike
        unfold HostedTable.call at hasked hanswer
        simp only [HostedTable.put_of_nil hhosts.answers] at hasked hanswer
        obtain rfl : answer = .ok none := TableReply.answered.inj hanswer
        rw [run_register_written hplacing hwrite hask] at hrun
        have hheld : asked.manager.registry.contains request.details.id = true := halike.registry ▸ hregistered
        obtain rfl : asked.withManager (asked.manager.finishRegistration (world.manager.placedBy inPlace request)
            (.ok none)).1 = after := congrArg Prod.fst hrun
        have houtcome : (asked.manager.finishRegistration (world.manager.placedBy inPlace request) (.ok none)).2 =
            .ok (.acknowledged acknowledgement) := congrArg Prod.snd hrun
        obtain ⟨hdatanode, hstandings⟩ := Manager.standing_of_finishRegistration (hinPlace.alike halike).keyed
          hheld (Prod.ext rfl houtcome)
        have hstanding : (asked.manager.finishRegistration (world.manager.placedBy inPlace request)
            (.ok none)).1.standing request.details.id =
              some (Standing.renewed (world.manager.standing request.details.id) request.details) := by
          refine (hstandings _).trans ?_
          rw [halike.standing, hrenews.standing, if_pos rfl]
        obtain ⟨record, hrecord, hsame⟩ := Manager.exists_record_of_standing hstanding
        have hstored : (world.manager.placedBy inPlace request).stored = record.details :=
          (Manager.stored_placedBy hrenews).trans (congrArg Standing.details hsame.symm)
        obtain ⟨hidentified, hstill, -, -⟩ :=
          hsame ▸ Standing.sound_renewed (world.manager.standing request.details.id) hkept
        rw [hstored] at hasked
        rw [show acknowledgement.datanode = request.details from hdatanode]
        exact ⟨record, _, (world.withManager inPlace).clock, hrecord, hidentified, hstill,
          ⟨hasked.table, hasked.answers, hasked.pageSize⟩, rfl⟩

/-! ## Loading it again -/

/-- How a load brings back a datanode with details that one of some rows holds under its identifier.  It ends without a
failure when the details can be read back and have a valid operational state and it gets past the other rows, and not
otherwise.  When it does, and the other locations are at the same depth, the datanode is registered with what is read
back of its details. -/
structure LoadsBack (world : World) (rows : List Value) (id : String) (details : Details) : Prop where
  untroubled_iff : world.load.1.manager.cluster.hasError ClusterContext.loadFailed = false ↔
    details.IsStorable ∧ Validation.StateValid details.operational details.expiry ∧
      ∀ row ∈ rows, Database.rowId row ≠ id → row.IsLoadable
  registered : world.load.1.manager.cluster.hasError ClusterContext.loadFailed = false →
    (∀ row ∈ rows, Database.rowId row ≠ id → row.FitsDepth (Topology.depthOf details.location)) →
      ∃ kept record, StoredDetails.read? details.toValue = some kept ∧
        world.load.1.manager.registry.get? id = some record ∧ record.details = kept

/-- The row of details in their kept form is loadable exactly when they can be read back and their operational state is
valid. -/
theorem isLoadable_rowOf_iff {details : Details} (hkept : details.Kept) (now : Instant) (id : String) :
    (HostedTable.rowOf now id (some details.toValue)).IsLoadable ↔
      details.IsStorable ∧ Validation.StateValid details.operational details.expiry := by
  constructor
  · rintro ⟨entry, hholds, hflaws⟩
    obtain ⟨-, read, hread, hdetails⟩ := hholds
    have hback : StoredDetails.read? details.toValue = some read := hread
    rw [hdetails] at hflaws
    exact ⟨(StoredDetails.exists_read?_iff details).mp ⟨read, hback⟩, (hkept.check_of_read? hback).mp hflaws⟩
  · rintro ⟨hstorable, hstate⟩
    obtain ⟨read, hread⟩ := (StoredDetails.exists_read?_iff details).mpr hstorable
    exact ⟨_, HostedTable.rowHolds_rowOf now id hread, (hkept.check_of_read? hread).mpr hstate⟩

theorem loadsBack_of_mem (hempty : world.manager.HasEmptyMemory) (htable : world.manager.table = some number)
    (hhosts : world.Hosts number hosted) (hdistinct : (hosted.database.rows.map Database.rowId).Nodup)
    {details : Details} (hkept : details.Kept) {now : Instant}
    (hmem : HostedTable.rowOf now details.id (some details.toValue) ∈ hosted.database.rows) :
    world.LoadsBack hosted.database.rows details.id details := by
  let row := HostedTable.rowOf now details.id (some details.toValue)
  have hself : Database.rowId row = details.id := rfl
  have honly {other : Value} (hother : other ∈ hosted.database.rows) (hsame : Database.rowId other = details.id) :
      other = row := List.inj_on_of_nodup_map hdistinct hother hmem (hsame.trans hself.symm)
  have hloads := load_untroubled_iff htable hhosts
  constructor
  · rw [hloads, ← and_assoc, ← isLoadable_rowOf_iff hkept now details.id]
    constructor
    · exact fun hall ↦ ⟨hall row hmem, fun other hother _ ↦ hall other hother⟩
    · rintro ⟨hrow, hothers⟩ other hother
      by_cases hsame : Database.rowId other = details.id
      · exact honly hother hsame ▸ hrow
      · exact hothers other hother hsame
  · intro huntroubled hfits
    have hall := hloads.mp huntroubled
    obtain ⟨hstorable, -⟩ := (isLoadable_rowOf_iff hkept now details.id).mp (hall row hmem)
    obtain ⟨kept, hread⟩ := (StoredDetails.exists_read?_iff details).mpr hstorable
    have hid : kept.id = details.id := by
      unfold Details.id Details.identity
      rw [Details.get_of_read? hread (by decide) (by decide)]
    have hlocation : kept.location = details.location := by
      unfold Details.location Details.networkLocation
      rw [Details.get_of_read? hread (by decide) (by decide)]
    have hdepths : ∀ other ∈ hosted.database.rows, other.FitsDepth (Topology.depthOf details.location) := by
      intro other hother
      by_cases hsame : Database.rowId other = details.id
      · rw [honly hother hsame]
        intro given hgiven
        obtain rfl : kept = given := Option.some.inj (hread.symm.trans hgiven)
        exact ⟨by rw [hid]; rfl, by rw [hlocation]⟩
      · exact hfits other hother hsame
    have hstanding := load_registers hempty htable hhosts hdistinct hdepths hall hmem hread
    rw [hid] at hstanding
    obtain ⟨record, hrecord, hsame⟩ := Manager.exists_record_of_standing hstanding
    exact ⟨kept, record, hread, hrecord, congrArg Standing.details hsame⟩

/-- Over a hosted table without faults, the details that the registry holds after a permitted registration are read back
exactly when they name an operational state and have a version, a revision, an expiry and a time of setup, and as they
are exactly when they have nothing else.  A service that starts over the same rows loads them, too, when their
operational state is valid; otherwise its load is given up. -/
theorem registered_details_read_back (hsound : world.manager.Sound) (htable : world.manager.table = some number)
    (hhosts : world.Hosts number hosted) (hdistinct : (hosted.database.rows.map Database.rowId).Nodup)
    {offered : Field} {nodeReport : Option NodeReport} {pipelineReport : Field} {layout : Option LayoutReport}
    (hserved : world.serve (.register offered nodeReport pipelineReport layout) =
      (after, .ok (.acknowledged acknowledgement)))
    (hpermitted : acknowledgement.permitted = true) :
    ∃ record written, after.manager.registry.get? acknowledgement.datanode.id = some record ∧
      after.Hosts number written ∧
      (∀ row ∈ written.database.rows, Database.rowId row ≠ acknowledgement.datanode.id → row ∈ hosted.database.rows) ∧
      (record.details.IsStorable ↔ OperationalState.isWritten record.details.operational = true ∧
        (∀ name ∈ ["version", "revision"], ∃ text, record.details.get name = some (.text text)) ∧
        ∀ name ∈ ["persistedOpStateExpiryEpochSec", "setupTime"],
          ∃ number, record.details.get name = some (.number number)) ∧
      written.ReadsBack acknowledgement.datanode.id record.details ∧
      ∀ (later : World) (place : Nat) (reopened : HostedTable), later.manager.HasEmptyMemory →
        later.manager.table = some place → later.Hosts place reopened →
        reopened.database.rows = written.database.rows →
          later.LoadsBack written.database.rows acknowledgement.datanode.id record.details := by
  obtain ⟨refused, failure, -, hrefused⟩ | ⟨details, -, hkept, hrun⟩ :=
    world.serve_register_cases offered nodeReport pipelineReport layout
  · rw [hrefused] at hserved
    cases congrArg Prod.snd hserved
  · rw [hrun] at hserved
    obtain ⟨record, written, now, hrecord, hid, hstill, hwritten, hrows⟩ :=
      exists_record_of_run_register hsound htable hhosts hkept rfl hserved hpermitted
    have hnodup : (written.database.rows.map Database.rowId).Nodup := by
      rw [hrows]
      exact Database.nodup_rowId_store _ hdistinct
    have hmem : HostedTable.rowOf now acknowledgement.datanode.id (some record.details.toValue) ∈
        written.database.rows := by
      rw [hrows]
      exact Database.mem_store_self _ _
    have hothers : ∀ row ∈ written.database.rows, Database.rowId row ≠ acknowledgement.datanode.id →
        row ∈ hosted.database.rows := by
      intro row hrow hne
      rw [hrows] at hrow
      exact (Database.mem_of_mem_store hrow).resolve_left fun hsame ↦ hne (hsame ▸ rfl)
    refine ⟨record, written, hrecord, hwritten, hothers, hstill.isStorable_iff,
      HostedTable.readsBack_of_mem hwritten.answers hwritten.pageSize hnodup hmem,
      fun later place reopened hempty hplace hreopened hsame ↦ ?_⟩
    rw [← hid] at hmem ⊢
    rw [← hsame] at hmem hnodup ⊢
    exact loadsBack_of_mem hempty hplace hreopened hnodup hstill hmem

/-- A primary that was just made, over a hosted table without rows. -/
def initialHosted : World :=
  ⟨Service.make { table := some 0, clock := 0 } .default,
    [.ofStore (.hosted ⟨.create [] [], HostedTable.standardName, HostedTable.standardPageSize, []⟩)]⟩

/-- Details with all ten members are read back as they are and loaded again.  Details that leave out what the admission
does not ask for are registered with success too, but they are refused when they are looked for, and the next start
gives up its load. -/
theorem registered_details_read_back_unless_incomplete :
    let whole := Details.whole (Details.sample "").id
    let partly := Details.sample "/rack1"
    let served (details : Details) := initialHosted.serve (.register (some details.toValue) none none none)
    let acknowledged (details : Details) : Acknowledgement := ⟨true, details, initialHosted.manager.cluster.id⟩
    let restarted (details : Details) : World := { initialHosted with tables := (served details).1.tables }
    (served whole).2 = .ok (.acknowledged (acknowledged whole)) ∧
      (served partly).2 = .ok (.acknowledged (acknowledged partly)) ∧
      (∃ written kept, (served whole).1.Hosts 0 written ∧ (written.get whole.id).2 = .ok (some kept) ∧
        kept.Alike whole.toValue ∧
        (restarted whole).load.1.manager.cluster.hasError ClusterContext.loadFailed = false) ∧
      ∃ written failure, (served partly).1.Hosts 0 written ∧ (written.get partly.id).2 = .error failure ∧
        (restarted partly).load.1.manager.cluster.hasError ClusterContext.loadFailed = true := by
  intro whole partly served acknowledged restarted
  have hempty : initialHosted.manager.HasEmptyMemory := Service.hasEmptyMemory_make _ _
  have htable : initialHosted.manager.table = some 0 := rfl
  have hhosts : initialHosted.Hosts 0
      ⟨.create [] [], HostedTable.standardName, HostedTable.standardPageSize, []⟩ := ⟨rfl, rfl, by decide⟩
  have hwhole : (served whole).2 = .ok (.acknowledged (acknowledged whole)) := by decide +kernel
  have hpartly : (served partly).2 = .ok (.acknowledged (acknowledged partly)) := by decide +kernel
  refine ⟨hwhole, hpartly, ?_, ?_⟩
  · obtain ⟨record, written, hrecord, hwritten, hothers, -, hback, hloads⟩ :=
      registered_details_read_back hempty.sound htable hhosts List.nodup_nil (Prod.ext rfl hwhole) rfl
    have hdetails : ∀ record ∈ (served whole).1.manager.registry.records.values, record.details = whole := by
      decide +kernel
    rw [hdetails record ((OrderedMap.mem_values_iff _ _).mpr ⟨_, hrecord⟩)] at hback hloads
    have hplain : whole.IsPlain := by decide +kernel
    obtain ⟨kept, -, halike, hget, -⟩ := hback.found hplain.toIsStorable
    have hagain := hloads (restarted whole) 0 written hempty htable
      ⟨hwritten.table, hwritten.answers, hwritten.pageSize⟩ rfl
    refine ⟨written, kept.toValue, hwritten, hget, halike.mpr hplain.toHasNoMore, hagain.untroubled_iff.mpr ?_⟩
    exact ⟨hplain.toIsStorable, by decide +kernel, fun row hrow hne ↦ absurd (hothers row hrow hne) List.not_mem_nil⟩
  · obtain ⟨record, written, hrecord, hwritten, -, -, hback, hloads⟩ :=
      registered_details_read_back hempty.sound htable hhosts List.nodup_nil (Prod.ext rfl hpartly) rfl
    have hdetails : ∀ record ∈ (served partly).1.manager.registry.records.values, record.details = partly := by
      decide +kernel
    rw [hdetails record ((OrderedMap.mem_values_iff _ _).mpr ⟨_, hrecord⟩)] at hback hloads
    have hincomplete : ¬partly.IsStorable := by decide +kernel
    have hagain := hloads (restarted partly) 0 written hempty htable
      ⟨hwritten.table, hwritten.answers, hwritten.pageSize⟩ rfl
    refine ⟨written, _, hwritten, (hback.refused hincomplete).1, Bool.eq_true_of_not_eq_false fun hended ↦ ?_⟩
    exact hincomplete (hagain.untroubled_iff.mp hended).1

end World

end ClusterMembership
