import ClusterMembership.Proofs.Paging
import ClusterMembership.Proofs.Restart

/-!
# Loading a hosted table

A load asks for one row after another, and the rows come in pages.  It stops at the first page with a row that cannot be
read, and at the first row whose details are not admitted.  So it comes to its end exactly when every row holds details
without flaws; and when all locations are at one depth, it has registered every row by then.
-/

namespace ClusterMembership

/-- A row that a load gets past: it holds an entry whose details have no flaws. -/
def Value.IsLoadable (row : Value) : Prop :=
  ∃ entry, RowHolds row entry ∧ Validation.check entry.details = .ok []

/-- A row that fits a topology of some depth: its details are those of its identifier, at a location of that depth. -/
def Value.FitsDepth (depth : Nat) (row : Value) : Prop :=
  ∀ details, (row.member "details").bind StoredDetails.read? = some details →
    row.member "id" = some (.text details.id) ∧ Topology.depthOf details.location = depth

/-! ## Details that are read back -/

namespace Details

variable {given kept : Details}

/-- Details with a list of ports and a written location that have no flaws are in their kept form. -/
theorem kept_of_check {details : Details} (hports : ∃ ports, details.ports = some (.list ports))
    (hlocation : ∃ path, details.networkLocation = some (.text path))
    (hflaws : Validation.check (some details.toValue) = .ok []) : details.Kept := by
  obtain ⟨⟨hidentifier, hhost, haddress, hlisted, hlocated⟩, -, hsetup⟩ :=
    (Validation.check_eq_nil_iff details.members).mp hflaws
  obtain ⟨ports, hports⟩ := hports
  obtain ⟨path, hpath⟩ := hlocation
  exact
    { identified := (Validation.identifier_eq_none_iff _).mp hidentifier
      located := by
        refine ⟨path, hpath, ?_⟩
        rw [show Members.get details.members "networkLocation" = _ from hpath] at hlocated
        by_contra hformed
        simp [Validation.networkLocation, hformed] at hlocated
      listed := by
        rw [show Members.get details.members "ports" = _ from hports] at hlisted
        exact ⟨ports, hports, hlisted⟩
      hostName := hhost
      ipAddress := haddress
      setupTime := hsetup }

/-- Every member but the ports is read back as it was. -/
theorem get_of_read? (h : StoredDetails.read? given.toValue = some kept) {name : String}
    (hname : name ∈ StoredDetails.shape.map Prod.fst) (hports : name ≠ "ports") : kept.get name = given.get name := by
  obtain ⟨members, hmembers, rfl⟩ := Option.map_eq_some_iff.mp ((StoredDetails.read?_toValue given).symm.trans h)
  obtain ⟨reader, hreader⟩ := Option.isSome_iff_exists.mp ((Association.isSome_find?_iff name _).mpr hname)
  have hmem := Association.mem_of_find?_eq_some hreader
  obtain ⟨value, hvalue⟩ := (StoredDetails.exists_readMembers_iff given.members _).mp ⟨members, hmembers⟩ _ hmem
  have hget := StoredDetails.get_readMembers hmembers name
  rw [hreader, Option.bind_some, show reader (Members.get given.members name) = some value from hvalue] at hget
  exact hget.trans (StoredDetails.eq_of_reader hmem hports hvalue).symm

/-- What is read back has a list of ports and a written location. -/
theorem exists_ports_of_read? (h : StoredDetails.read? given.toValue = some kept) :
    (∃ ports copied, given.ports = some (.list ports) ∧ kept.ports = some (.list copied) ∧
        List.Forall₂ (fun port copy ↦ StoredDetails.readPort port = some copy) ports copied) ∧
      ∃ path, kept.networkLocation = some (.text path) := by
  have hstorable := (StoredDetails.exists_read?_iff given).mp ⟨kept, h⟩
  constructor
  · obtain ⟨list, hlist⟩ := (StoredDetails.exists_readPorts_iff given.ports).mpr hstorable.ports
    obtain ⟨ports, copied, hports, hcopied, rfl⟩ := (StoredDetails.readPorts_eq_some_iff given.ports list).mp hlist
    exact ⟨ports, copied, hports, (StoredDetails.get_read? h "ports").trans hlist, hcopied⟩
  · obtain ⟨path, hpath⟩ := hstorable.text "networkLocation" (by decide)
    exact ⟨path, (get_of_read? h (by decide) (by decide)).trans hpath⟩

/-- A port that is read back has the flaws that it had. -/
theorem portsFlaw_of_copied {ports copied : List Value}
    (h : List.Forall₂ (fun port copy ↦ StoredDetails.readPort port = some copy) ports copied) (seen : List String)
    (index : Nat) : Validation.portsFlaw seen index copied = Validation.portsFlaw seen index ports := by
  induction h generalizing seen index with
  | nil => rfl
  | @cons port copy ports copied hcopy _ ih =>
    obtain ⟨name, number, -, hname, hnumber, rfl⟩ := (StoredDetails.readPort_eq_some_iff port copy).mp hcopy
    have hobject : port.isObject = true := by
      cases port with
      | object members => rfl
      | _ => cases hname
    have hflaw : Validation.portFlaw seen index (.object [("name", .text name), ("value", .number number)]) =
        Validation.portFlaw seen index port := by
      unfold Validation.portFlaw
      rw [hobject, hname, hnumber]
      rfl
    unfold Validation.portsFlaw
    rw [hflaw, ih, hname]
    rfl

/-- What is read back of details in their kept form is in its kept form. -/
theorem Kept.of_read? (hkept : given.Kept) (h : StoredDetails.read? given.toValue = some kept) : kept.Kept := by
  have hget {name : String} (hname : name ∈ StoredDetails.shape.map Prod.fst) (hports : name ≠ "ports") :
      kept.get name = given.get name := get_of_read? h hname hports
  obtain ⟨⟨ports, copied, hports, hcopied, hcopies⟩, -⟩ := exists_ports_of_read? h
  exact
    { identified := by
        unfold identity
        rw [hget (by decide) (by decide)]
        exact hkept.identified
      located := by
        unfold networkLocation
        rw [hget (by decide) (by decide)]
        exact hkept.located
      listed := by
        obtain ⟨listed, hlisted, hflaw⟩ := hkept.listed
        obtain rfl : ports = listed := by simpa using hports.symm.trans hlisted
        exact ⟨copied, hcopied, (portsFlaw_of_copied hcopies [] 0).trans hflaw⟩
      hostName := by
        unfold Details.hostName
        rw [hget (by decide) (by decide)]
        exact hkept.hostName
      ipAddress := by
        unfold Details.ipAddress
        rw [hget (by decide) (by decide)]
        exact hkept.ipAddress
      setupTime := by
        rw [hget (by decide) (by decide)]
        exact hkept.setupTime }

/-- What is read back of details in their kept form has no flaws exactly when their operational state is valid. -/
theorem Kept.check_of_read? (hkept : given.Kept) (h : StoredDetails.read? given.toValue = some kept) :
    Validation.check (some kept.toValue) = .ok [] ↔ Validation.StateValid given.operational given.expiry := by
  rw [(hkept.of_read? h).check_eq_nil_iff]
  unfold operational expiry
  rw [get_of_read? h (by decide) (by decide), get_of_read? h (by decide) (by decide)]

end Details

/-- The details of an entry without flaws are in their kept form. -/
theorem RowHolds.exists_kept {row : Value} {entry : TableEntry} (h : RowHolds row entry)
    (hflaws : Validation.check entry.details = .ok []) :
    ∃ details : Details, entry.details = some details.toValue ∧
      (row.member "details").bind StoredDetails.read? = some details ∧ details.Kept ∧
      Validation.StateValid details.operational details.expiry := by
  obtain ⟨-, details, hread, hdetails⟩ := h
  obtain ⟨value, -, hvalue⟩ := Option.bind_eq_some_iff.mp hread
  obtain ⟨given, rfl⟩ : ∃ given : Details, value = given.toValue := by
    cases value with
    | object members => exact ⟨⟨members⟩, rfl⟩
    | _ => cases hvalue
  rw [hdetails] at hflaws
  obtain ⟨⟨_, copied, _, hports, _⟩, hlocation⟩ := Details.exists_ports_of_read? hvalue
  have hkept := Details.kept_of_check ⟨copied, hports⟩ hlocation hflaws
  exact ⟨details, hdetails, hread, hkept, hkept.check_eq_nil_iff.mp hflaws⟩

namespace Manager

/-- Details with a flaw are refused. -/
theorem exists_screen_refused (manager : Manager) {details : Details}
    (h : Validation.check (some details.toValue) ≠ .ok []) :
    ∃ refused failure, manager.screen (some details.toValue) = (refused, .error failure) := by
  unfold screen
  split
  · exact ⟨_, _, rfl⟩
  · next hnone => exact absurd hnone h
  · exact ⟨_, _, rfl⟩

/-- A load that fails sets the code for it. -/
theorem hasError_loadFailed (manager : Manager) (failure : Failure) (loaded : Nat) :
    (manager.loadFailed failure loaded).cluster.hasError ClusterContext.loadFailed = true :=
  ClusterContext.hasError_addError _ _

end Manager

/-! ## Asking for rows -/

namespace World

variable {world : World} {number iterator : Nat} {hosted : HostedTable} {pending : List Value}

/-- A world in which a number stands for a hosted table with a database that answers from its rows. -/
structure Hosts (world : World) (number : Nat) (hosted : HostedTable) : Prop where
  table : world.tables[number]? = some (.ofStore (.hosted hosted))
  answers : hosted.database.answers = []
  pageSize : 0 < hosted.pageSize

/-- A request to a hosted table is a call of it. -/
theorem Hosts.ask (h : world.Hosts number hosted) (request : TableRequest) :
    (world.ask number request).1.Hosts number (hosted.call world.clock (.request request)).1 ∧
      .answered (world.ask number request).2 = (hosted.call world.clock (.request request)).2 := by
  have hcall := Table.call_hosted hosted world.clock (.request request)
  have hfollows := HostedTable.follows_call h.answers world.clock (.request request)
  have hlength := (List.getElem?_eq_some_iff.mp h.table).1
  unfold World.ask
  simp only [h.table]
  refine ⟨⟨?_, hfollows.answers, hfollows.pageSize ▸ h.pageSize⟩, congrArg Prod.snd hcall⟩
  exact (List.getElem?_set_self hlength).trans (congrArg some (congrArg Prod.fst hcall))

/-- An open iterator over a hosted table, with the rows that it has yet to give. -/
def Brings (world : World) (number iterator : Nat) (pending : List Value) : Prop :=
  ∃ hosted, world.Hosts number hosted ∧ hosted.Brings iterator pending

/-- Behind the last row a load ends, and the code of a failed load is cleared. -/
theorem loadEntries_nil (h : world.Brings number iterator []) (bound loaded : Nat) :
    ∃ ended, loadEntries (bound + 1) world ⟨number, iterator, loaded⟩ = (ended, loaded) ∧
      world.manager.Alike ended.manager ∧ ended.manager.cluster.hasError ClusterContext.loadFailed = false := by
  obtain ⟨hosted, hhosts, hbrings⟩ := h
  obtain ⟨-, hanswer⟩ := hhosts.ask (.next iterator)
  have halike := world.alike_ask number (.next iterator)
  cases hask : world.ask number (.next iterator) with
  | mk asked answer =>
    rw [hask] at hanswer halike
    obtain rfl : answer = .ok none :=
      (TableReply.answered.inj hanswer).trans (hbrings.next_nil hhosts.answers).1
    unfold loadEntries
    simp only [hask]
    refine ⟨_, rfl, halike.trans (asked.manager.noted_loadEnded loaded).alike, ?_⟩
    exact asked.manager.cluster.hasError_removeError ClusterContext.loadFailed

/-- A registration that is not written back is answered, and leaves the tables as they are. -/
theorem exists_run_unwritten (world : World) (request : RegistrationRequest) (hpersist : request.persist = false)
    (hreport : request.nodeReport = none) :
    ∃ registered acknowledgement,
      world.run (.register request) = (registered, .ok (.acknowledged acknowledgement)) ∧
        registered.tables = world.tables := by
  cases hplacing : world.manager.placing request with
  | mk inPlace refusal =>
    cases refusal with
    | some refusal => exact ⟨_, _, run_register_refused hplacing, rfl⟩
    | none =>
      obtain ⟨settled, acknowledgement, hcompleted, -⟩ :=
        inPlace.exists_completeRegistration_eq (world.manager.placedBy inPlace request) hreport
      have hrun := run_register_unwritten hplacing (by rw [hpersist]; rfl)
      rw [hcompleted] at hrun
      exact ⟨_, acknowledgement, hrun, rfl⟩

/-- A step of a load: the details of a row are registered as soon as the table has given them. -/
structure TakesIn (world : World) (row : Value) (details : Details) (continued : World) : Prop where
  loadable : row.IsLoadable
  read : (row.member "details").bind StoredDetails.read? = some details
  kept : details.Kept
  registered : ∃ asked : World, world.manager.Alike asked.manager ∧
    (asked.run (.register (asked.manager.storedRegistration details))).1.manager.Alike continued.manager

/-- At the next row a load fails, because of that row or of another one on its page, or it takes the row in and goes
on. -/
theorem loadEntries_cons {row : Value} {rest : List Value} (h : world.Brings number iterator (row :: rest))
    (bound loaded : Nat) :
    (¬∀ other ∈ row :: rest, other.IsLoadable) ∧
        (loadEntries (bound + 1) world ⟨number, iterator, loaded⟩).1.manager.cluster.hasError
          ClusterContext.loadFailed = true ∨
      ∃ details continued count, world.TakesIn row details continued ∧ continued.Brings number iterator rest ∧
        loadEntries (bound + 1) world ⟨number, iterator, loaded⟩ =
          loadEntries bound continued ⟨number, iterator, count⟩ := by
  obtain ⟨hosted, hhosts, hbrings⟩ := h
  obtain ⟨hasked, hanswer⟩ := hhosts.ask (.next iterator)
  have halike := world.alike_ask number (.next iterator)
  cases hask : world.ask number (.next iterator) with
  | mk asked answer =>
    rw [hask] at hasked hanswer halike
    have hanswered : answer = (hosted.next iterator).2.2 := TableReply.answered.inj hanswer
    have hclosed (failed : Manager) (htaken : asked.manager.takeEntry loaded answer = (failed, .close)) :
        loadEntries (bound + 1) world ⟨number, iterator, loaded⟩ = (asked.withManager failed, loaded) := by
      rw [loadEntries]
      simp only [hask, htaken]
    obtain ⟨entry, hentry, hgiven, hbrought⟩ | ⟨⟨other, hother, hunread⟩, failure, hfailed⟩ :=
      hbrings.next_cons hhosts.answers hhosts.pageSize
    · obtain rfl : answer = .ok (some entry) := hanswered.trans hgiven
      by_cases hflaws : Validation.check entry.details = .ok []
      · obtain ⟨details, hdetails, hread, hkept, hstate⟩ := hentry.exists_kept hflaws
        have hscreen : asked.manager.screen entry.details = (asked.manager, .ok details) := by
          rw [hdetails]
          exact asked.manager.screen_toValue hkept hstate
        obtain ⟨registered, acknowledgement, hrun, htables⟩ :=
          asked.exists_run_unwritten (asked.manager.storedRegistration details) rfl rfl
        obtain ⟨counted, count, hcounted, hcount⟩ : ∃ counted count, registered.manager.Alike counted ∧
            registered.manager.takeRegistered entry.id loaded (.ok (.acknowledged acknowledgement)) =
              (counted, some count) := ⟨_, _, registered.manager.alike_note _, rfl⟩
        have htaken : asked.manager.takeEntry loaded (.ok (some entry)) =
            (asked.manager, .register entry.id (.register (asked.manager.storedRegistration details))) := by
          unfold Manager.takeEntry
          simp only [hscreen]
        refine .inr ⟨details, registered.withManager counted, count,
          ⟨⟨entry, hentry, hflaws⟩, hread, hkept, asked, halike, ?_⟩,
          ⟨_, ⟨?_, hasked.answers, hasked.pageSize⟩, hbrought⟩, ?_⟩
        · rw [hrun]
          exact hcounted
        · exact (congrArg (·[number]?) htables).trans hasked.table
        · have hself : asked.withManager asked.manager = asked := rfl
          rw [loadEntries]
          simp only [hask, htaken, hself, hrun, hcount]
      · obtain ⟨-, details, -, hdetails⟩ := id hentry
        obtain ⟨refused, failure, hscreen⟩ := asked.manager.exists_screen_refused (hdetails ▸ hflaws)
        rw [← hdetails] at hscreen
        refine .inl ⟨fun hall ↦ ?_, ?_⟩
        · obtain ⟨other, hother, hnone⟩ := hall row List.mem_cons_self
          exact hflaws (hentry.unique hother ▸ hnone)
        · rw [hclosed (refused.loadFailed failure loaded) (by simp only [Manager.takeEntry, hscreen])]
          exact refused.hasError_loadFailed failure loaded
    · obtain rfl : answer = .error failure := hanswered.trans hfailed
      refine .inl ⟨fun hall ↦ ?_, ?_⟩
      · obtain ⟨entry, hentry, -⟩ := hall other hother
        exact hunread ⟨entry, hentry⟩
      · rw [hclosed _ rfl]
        exact asked.manager.hasError_loadFailed failure loaded

/-- Entry after entry, a load comes to its end without a failure exactly when it gets past every row. -/
theorem loadEntries_untroubled_iff (h : world.Brings number iterator pending) {bound : Nat}
    (hbound : pending.length < bound) (loaded : Nat) :
    (loadEntries bound world ⟨number, iterator, loaded⟩).1.manager.cluster.hasError ClusterContext.loadFailed = false ↔
      ∀ row ∈ pending, row.IsLoadable := by
  induction pending generalizing world bound loaded with
  | nil =>
    obtain ⟨bound, rfl⟩ := Nat.exists_eq_succ_of_ne_zero (Nat.ne_of_gt hbound)
    obtain ⟨ended, hended, -, hcluster⟩ := loadEntries_nil h bound loaded
    rw [hended]
    exact iff_of_true hcluster (List.forall_mem_nil _)
  | cons row rest ih =>
    obtain ⟨bound, rfl⟩ := Nat.exists_eq_succ_of_ne_zero (Nat.ne_of_gt (Nat.zero_lt_of_lt hbound))
    obtain ⟨hnot, hcluster⟩ | ⟨details, continued, count, htaken, hbrings, hended⟩ := loadEntries_cons h bound loaded
    · rw [hcluster]
      exact iff_of_false (Ne.symm Bool.false_ne_true) hnot
    · rw [hended, ih hbrings (Nat.succ_lt_succ_iff.mp hbound), List.forall_mem_cons]
      exact (and_iff_right htaken.loadable).symm

/-! ## What is registered -/

/-- A manager that is to take in rows with locations at one depth, which is that of its own, under identifiers that are
not registered yet. -/
structure Receives (manager : Manager) (depth : Nat) (pending : List Value) : Prop where
  sound : manager.Sound
  level : ∀ id standing, manager.standing id = some standing → Topology.depthOf standing.details.location = depth
  fits : ∀ row ∈ pending, row.FitsDepth depth
  distinct : (pending.map Database.rowId).Nodup
  absent : ∀ row ∈ pending, manager.standing (Database.rowId row) = none

theorem Receives.alike {manager after : Manager} {depth : Nat} (h : Receives manager depth pending)
    (halike : manager.Alike after) : Receives after depth pending where
  sound := h.sound.alike halike
  level id standing hstanding := h.level id standing ((halike.standing id).symm.trans hstanding)
  fits := h.fits
  distinct := h.distinct
  absent row hrow := (halike.standing _).trans (h.absent row hrow)

/-- A row that is taken in is registered. -/
theorem Receives.takesIn {depth : Nat} {row : Value} {rest : List Value} {details : Details} {continued : World}
    (h : Receives world.manager depth (row :: rest)) (htaken : world.TakesIn row details continued) :
    Receives continued.manager depth rest ∧ ∀ other, continued.manager.standing other =
      if details.id = other then some (Standing.renewed none details) else world.manager.standing other := by
  obtain ⟨hid, hdepth⟩ := h.fits row List.mem_cons_self details htaken.read
  have hrow : Database.rowId row = details.id := by
    rw [Database.rowId, hid]
    rfl
  obtain ⟨hnew, hdistinct⟩ := List.nodup_cons.mp h.distinct
  obtain ⟨asked, hasked, hcontinued⟩ := htaken.registered
  have hready := h.alike hasked
  have hadmits : asked.manager.topology.Admits details.location := by
    have hformed := htaken.kept.isWellFormed_location
    refine ⟨Location.isAbsolute_of_isWellFormed hformed, Location.segments_ne_nil_of_isWellFormed hformed,
      fun {other there} hother ↦ ?_⟩
    rw [hready.sound.placed] at hother
    obtain ⟨standing, hstanding, rfl⟩ := Option.map_eq_some_iff.mp hother
    exact (hready.level other standing hstanding).trans hdepth.symm
  obtain ⟨registered, acknowledgement, hrun, -, -, hsound, hstandings⟩ :=
    run_stored hready.sound htaken.kept (hrow ▸ hready.absent row List.mem_cons_self) hadmits
  rw [hrun] at hcontinued
  have hstanding (other : String) : continued.manager.standing other =
      if details.id = other then some (Standing.renewed none details) else world.manager.standing other := by
    rw [hcontinued.standing, hstandings, hasked.standing]
  refine ⟨⟨hsound.alike hcontinued, fun id standing hsome ↦ ?_, fun other hother ↦ ?_, hdistinct,
    fun other hother ↦ ?_⟩, hstanding⟩
  · rw [hstanding] at hsome
    split at hsome
    · rw [← Option.some.inj hsome]
      exact hdepth
    · exact h.level id standing hsome
  · exact h.fits other (List.mem_cons_of_mem _ hother)
  · rw [hstanding, if_neg]
    · exact h.absent other (List.mem_cons_of_mem _ hother)
    · intro hsame
      exact hnew (hrow.trans hsame ▸ List.mem_map_of_mem hother)

/-- A load that gets past every row registers them all, and no other datanode. -/
theorem loadEntries_registers {depth : Nat} (h : world.Brings number iterator pending)
    (hreceives : Receives world.manager depth pending) (hall : ∀ row ∈ pending, row.IsLoadable) {bound : Nat}
    (hbound : pending.length < bound) (loaded : Nat) :
    ∃ ended count, loadEntries bound world ⟨number, iterator, loaded⟩ = (ended, count) ∧
      (∀ row ∈ pending, ∀ details, (row.member "details").bind StoredDetails.read? = some details →
        ended.manager.standing details.id = some (Standing.renewed none details)) ∧
      ∀ id ∉ pending.map Database.rowId, ended.manager.standing id = world.manager.standing id := by
  induction pending generalizing world bound loaded with
  | nil =>
    obtain ⟨bound, rfl⟩ := Nat.exists_eq_succ_of_ne_zero (Nat.ne_of_gt hbound)
    obtain ⟨ended, hended, halike, -⟩ := loadEntries_nil h bound loaded
    exact ⟨ended, loaded, hended, List.forall_mem_nil _, fun id _ ↦ halike.standing id⟩
  | cons row rest ih =>
    obtain ⟨bound, rfl⟩ := Nat.exists_eq_succ_of_ne_zero (Nat.ne_of_gt (Nat.zero_lt_of_lt hbound))
    obtain ⟨hnot, -⟩ | ⟨details, continued, count, htaken, hbrings, hended⟩ := loadEntries_cons h bound loaded
    · exact absurd hall hnot
    · obtain ⟨hrest, hstanding⟩ := hreceives.takesIn htaken
      obtain ⟨ended, loaded', hloaded, hregistered, hothers⟩ :=
        ih hbrings hrest (List.forall_mem_cons.mp hall).2 (Nat.succ_lt_succ_iff.mp hbound) count
      have hrow : Database.rowId row = details.id := by
        rw [Database.rowId, (hreceives.fits row List.mem_cons_self details htaken.read).1]
        rfl
      refine ⟨ended, loaded', hended.trans hloaded, ?_, fun id hid ↦ ?_⟩
      · rw [List.forall_mem_cons]
        refine ⟨fun given hgiven ↦ ?_, hregistered⟩
        obtain rfl : details = given := Option.some.inj (htaken.read.symm.trans hgiven)
        rw [hothers _ (hrow ▸ (List.nodup_cons.mp hreceives.distinct).1), hstanding, if_pos rfl]
      · rw [List.map_cons, List.mem_cons, not_or] at hid
        rw [hothers id hid.2, hstanding, if_neg fun hsame ↦ hid.1 (hrow.trans hsame).symm]

/-! ## Whole loads -/

/-- A load over a hosted table opens an iterator that has yet to give every row, and closes it in the end. -/
theorem exists_load_eq (htable : world.manager.table = some number) (h : world.Hosts number hosted) :
    ∃ opened iterator bound, opened.manager = world.manager ∧
      opened.Brings number iterator (Database.sortedRows hosted.database.rows) ∧
      (Database.sortedRows hosted.database.rows).length < bound ∧
      world.load.1 = (loadEntries bound opened ⟨number, iterator, 0⟩).1.closeIterator number iterator := by
  let opened : World := { world with tables := world.tables.set number (.ofStore (.hosted hosted.iterate.1)) }
  have hiterate : world.iterate number = (opened, .ok hosted.iterate.2) := by
    unfold World.iterate
    simp only [h.table]
    rfl
  have hat : opened.tables[number]? = some (.ofStore (.hosted hosted.iterate.1)) :=
    List.getElem?_set_self (List.getElem?_eq_some_iff.mp h.table).1
  have hleft : opened.entriesLeft number hosted.iterate.2 = hosted.database.rows.length := by
    have hheld : hosted.iterate.1.iterators[hosted.iterate.2]? = some ⟨0, [], false, false⟩ :=
      List.getElem?_concat_length
    have hgiven : hosted.iterate.1.database.givenRows = [] := congrArg (List.flatMap _) h.answers
    unfold entriesLeft
    rw [hat, Option.map_some, Option.getD_some, Table.entriesLeft]
    simp only [Table.ofStore, hheld, hgiven]
    simp [HostedTable.iterate]
  refine ⟨opened, hosted.iterate.2, opened.entriesLeft number hosted.iterate.2 + 1, rfl,
    ⟨hosted.iterate.1, ⟨hat, h.answers, h.pageSize⟩, hosted.brings_iterate⟩, ?_, ?_⟩
  · rw [hleft, Database.sortedRows, List.length_mergeSort]
    exact Nat.lt_succ_self _
  · unfold load
    rw [htable]
    simp only [hiterate]

/-- A load over a hosted table comes to its end without a failure exactly when it gets past every row. -/
theorem load_untroubled_iff (htable : world.manager.table = some number) (h : world.Hosts number hosted) :
    world.load.1.manager.cluster.hasError ClusterContext.loadFailed = false ↔
      ∀ row ∈ hosted.database.rows, row.IsLoadable := by
  obtain ⟨opened, iterator, bound, -, hbrings, hbound, hload⟩ := exists_load_eq htable h
  rw [hload, (alike_closeIterator _ number iterator).2, loadEntries_untroubled_iff hbrings hbound]
  exact forall_congr' fun row ↦ imp_congr_left List.mem_mergeSort

/-- Over an empty memory, a load that gets past every row registers them all. -/
theorem load_registers {depth : Nat} (hempty : world.manager.HasEmptyMemory)
    (htable : world.manager.table = some number) (h : world.Hosts number hosted)
    (hdistinct : (hosted.database.rows.map Database.rowId).Nodup)
    (hfits : ∀ row ∈ hosted.database.rows, row.FitsDepth depth)
    (hall : ∀ row ∈ hosted.database.rows, row.IsLoadable) {row : Value} (hrow : row ∈ hosted.database.rows)
    {details : Details} (hread : (row.member "details").bind StoredDetails.read? = some details) :
    world.load.1.manager.standing details.id = some (Standing.renewed none details) := by
  obtain ⟨opened, iterator, bound, hopened, hbrings, hbound, hload⟩ := exists_load_eq htable h
  have hnone (id : String) : opened.manager.standing id = none := by
    rw [hopened, Manager.standing, hempty.registry]
    rfl
  have hmem {other : Value} : other ∈ Database.sortedRows hosted.database.rows ↔ other ∈ hosted.database.rows :=
    List.mem_mergeSort
  have hreceives : Receives opened.manager depth (Database.sortedRows hosted.database.rows) :=
    { sound := hopened ▸ hempty.sound
      level := fun id standing hstanding ↦ by simp [hnone] at hstanding
      fits := fun other hother ↦ hfits other (hmem.mp hother)
      distinct := ((List.mergeSort_perm _ _).map _).nodup_iff.mpr hdistinct
      absent := fun _ _ ↦ hnone _ }
  obtain ⟨ended, count, hended, hregistered, -⟩ :=
    loadEntries_registers hbrings hreceives (fun other hother ↦ hall other (hmem.mp hother)) hbound 0
  rw [hload, hended, (ended.alike_closeIterator number iterator).1.standing]
  exact hregistered row (hmem.mpr hrow) details hread

end World

end ClusterMembership
