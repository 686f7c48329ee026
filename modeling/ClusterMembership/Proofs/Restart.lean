import ClusterMembership.Proofs.Durability

/-!
# Restarts

A service that was just started loads its node table row by row, in the order of the identifiers.  Each row has to
pass the admission again, and each location has to fit the topology that has grown so far.  The locations always
fit, since they come from a topology of one depth.  The admission, however, also checks the operational state and its
expiry, and a change of these is written without such a check.  So a restart brings back everything exactly
when every registered datanode has a valid operational state, and otherwise it stops at the first that has not.
-/

namespace ClusterMembership

namespace MemoryTable

theorem nodup_sortedRows (table : MemoryTable) : (table.sortedRows.map TableEntry.id).Nodup := by
  have hperm := (List.mergeSort_perm (table.rows.entries.map fun row ↦ TableEntry.mk row.1 row.2)
    fun a b ↦ Text.atMost a.id b.id).map TableEntry.id
  rw [List.map_map] at hperm
  exact hperm.nodup_iff.mpr table.rows.distinct

theorem length_sortedRows (table : MemoryTable) : table.sortedRows.length = table.rows.size := by
  unfold sortedRows
  rw [List.length_mergeSort, List.length_map]
  rfl

end MemoryTable

namespace Manager

/-- Every registered datanode has an operational state with which it could register. -/
def HasValidStates (manager : Manager) : Prop :=
  ∀ id standing, manager.standing id = some standing →
    Validation.StateValid standing.operational standing.expiry

theorem Mirrored.size_eq {manager : Manager} {rows : OrderedMap Field} (h : manager.Mirrored rows)
    (hsynced : manager.unsynced = []) : rows.size = manager.registry.size := by
  apply OrderedMap.size_eq_of_contains_iff
  intro id
  rw [OrderedMap.contains_iff]
  constructor
  · rintro ⟨field, hfield⟩
    exact h.registered hfield
  · intro hcontains
    obtain ⟨record, hrecord⟩ := (Registry.contains_iff _ _).mp hcontains
    exact ⟨_, h.synced (standing_eq_some hrecord) (hsynced ▸ List.not_mem_nil)⟩

/-- A manager that has in part what another holds: the entries that are pending are those that it lacks. -/
structure Restoring (manager target : Manager) (pending : List TableEntry) : Prop where
  sound : manager.Sound
  standing : ∀ id, manager.standing id =
    if id ∈ pending.map TableEntry.id then none else target.standing id
  distinct : (pending.map TableEntry.id).Nodup
  stored : ∀ entry ∈ pending, ∃ standing, target.standing entry.id = some standing ∧
    entry.details = some standing.details.toValue

variable {manager target : Manager} {pending : List TableEntry} {entry : TableEntry}

theorem Restoring.alike (h : manager.Restoring target pending) {after : Manager}
    (halike : manager.Alike after) : after.Restoring target pending where
  sound := h.sound.alike halike
  standing id := (halike.standing id).trans (h.standing id)
  distinct := h.distinct
  stored := h.stored

theorem HasValidStates.of_standing (h : manager.HasValidStates) {after : Manager}
    (hsame : ∀ id, after.standing id = manager.standing id) : after.HasValidStates := by
  intro id standing hstanding
  exact h id standing ((hsame id).symm.trans hstanding)

/-- A datanode that registers validly keeps its valid operational state or comes with one. -/
theorem HasValidStates.renews (h : manager.HasValidStates) {after : Manager} {details : Details}
    (hstate : Validation.StateValid details.operational details.expiry)
    (hrenews : manager.Renews after details.id (Standing.renewed (manager.standing details.id) details)) :
    after.HasValidStates := by
  intro id standing hstanding
  rw [hrenews.standing] at hstanding
  split at hstanding
  · rw [← Option.some.inj hstanding]
    cases hprevious : manager.standing details.id with
    | none => exact hstate
    | some previous => exact h details.id previous hprevious
  · exact h id standing hstanding

/-- A location of the other manager fits the locations that were taken over from it so far. -/
theorem Restoring.admits (h : manager.Restoring target pending) (htarget : target.Sound)
    {id : String} {standing : Standing} (hstanding : target.standing id = some standing) :
    manager.topology.Admits standing.details.location := by
  have hformed := (htarget.records hstanding).kept.isWellFormed_location
  have hplaced : target.topology.location? id = some standing.details.location := by
    rw [htarget.placed, hstanding, Option.map_some]
  refine ⟨Location.isAbsolute_of_isWellFormed hformed,
    Location.segments_ne_nil_of_isWellFormed hformed, fun {other there} hother ↦ ?_⟩
  have hthere : target.topology.location? other = some there := by
    rw [h.sound.placed, h.standing] at hother
    rw [htarget.placed]
    split at hother
    · simp at hother
    · exact hother
  exact htarget.topology.level hthere hplaced

/-- Once the first of the pending entries stands as in the other manager, it is no longer pending. -/
theorem Restoring.advance (h : manager.Restoring target (entry :: pending)) {after : Manager}
    (hsound : after.Sound) {standing : Standing} (hstanding : target.standing entry.id = some standing)
    (hafter : ∀ other, after.standing other =
      if entry.id = other then some standing else manager.standing other) :
    after.Restoring target pending := by
  have hdistinct : entry.id ∉ pending.map TableEntry.id ∧ (pending.map TableEntry.id).Nodup :=
    List.nodup_cons.mp h.distinct
  refine ⟨hsound, fun other ↦ ?_, hdistinct.2, fun other hmem ↦
    h.stored other (List.mem_cons_of_mem entry hmem)⟩
  rw [hafter]
  by_cases hid : entry.id = other
  · rw [if_pos hid, ← hid, if_neg hdistinct.1, hstanding]
  · rw [if_neg hid, h.standing]
    simp only [List.map_cons, List.mem_cons, Ne.symm hid, false_or]

/-- A new datanode can be placed where the topology admits it. -/
theorem exists_placing_eq (hsound : manager.Sound) (request : RegistrationRequest)
    (hkept : request.details.Kept) (habsent : manager.standing request.details.id = none)
    (hadmits : manager.topology.Admits request.details.location) :
    ∃ inPlace, manager.placing request = (inPlace, none) := by
  have hcontains : manager.registry.contains request.details.id = false := by
    rw [contains_eq_isSome_standing, habsent]
    rfl
  have hlocation : manager.topology.location? request.details.id = none := by
    rw [hsound.placed, habsent, Option.map_none]
  have hadd := Topology.exists_add_eq_ok_iff hsound.topology hlocation request.details.location
  rw [hkept.meant_location] at hadd
  obtain ⟨topology, htopology⟩ := hadd.mpr hadmits
  unfold placing place
  simp only [hcontains, htopology]
  exact ⟨_, rfl⟩

theorem cluster_noteAll (manager : Manager) (notes : List Note) :
    (manager.noteAll notes).cluster = manager.cluster := by
  obtain ⟨entries, hnoted⟩ := manager.exists_noteAll_eq notes
  rw [hnoted]

/-- A placed registration without a node report is acknowledged. -/
theorem exists_completeRegistration_eq (manager : Manager) (placed : PlacedRegistration)
    (hreport : placed.request.nodeReport = none) :
    ∃ settled acknowledgement, manager.completeRegistration placed = (settled, .ok acknowledgement) ∧
      acknowledgement.permitted = true := by
  unfold completeRegistration noteUsage
  simp only [hreport]
  exact ⟨_, _, rfl, rfl⟩

end Manager

namespace World

variable {world : World} {target : Manager} {pending : List TableEntry} {entry : TableEntry}

/-- A stored datanode that is not registered yet is registered where the topology admits it. -/
theorem run_stored (hsound : world.manager.Sound) {details : Details} (hkept : details.Kept)
    (habsent : world.manager.standing details.id = none)
    (hadmits : world.manager.topology.Admits details.location) :
    ∃ registered acknowledgement,
      world.run (.register (world.manager.storedRegistration details)) =
        (registered, .ok (.acknowledged acknowledgement)) ∧
      acknowledgement.permitted = true ∧ registered.tables = world.tables ∧ registered.manager.Sound ∧
      ∀ other, registered.manager.standing other =
        if details.id = other then some (Standing.renewed none details) else world.manager.standing other := by
  let request := world.manager.storedRegistration details
  obtain ⟨inPlace, hplacing⟩ := Manager.exists_placing_eq hsound request hkept habsent hadmits
  obtain ⟨hinPlace, hregistered⟩ := hsound.placing hkept hplacing
  obtain ⟨settled, acknowledgement, hcompleted, hpermitted⟩ :=
    inPlace.exists_completeRegistration_eq (world.manager.placedBy inPlace request) rfl
  have htended : inPlace.Tended settled := by
    have hkeeps : inPlace.Tended
        (inPlace.completeRegistration (world.manager.placedBy inPlace request)).1 :=
      inPlace.tended_completeRegistration hinPlace.keyed hregistered
    rwa [hcompleted] at hkeeps
  have hrun : world.run (.register request) =
      (world.withManager settled, .ok (.acknowledged acknowledgement)) := by
    rw [run_register_unwritten hplacing rfl, hcompleted]
    rfl
  refine ⟨world.withManager settled, acknowledgement, hrun, hpermitted, rfl, hinPlace.tended htended, fun other ↦ ?_⟩
  refine (htended.standing other).trans ?_
  rw [(Manager.renews_of_placing hsound.keyed hplacing).standing other,
    show request.details = details from rfl, habsent]

/-- A row that is pending is registered, and from then on the datanode stands as in the other manager. -/
theorem restore_entry (h : world.manager.Restoring target (entry :: pending)) (htarget : target.Sound)
    (hvalid : target.HasValidStates) :
    ∃ details registered acknowledgement,
      world.manager.screen entry.details = (world.manager, .ok details) ∧
      world.run (.register (world.manager.storedRegistration details)) =
        (registered, .ok (.acknowledged acknowledgement)) ∧
      acknowledgement.permitted = true ∧ registered.tables = world.tables ∧
      registered.manager.Restoring target pending := by
  obtain ⟨standing, hstanding, hdetails⟩ := h.stored entry List.mem_cons_self
  have hrecord := htarget.records hstanding
  have hsame : Standing.renewed none standing.details = standing := by
    unfold Standing.renewed
    rw [hrecord.operational, hrecord.expiry]
  have hstate : Validation.StateValid standing.details.operational standing.details.expiry := by
    rw [hrecord.operational, hrecord.expiry]
    exact hvalid entry.id standing hstanding
  have habsent : world.manager.standing standing.details.id = none := by
    rw [hrecord.identified, h.standing, List.map_cons, if_pos List.mem_cons_self]
  obtain ⟨registered, acknowledgement, hrun, hpermitted, htables, hsound, hstandings⟩ :=
    run_stored h.sound hrecord.kept habsent (h.admits htarget hstanding)
  refine ⟨standing.details, registered, acknowledgement, ?_, hrun, hpermitted, htables, ?_⟩
  · rw [hdetails]
    exact world.manager.screen_toValue hrecord.kept hstate
  · apply h.advance hsound hstanding
    intro other
    rw [hstandings, hsame, hrecord.identified]

/-! ## Reading the rows back -/

/-- An open iterator over a table in memory without faults, with the entries that it has yet to give. -/
def Reads (world : World) (number iterator : Nat) (pending : List TableEntry) : Prop :=
  ∃ memory, world.Holds number memory [] ∧ memory.iterators[iterator]? = some ⟨pending, false⟩

theorem Reads.next {number iterator : Nat} (h : world.Reads number iterator pending) :
    ∃ asked, world.ask number (.next iterator) = (asked, .ok pending.head?) ∧
      asked.Reads number iterator pending.tail := by
  obtain ⟨memory, hholds, hiterator⟩ := h
  cases hask : world.ask number (.next iterator) with
  | mk asked answer =>
    obtain ⟨rest, after, hheld, -, hrest, -⟩ := hholds.ask_next hask
    obtain ⟨rfl, hnext⟩ := hrest rfl
    cases pending with
    | nil =>
      have hanswer : memory.next iterator = (memory, .ok none) := by simp [MemoryTable.next, hiterator]
      obtain ⟨rfl, rfl⟩ := Prod.mk.inj (hanswer.symm.trans hnext)
      exact ⟨asked, rfl, memory, hheld, hiterator⟩
    | cons entry pending =>
      have hanswer : memory.next iterator =
          (memory.setIterator iterator ⟨pending, false⟩, .ok (some entry)) := by
        simp [MemoryTable.next, hiterator]
      obtain ⟨rfl, rfl⟩ := Prod.mk.inj (hanswer.symm.trans hnext)
      have hlength : iterator < memory.iterators.length := (List.getElem?_eq_some_iff.mp hiterator).1
      exact ⟨asked, rfl, _, hheld, by simp [MemoryTable.setIterator, hlength]⟩

/-- The load of what is pending comes to its end, counts every entry and clears the code of a failed load. -/
theorem loadEntries_restores {number iterator : Nat} (hreads : world.Reads number iterator pending)
    (h : world.manager.Restoring target pending) (htarget : target.Sound) (hvalid : target.HasValidStates)
    {bound : Nat} (hbound : pending.length < bound) (loaded : Nat) :
    ∃ ended, loadEntries bound world ⟨number, iterator, loaded⟩ = (ended, loaded + pending.length) ∧
      ended.manager.Restoring target [] ∧
      ended.manager.cluster.hasError ClusterContext.loadFailed = false := by
  induction pending generalizing world bound loaded with
  | nil =>
    obtain ⟨bound, rfl⟩ := Nat.exists_eq_succ_of_ne_zero (Nat.ne_of_gt hbound)
    obtain ⟨asked, hask, -⟩ := hreads.next
    have halike := (world.alike_ask number (.next iterator)).trans
      (Manager.noted_loadEnded _ loaded).alike
    rw [hask] at halike
    unfold loadEntries
    simp only [hask]
    refine ⟨asked.withManager (asked.manager.loadEnded loaded), rfl, h.alike halike, ?_⟩
    exact asked.manager.cluster.hasError_removeError ClusterContext.loadFailed
  | cons entry pending ih =>
    obtain ⟨bound, rfl⟩ := Nat.exists_eq_succ_of_ne_zero (Nat.ne_of_gt (Nat.zero_lt_of_lt hbound))
    obtain ⟨asked, hask, hrest⟩ := hreads.next
    have halike := world.alike_ask number (.next iterator)
    rw [hask] at halike
    obtain ⟨details, registered, acknowledgement, hscreen, hrun, hpermitted, htables, hrestoring⟩ :=
      restore_entry (h.alike halike) htarget hvalid
    have htaken : asked.manager.takeEntry loaded (.ok (some entry)) =
        (asked.manager, .register entry.id (.register (asked.manager.storedRegistration details))) := by
      unfold Manager.takeEntry
      simp only [hscreen]
    obtain ⟨counted, hcounted, hcount⟩ : ∃ counted, registered.manager.Alike counted ∧
        registered.manager.takeRegistered entry.id loaded (.ok (.acknowledged acknowledgement)) =
          (counted, some (loaded + 1)) := by
      unfold Manager.takeRegistered
      simp only [hpermitted]
      exact ⟨_, Manager.alike_note _ _, rfl⟩
    have hreads : (registered.withManager counted).Reads number iterator pending := by
      obtain ⟨memory, hholds, hiterator⟩ := hrest
      refine ⟨memory, ?_, hiterator⟩
      unfold Holds at hholds ⊢
      rw [← hholds, ← htables]
      rfl
    have hbound' : pending.length < bound := Nat.succ_lt_succ_iff.mp hbound
    obtain ⟨ended, hended, hrestored, hcluster⟩ :=
      ih hreads (hrestoring.alike hcounted) hbound' (loaded + 1)
    have hself : asked.withManager asked.manager = asked := rfl
    refine ⟨ended, ?_, hrestored, hcluster⟩
    unfold loadEntries
    simp only [hask, List.head?_cons, htaken, hself, hrun, hcount, hended, List.length_cons]
    rw [Nat.add_right_comm, Nat.add_assoc]

theorem cluster_ask (world : World) (number : Nat) (request : TableRequest) :
    (world.ask number request).1.manager.cluster = world.manager.cluster := by
  unfold ask
  split
  · rfl
  · exact world.manager.cluster_noteAll _

/-- Closing an iterator changes nothing that counts and sets no code. -/
theorem alike_closeIterator (world : World) (number iterator : Nat) :
    world.manager.Alike (world.closeIterator number iterator).manager ∧
      (world.closeIterator number iterator).manager.cluster = world.manager.cluster := by
  have hasked := world.alike_ask number (.close iterator)
  have hcluster := world.cluster_ask number (.close iterator)
  unfold closeIterator
  cases hask : world.ask number (.close iterator) with
  | mk asked answer =>
    rw [hask] at hasked hcluster
    refine ⟨hasked.trans (asked.manager.noted_takeClosed answer).alike, Eq.trans ?_ hcluster⟩
    cases answer <;> rfl

/-- What a service has after it was started afresh over the tables of a world and has loaded its own. -/
def restart (world : World) (fresh : Service) : World × Outcome :=
  ({ world with service := fresh } : World).load

/-- A restart brought back every datanode and no other, each with its details, its operational state, its expiry
and its location, and it ended without a failure. -/
structure Restores (world : World) (restarted : World × Outcome) : Prop where
  registered : ∀ id, restarted.1.manager.registry.contains id = world.manager.registry.contains id
  standing : ∀ id, restarted.1.manager.standing id = world.manager.standing id
  placed : ∀ id, restarted.1.manager.topology.location? id = world.manager.topology.location? id
  counted : restarted.2 = .ok (.count world.manager.registry.size)
  untroubled : restarted.1.manager.cluster.hasError ClusterContext.loadFailed = false

/-- The rows of a table that mirrors a registry are all pending when nothing was loaded yet. -/
theorem restoring_sortedRows {fresh : Manager} (hempty : fresh.HasEmptyMemory)
    (hsynced : target.unsynced = []) {memory : MemoryTable} (hmirrored : target.Mirrored memory.rows) :
    fresh.Restoring target memory.sortedRows where
  sound := hempty.sound
  standing id := by
    have hnone : fresh.standing id = none := by
      rw [Manager.standing, hempty.registry]
      rfl
    rw [hnone]
    split
    · rfl
    · next hrow =>
      cases hstanding : target.standing id with
      | none => rfl
      | some standing =>
        have hrecorded := hmirrored.synced hstanding (hsynced ▸ List.not_mem_nil)
        have hmem := (memory.mem_sortedRows_iff ⟨id, some standing.details.toValue⟩).mpr hrecorded
        exact absurd (List.mem_map_of_mem hmem) hrow
  distinct := memory.nodup_sortedRows
  stored entry hmem := by
    have hrow := (memory.mem_sortedRows_iff entry).mp hmem
    obtain ⟨standing, hstanding⟩ := hmirrored.exists_standing hrow
    have hrecorded := hmirrored.synced hstanding (hsynced ▸ List.not_mem_nil)
    exact ⟨standing, hstanding, Option.some.inj (hrow.symm.trans hrecorded)⟩

/-- A load over a table that mirrors a registry with valid operational states brings the registry back. -/
theorem load_restores {number : Nat} (hempty : world.manager.HasEmptyMemory)
    (htable : world.manager.table = some number) (htarget : target.Sound) (hvalid : target.HasValidStates)
    (hsynced : target.unsynced = []) {memory : MemoryTable} (hholds : world.Holds number memory [])
    (hmirrored : target.Mirrored memory.rows) :
    world.load.1.manager.Restoring target [] ∧ world.load.2 = .ok (.count memory.rows.size) ∧
      world.load.1.manager.cluster.hasError ClusterContext.loadFailed = false := by
  cases hopen : world.iterate number with
  | mk opened outcome =>
    obtain ⟨hmanager, -, rest, after, hheld, -, hrest, hcases⟩ := hholds.iterate_cases hopen
    obtain rfl := hrest rfl
    rcases hcases with ⟨iterator, rfl, -, hiterator⟩ | ⟨hfaults, -⟩
    · have hreads : opened.Reads number iterator memory.sortedRows := ⟨after, hheld, hiterator⟩
      have hrestoring : opened.manager.Restoring target memory.sortedRows :=
        hmanager.symm ▸ restoring_sortedRows hempty hsynced hmirrored
      have hleft : opened.entriesLeft number iterator = memory.sortedRows.length := by
        unfold entriesLeft
        rw [show opened.tables[number]? = some ⟨.memory after, []⟩ from hheld]
        simp [Table.entriesLeft, hiterator]
      have hbound : memory.sortedRows.length < opened.entriesLeft number iterator + 1 :=
        hleft ▸ Nat.lt_succ_self _
      obtain ⟨ended, hended, hrestored, hcluster⟩ :=
        loadEntries_restores hreads hrestoring htarget hvalid hbound 0
      obtain ⟨hclosed, hkept⟩ := ended.alike_closeIterator number iterator
      have hload : world.load =
          (ended.closeIterator number iterator, .ok (.count memory.rows.size)) := by
        unfold load
        rw [htable]
        simp only [hopen, hended, Nat.zero_add, memory.length_sortedRows]
      rw [hload]
      exact ⟨hrestored.alike hclosed, rfl, hkept ▸ hcluster⟩
    · exact absurd rfl hfaults

/-! ## Valid operational states -/

/-- A registration leaves no datanode with an operational state that would have been refused. -/
theorem hasValidStates_run_register (hsound : world.manager.Sound) (hvalid : world.manager.HasValidStates)
    {request : RegistrationRequest} (hkept : request.details.Kept)
    (hstate : Validation.StateValid request.details.operational request.details.expiry) :
    (world.run (.register request)).1.manager.HasValidStates := by
  rcases standing_run_register hsound hkept with hleft | ⟨inPlace, hplacing, hplaced⟩
  · exact hvalid.of_standing hleft
  · have hrenewed := hvalid.renews hstate (Manager.renews_of_placing hsound.keyed hplacing)
    exact hrenewed.of_standing hplaced

theorem hasValidStates_runStateChange (hkeyed : world.manager.Keyed) (hvalid : world.manager.HasValidStates)
    {changed : String} {state expiry : Field}
    (hstate : Validation.StateValid state (Registry.expiryOrNever expiry)) (reply : Reply) :
    (world.runStateChange changed
      (world.manager.beginStateChange changed state expiry reply)).1.manager.HasValidStates := by
  intro id standing hstanding
  rw [standing_runStateChange hkeyed] at hstanding
  split at hstanding
  · obtain ⟨previous, -, rfl⟩ := Option.map_eq_some_iff.mp hstanding
    exact hstate
  · exact hvalid id standing hstanding

theorem hasValidStates_run_remove (hvalid : world.manager.HasValidStates) (removed : String) :
    (world.run (.remove removed)).1.manager.HasValidStates := by
  rcases world.standing_run_remove removed with hleft | hforgotten
  · exact hvalid.of_standing hleft
  · intro id standing hstanding
    rw [hforgotten] at hstanding
    split at hstanding
    · simp at hstanding
    · exact hvalid id standing hstanding

/-- So does a load, however far it comes. -/
theorem hasValidStates_load (hsound : world.manager.Sound) (hvalid : world.manager.HasValidStates) :
    world.load.1.manager.HasValidStates := by
  have hloaded : world.load.1.manager.Sound ∧ world.load.1.manager.HasValidStates := by
    apply load_induction (P := fun world ↦ world.manager.Sound ∧ world.manager.HasValidStates) _ _ _ _
      ⟨hsound, hvalid⟩
    · intro world number request hready
      have halike := world.alike_ask number request
      exact ⟨hready.1.alike halike, hready.2.of_standing halike.standing⟩
    · intro world after hready hnoted
      exact ⟨hready.1.alike hnoted.alike, hready.2.of_standing hnoted.alike.standing⟩
    · intro world field details hready hscreen
      obtain ⟨-, hkept, hstate⟩ := Manager.kept_of_screen hscreen
      exact ⟨sound_run_register hready.1 _ hkept, hasValidStates_run_register hready.1 hready.2 hkept hstate⟩
    · intro world number hready
      rwa [manager_iterate]
  exact hloaded.2

/-! ## Restarts after a run -/

/-- A table that no call has failed brings a registry with valid operational states back. -/
theorem Mirrors.restores {number : Nat} (h : world.Mirrors number .faultless)
    (hvalid : world.manager.HasValidStates) {fresh : Service} (hempty : fresh.manager.HasEmptyMemory)
    (htable : fresh.manager.table = some number) : Restores world (world.restart fresh) := by
  obtain ⟨memory, faults, hholds, ⟨rfl, hsynced⟩, hmirrored⟩ := h.mirrored
  let started : World := { world with service := fresh }
  have hstarts : started.manager.HasEmptyMemory := hempty
  obtain ⟨hrestored, hcounted, hcluster⟩ :=
    load_restores hstarts htable h.sound hvalid hsynced hholds hmirrored
  have hstanding (id : String) :
      (world.restart fresh).1.manager.standing id = world.manager.standing id := hrestored.standing id
  exact
    { registered := fun id ↦ by
        rw [Manager.contains_eq_isSome_standing, Manager.contains_eq_isSome_standing, hstanding]
      standing := hstanding
      placed := fun id ↦ by
        rw [h.sound.placed, ← hstanding]
        exact hrestored.sound.placed id
      counted := hmirrored.size_eq hsynced ▸ hcounted
      untroubled := hcluster }

theorem StartsOver.mirrors_faultless {number : Nat} (hstart : world.StartsOver number)
    (hfaultless : ∃ memory, world.Holds number memory []) : world.Mirrors number .faultless := by
  obtain ⟨start, hnone⟩ := hfaultless
  apply hstart.mirrors
  intro memory faults hholds
  exact ⟨(hholds.unique hnone).2, hstart.memory.unsynced⟩

/-- After every run of a primary over one table that starts without rows and of whose calls none fails, a service
that is started afresh over the table brings back everything, in whatever order the datanodes came, exactly when
every registered datanode has an operational state and an expiry with which it could register. -/
theorem restart_restores_iff (world : World) (number : Nat) (hstart : world.StartsOver number)
    (hfaultless : ∃ memory, world.Holds number memory []) (moves : List Move)
    (hmoves : ∀ move ∈ moves, move.KeepsTo number ∧ move.IsFaultless) (fresh : Service)
    (hempty : fresh.manager.HasEmptyMemory) (htable : fresh.manager.table = some number) :
    Restores (world.after moves) ((world.after moves).restart fresh) ↔
      ∀ id record, (world.after moves).manager.registry.get? id = some record →
        Validation.StateValid record.status.operational record.status.expiry := by
  have hmirrors : (world.after moves).Mirrors number .faultless :=
    (hstart.mirrors_faultless hfaultless).after (fun move hmem ↦ (hmoves move hmem).1)
      fun _ move hmem ↦ (hmoves move hmem).2
  constructor
  · intro hrestores id record hrecord
    have hnone : fresh.manager.HasValidStates := by
      intro id standing hstanding
      simp [Manager.standing, hempty.registry] at hstanding
    have hloaded : ((world.after moves).restart fresh).1.manager.HasValidStates :=
      hasValidStates_load hempty.sound hnone
    exact hloaded id record.standing
      ((hrestores.standing id).trans (Manager.standing_eq_some hrecord))
  · intro hvalid
    refine hmirrors.restores (fun id standing hstanding ↦ ?_) hempty htable
    obtain ⟨record, hrecord, rfl⟩ := Manager.exists_record_of_standing hstanding
    exact hvalid id record hrecord

end World

def Move.sampleChange (expiry : Rat) : Move :=
  .call (.operate (.setState (Details.sample "").id (some (.text OperationalState.inService.name))
    (some (.number (.finite expiry)))))

namespace World

/-- A datanode comes back with the expiry that it was given, and does not come back with one before the epoch. -/
theorem restart_restores_unless_negative_expiry :
    let world := initial .default
    let fresh := Service.make { table := some 0, clock := 0 } .default
    let lasting := [Move.sample "/rack1", Move.sampleChange 7]
    let lapsed := [Move.sample "/rack1", Move.sampleChange (-1)]
    world.StartsOver 0 ∧ (∃ memory, world.Holds 0 memory []) ∧ fresh.manager.HasEmptyMemory ∧
      fresh.manager.table = some 0 ∧
      Restores (world.after lasting) ((world.after lasting).restart fresh) ∧
      ¬Restores (world.after lapsed) ((world.after lapsed).restart fresh) := by
  intro world fresh lasting lapsed
  have hstart : world.StartsOver 0 := startsOver_initial .default
  have hfaultless : ∃ memory, world.Holds 0 memory [] := ⟨_, rfl⟩
  have hempty : fresh.manager.HasEmptyMemory := Service.hasEmptyMemory_make _ _
  have htable : fresh.manager.table = some 0 := rfl
  refine ⟨hstart, hfaultless, hempty, htable, ?_, fun hrestores ↦ ?_⟩
  · have hmoves : ∀ move ∈ lasting, move.KeepsTo 0 ∧ move.IsFaultless := by
      simp [lasting, Move.KeepsTo, Move.IsFaultless, Move.sample, Move.sampleChange]
    have hvalid : ∀ record ∈ (world.after lasting).manager.registry.records.values,
        Validation.StateValid record.status.operational record.status.expiry := by decide +kernel
    refine (restart_restores_iff world 0 hstart hfaultless lasting hmoves fresh hempty htable).mpr ?_
    intro id record hrecord
    exact hvalid record ((OrderedMap.mem_values_iff _ _).mpr ⟨id, hrecord⟩)
  · have hmoves : ∀ move ∈ lapsed, move.KeepsTo 0 ∧ move.IsFaultless := by
      simp [lapsed, Move.KeepsTo, Move.IsFaultless, Move.sample, Move.sampleChange]
    have hinvalid : ∃ record ∈ (world.after lapsed).manager.registry.records.values,
        ¬Validation.StateValid record.status.operational record.status.expiry := by decide +kernel
    obtain ⟨record, hmem, hstate⟩ := hinvalid
    obtain ⟨id, hrecord⟩ := (OrderedMap.mem_values_iff _ _).mp hmem
    apply hstate
    exact (restart_restores_iff world 0 hstart hfaultless lapsed hmoves fresh hempty htable).mp
      hrestores id record hrecord

end World

/-! ## Runs without invalid changes -/

/-- A move that sets no operational state with which a datanode could not register. -/
def Move.ChangesValidly : Move → Prop
  | .call (.operate (.setState _ state expiry)) | .call (.operate (.reconcile _ state expiry)) =>
    Validation.StateValid state (Registry.expiryOrNever expiry)
  | _ => True

namespace World

namespace Mirrors

variable {world : World} {number : Nat} {reliance : Reliance}

theorem hasValidStates_serve (h : world.Mirrors number reliance) (hvalid : world.manager.HasValidStates)
    {request : OperationRequest} (hchanges : (Move.call (.operate request)).ChangesValidly) :
    (world.serve request).1.manager.HasValidStates := by
  cases request with
  | register offered nodeReport pipelineReport layout =>
    obtain ⟨refused, failure, hnoted, hserved⟩ | ⟨details, hscreen, hkept, hserved⟩ :=
      world.serve_register_cases offered nodeReport pipelineReport layout
    · rw [hserved]
      exact hvalid.of_standing hnoted.alike.standing
    · rw [hserved]
      exact hasValidStates_run_register h.sound hvalid hkept (Manager.kept_of_screen hscreen).2.2
  | heartbeat offered report =>
    cases hdetails : Details.ofField offered with
    | error failure =>
      rw [serve_heartbeat_refused hdetails]
      exact hvalid
    | ok details =>
      rw [serve_heartbeat_admitted hdetails, World.run_heartbeat, h.primary.heartbeat_eq]
      exact hvalid.of_standing
        (world.manager.tended_heartbeat h.sound.keyed h.authority details report world.clock).standing
  | remove id => exact hasValidStates_run_remove hvalid id
  | setState id state expiry =>
    rw [serve_setState, World.run_setState]
    exact hasValidStates_runStateChange h.sound.keyed hvalid hchanges _
  | reconcile id state expiry =>
    rw [serve_reconcile, World.run_reconcile]
    rcases world.manager.beginReconcile_cases id state expiry with
      ⟨outcome, -, hbegin⟩ | ⟨noted, hlogged, hbegin⟩
    · rw [hbegin]
      exact hvalid
    · have hnoted : (world.withManager noted).manager.HasValidStates := hvalid.of_standing hlogged.alike.standing
      rw [hbegin]
      exact hasValidStates_runStateChange (h.alike hlogged.alike).sound.keyed hnoted hchanges _

theorem hasValidStates_move (h : world.Mirrors number reliance) (hvalid : world.manager.HasValidStates)
    {move : Move} (hchanges : move.ChangesValidly) : (world.move move).manager.HasValidStates := by
  cases move with
  | call call =>
    cases call with
    | operate request => exact h.hasValidStates_serve hvalid hchanges
    | queue id command =>
      unfold World.move World.call
      simp only
      split
      · next queued hqueued => exact hvalid.of_standing (Manager.tended_of_addCommand hqueued).standing
      · exact hvalid
    | take id command =>
      simp only [World.move, World.call, h.primary.onCommand_eq]
      exact hvalid.of_standing (world.manager.tended_onCommand id command).standing
    | purge id => exact hvalid.of_standing (world.manager.tended_purgeCommands id).standing
    | refreshUsage =>
      simp only [World.move, World.call, h.primary.refreshUsage_eq]
      exact hvalid.of_standing (world.manager.tended_refreshUsage h.sound.keyed).standing
    | sweep moment =>
      exact hvalid.of_standing (world.manager.tended_checkHeartbeats h.sound.keyed _).standing
    | load => exact hasValidStates_load h.sound hvalid
    | switch table =>
      have hswitched : (world.switchTable table).manager.Sound :=
        h.sound.of_stores (fun _ ↦ rfl) (fun _ ↦ rfl) (fun hknown ↦ hknown) .inl .inl .inl
      exact hasValidStates_load hswitched hvalid
  | tick now => exact hvalid
  | finalizeLayout => exact hvalid
  | spoil table faults => exact hvalid
  | exchange tables => exact hvalid

theorem hasValidStates_after (h : world.Mirrors number .faultless) (hvalid : world.manager.HasValidStates)
    {moves : List Move} (hmoves : ∀ move ∈ moves, move.KeepsTo number ∧ move.IsFaultless)
    (hchanges : ∀ move ∈ moves, move.ChangesValidly) : (world.after moves).manager.HasValidStates := by
  unfold World.after
  induction moves generalizing world with
  | nil => exact hvalid
  | cons move rest ih =>
    obtain ⟨hkeeps, hfaultless⟩ := hmoves move List.mem_cons_self
    have hmoved := h.hasValidStates_move hvalid (hchanges move List.mem_cons_self)
    apply ih (h.move hkeeps fun _ ↦ hfaultless) hmoved
    · exact fun other hmem ↦ hmoves other (List.mem_cons_of_mem move hmem)
    · exact fun other hmem ↦ hchanges other (List.mem_cons_of_mem move hmem)

end Mirrors

/-- A run that sets no invalid operational state is followed by a restart that brings everything back. -/
theorem restart_restores_of_valid_changes (world : World) (number : Nat) (hstart : world.StartsOver number)
    (hfaultless : ∃ memory, world.Holds number memory []) (moves : List Move)
    (hmoves : ∀ move ∈ moves, move.KeepsTo number ∧ move.IsFaultless)
    (hchanges : ∀ move ∈ moves, move.ChangesValidly) (fresh : Service)
    (hempty : fresh.manager.HasEmptyMemory) (htable : fresh.manager.table = some number) :
    Restores (world.after moves) ((world.after moves).restart fresh) := by
  have hstarted := hstart.mirrors_faultless hfaultless
  have hnone : world.manager.HasValidStates := by
    intro id standing hstanding
    simp [Manager.standing, hstart.memory.registry] at hstanding
  have hmirrors := hstarted.after (fun move hmem ↦ (hmoves move hmem).1)
    fun _ move hmem ↦ (hmoves move hmem).2
  exact hmirrors.restores (hstarted.hasValidStates_after hnone hmoves hchanges) hempty htable

end World

end ClusterMembership
