import ClusterMembership.Proofs.FailedWrite
import ClusterMembership.Proofs.TableListing
import ClusterMembership.Proofs.Waiting

/-!
# The load at the start

A fresh service takes in the rows of its table one after another.  The first row fixes the depth, and every other row
is registered exactly when its location has as many segments; a row that is refused changes nothing for the rows
behind it.  `Manager.HasLoaded` is what holds between two rows, and the run over all rows is an induction on those
that are still to come.
-/

namespace ClusterMembership

namespace Details

/-- The entry of a row that is kept under the identifier in its details. -/
def entry (details : Details) : TableEntry := ⟨details.id, some details.toValue⟩

/-- The number of segments of the location that details are kept with. -/
def segmentCount (details : Details) : Nat := (Location.segments details.located.location.toList).length

def loadedRecord (details : Details) (layout : LayoutReport) (now : Instant) : NodeRecord where
  details := details.located
  status := ⟨details.operational, .healthy, details.expiry⟩
  lastHeartbeat := now
  layout := layout
  storage := .empty
  registeredAt := now
  updatedAt := now

theorem registered_located (details : Details) (layout : LayoutReport) (now : Instant) :
    NodeRecord.registered details.located layout now = details.loadedRecord layout now := by
  have hstate : details.located.operational = details.operational := details.get_located (by decide)
  have hexpiry : details.located.expiry = details.expiry := details.get_located (by decide)
  unfold NodeRecord.registered loadedRecord
  rw [hstate, hexpiry]

/-- The number of segments of the first of several locations. -/
def firstCount (stored : List Details) : Nat := (stored.head?.map segmentCount).getD 0

/-- Those of several details whose locations have as many segments as the first. -/
def fitting (stored : List Details) : List Details :=
  stored.filter fun details ↦ details.segmentCount = firstCount stored

theorem sublist_append_cons (registered rest : List Details) (details : Details) (fits : Bool) :
    ((if fits then registered ++ [details] else registered) ++ rest).Sublist (registered ++ details :: rest) := by
  cases fits with
  | true => simp
  | false => exact (List.sublist_cons_self details rest).append_left registered

theorem append_filter_cons (registered rest : List Details) (details : Details) (fits : Details → Bool) :
    registered ++ (details :: rest).filter fits =
      (if fits details then registered ++ [details] else registered) ++ rest.filter fits := by
  cases hfits : fits details <;> simp [hfits]

/-- While rows are taken in, those that are registered have a common number of segments, and the first row has it as
long as there are none. -/
structure AtLevel (registered pending : List Details) (level : Nat) : Prop where
  placed : ∀ details ∈ registered, details.segmentCount = level
  first : registered = [] → ∀ first ∈ pending.head?, first.segmentCount = level

/-- Whether the last of several details is not among those that fit, if there are any. -/
theorem lastRefused_eq_true_iff (stored : List Details) :
    (stored.getLast?.map fun details ↦ decide (details.segmentCount ≠ firstCount stored)).getD false = true ↔
      ∃ last ∈ stored.getLast?, last ∉ fitting stored := by
  cases hlast : stored.getLast? with
  | none => simp
  | some last =>
    have hmem : last ∈ stored := List.mem_of_getLast? hlast
    simp [fitting, hmem]

theorem atLevel_firstCount (stored : List Details) : AtLevel [] stored (firstCount stored) where
  placed := List.forall_mem_nil _
  first := by
    intro _ first hfirst
    unfold firstCount
    rw [Option.mem_def.mp hfirst]
    rfl

namespace AtLevel

variable {registered rest : List Details} {details : Details} {level : Nat}

theorem fits_iff (h : AtLevel registered (details :: rest) level) : decide (details.segmentCount = level) = true ↔
    ∀ other ∈ registered, other.segmentCount = details.segmentCount := by
  rw [decide_eq_true_iff]
  constructor
  · exact fun hsame other hother ↦ (h.placed other hother).trans hsame.symm
  · intro hall
    cases registered with
    | nil => exact h.first rfl details rfl
    | cons other others => exact (hall other List.mem_cons_self).symm.trans (h.placed other List.mem_cons_self)

theorem next (h : AtLevel registered (details :: rest) level) :
    AtLevel (if decide (details.segmentCount = level) then registered ++ [details] else registered) rest level := by
  by_cases hsame : details.segmentCount = level
  · rw [if_pos (decide_eq_true hsame)]
    refine ⟨fun other hother ↦ ?_, fun hnone ↦ absurd hnone (List.append_ne_nil_of_right_ne_nil _ (by simp))⟩
    rcases List.mem_append.mp hother with hmem | hmem
    · exact h.placed other hmem
    · exact List.mem_singleton.mp hmem ▸ hsame
  · rw [if_neg fun htrue ↦ hsame (of_decide_eq_true htrue)]
    exact ⟨h.placed, fun hnone ↦ absurd (h.first hnone details rfl) hsame⟩

end AtLevel

end Details

namespace ClusterContext

/-- Whether the last registration was refused can be read off the condition of the cluster. -/
structure Tells (context : ClusterContext) (refused : Bool) : Prop where
  code : context.hasError invalidTopology = refused
  healthy : context.healthy = !refused

theorem tells_accepted (context : ClusterContext) :
    ((context.setHealthy true).removeError invalidTopology).Tells false :=
  ⟨hasError_removeError _ _, rfl⟩

theorem tells_refused (context : ClusterContext) :
    ((context.setHealthy false).addError invalidTopology).Tells true where
  code := hasError_addError _ _
  healthy := by
    unfold addError
    split <;> rfl

/-- The code of a failed load is another one. -/
theorem Tells.removeError {context : ClusterContext} {refused : Bool} (h : context.Tells refused) :
    (context.removeError loadFailed).Tells refused where
  code := by
    rw [← h.code]
    unfold hasError ClusterContext.removeError
    simp [List.contains_eq_mem, List.mem_filter, show invalidTopology ≠ loadFailed by decide]
  healthy := h.healthy

end ClusterContext

namespace Manager

/-- A manager as it is made: nothing in memory, and nothing wrong with the cluster. -/
structure IsFresh (manager : Manager) : Prop where
  memory : manager.HasEmptyMemory
  healthy : manager.cluster.healthy = true
  errors : manager.cluster.errors = []

/-- What a load has made of a manager so far: the records of the registered rows in the order of the rows, and no
commands. -/
structure HasLoaded (manager start : Manager) (registered : List Details) : Prop where
  sound : manager.Sound
  registry : manager.registry.records.entries = registered.map fun details ↦
    (details.id, details.loadedRecord start.layout.pinned start.clock)
  commands : manager.commands = start.commands
  layout : manager.layout = start.layout
  clock : manager.clock = start.clock

variable {manager start : Manager} {registered : List Details}

theorem IsFresh.hasLoaded (h : manager.IsFresh) : manager.HasLoaded manager [] where
  sound := h.memory.sound
  registry := by
    rw [h.memory.registry]
    rfl
  commands := rfl
  layout := rfl
  clock := rfl

theorem IsFresh.tells (h : manager.IsFresh) : manager.cluster.Tells false where
  code := by
    unfold ClusterContext.hasError
    rw [h.errors]
    rfl
  healthy := h.healthy

theorem HasLoaded.alike (h : manager.HasLoaded start registered) {after : Manager} (halike : manager.Alike after)
    (hclock : after.clock = manager.clock) : after.HasLoaded start registered where
  sound := h.sound.alike halike
  registry := by rw [halike.registry, h.registry]
  commands := halike.commands.trans h.commands
  layout := (congrArg Settings.layout halike.settings).trans h.layout
  clock := hclock.trans h.clock

theorem HasLoaded.relog (h : manager.HasLoaded start registered) (entries : List LogEntry) :
    (manager.relog entries).HasLoaded start registered :=
  h.alike ⟨rfl, rfl⟩ rfl

theorem HasLoaded.get?_eq_some_iff (h : manager.HasLoaded start registered) {id : String} {record : NodeRecord} :
    manager.registry.get? id = some record ↔ ∃ details ∈ registered,
      details.id = id ∧ details.loadedRecord start.layout.pinned start.clock = record := by
  rw [Registry.get?, OrderedMap.get?_eq_some_iff, h.registry, List.mem_map]
  simp only [Prod.mk.injEq]

theorem HasLoaded.get?_eq_none (h : manager.HasLoaded start registered) {id : String}
    (hnew : id ∉ registered.map Details.id) : manager.registry.get? id = none := by
  cases hrecord : manager.registry.get? id with
  | none => rfl
  | some record =>
    obtain ⟨details, hmem, hid, -⟩ := h.get?_eq_some_iff.mp hrecord
    exact absurd (hid ▸ List.mem_map_of_mem hmem) hnew

theorem HasLoaded.location?_eq_some_iff (h : manager.HasLoaded start registered) {id location : String} :
    manager.topology.location? id = some location ↔
      ∃ details ∈ registered, details.id = id ∧ details.located.location = location := by
  rw [h.sound.placed, standing, Option.map_map, Option.map_eq_some_iff]
  constructor
  · rintro ⟨record, hrecord, rfl⟩
    obtain ⟨details, hmem, hid, rfl⟩ := h.get?_eq_some_iff.mp hrecord
    exact ⟨details, hmem, hid, rfl⟩
  · rintro ⟨details, hmem, hid, rfl⟩
    exact ⟨_, h.get?_eq_some_iff.mpr ⟨details, hmem, hid, rfl⟩, rfl⟩

/-- A row fits when its location has as many segments as those of all rows that are registered. -/
theorem HasLoaded.fits_iff (h : manager.HasLoaded start registered) {details : Details} (hdetails : details.Admissible)
    (hnew : details.id ∉ registered.map Details.id) :
    manager.topology.Fits details.id details.located.location ↔
      ∀ other ∈ registered, other.segmentCount = details.segmentCount := by
  constructor
  · intro hfits other hmem
    refine hfits.level (fun hsame ↦ ?_) (h.location?_eq_some_iff.mpr ⟨other, hmem, rfl, rfl⟩)
    exact hnew (hsame ▸ List.mem_map_of_mem hmem)
  · intro hlevel
    have hformed := hdetails.kept_located.isWellFormed_location
    refine ⟨Location.isAbsolute_iff.mp (Location.isAbsolute_of_isWellFormed hformed),
      List.length_pos_iff.mpr (Location.segments_ne_nil_of_isWellFormed hformed), fun {other there} _ hthere ↦ ?_⟩
    obtain ⟨placed, hmem, -, rfl⟩ := h.location?_eq_some_iff.mp hthere
    exact hlevel placed hmem

/-! ## Registering a row -/

/-- A registration with the layout of the service itself and without reports queues nothing. -/
theorem exists_completeRegistration_pinned (manager : Manager) {placed : PlacedRegistration}
    (hreport : placed.request.nodeReport = none) (hlayout : placed.layout = manager.layout.pinned) :
    ∃ trace acknowledgement, manager.completeRegistration placed =
        ({ manager with
            cluster := (manager.cluster.setHealthy true).removeError ClusterContext.invalidTopology
            trace }, .ok acknowledgement) ∧ acknowledgement.permitted = true := by
  obtain ⟨entries, hqueued⟩ :=
    manager.exists_queueFinalize_eq placed.request.details.id placed.stored placed.layout placed.now
  have hnone : manager.finalizing placed.request.details.id placed.layout placed.now = manager.commands := by
    rw [finalizing, hlayout, Layout.commandFor_pinned]
  unfold completeRegistration noteUsage
  simp only [hreport, hqueued, hnone]
  obtain ⟨trace, hannounced⟩ := exists_announce_eq _ placed
  rw [hannounced]
  exact ⟨_, _, rfl, rfl⟩

/-- A new datanode is placed where it fits, behind all others. -/
theorem Sound.exists_placing_of_fits (hsound : manager.Sound) {request : RegistrationRequest}
    (hkept : request.details.Kept) (habsent : manager.registry.get? request.details.id = none)
    (hfits : manager.topology.Fits request.details.id request.details.location) :
    ∃ inPlace, manager.placing request = (inPlace, none) ∧
      inPlace.registry = manager.registry.upsert
        (.registered request.details (request.layout.getD manager.layout.report) manager.clock) ∧
      inPlace.commands = manager.commands ∧ inPlace.layout = manager.layout ∧ inPlace.clock = manager.clock := by
  have hcontains := (Registry.contains_eq_false_iff _ _).mpr habsent
  have hnone : (manager.placing request).2 = none := (hsound.placing_snd_eq_none_iff hkept).mpr hfits
  unfold Manager.placing Manager.place at hnone ⊢
  simp only [hcontains] at hnone ⊢
  cases hadd : manager.topology.add request.details.id request.details.location with
  | error refusal => simp [hadd] at hnone
  | ok topology => exact ⟨_, rfl, rfl, rfl, rfl, rfl⟩

/-- A new datanode that does not fit is refused, and only the index of known datanodes has changed. -/
theorem Sound.exists_placing_of_not_fits (hsound : manager.Sound) {request : RegistrationRequest}
    (hkept : request.details.Kept) (habsent : manager.registry.get? request.details.id = none)
    (hfits : ¬ manager.topology.Fits request.details.id request.details.location) :
    ∃ refusal, manager.placing request =
      ({ manager with known := manager.known.record request.details }, some refusal) := by
  have hcontains := (Registry.contains_eq_false_iff _ _).mpr habsent
  have hsome : (manager.placing request).2 ≠ none := fun hnone ↦
    hfits ((hsound.placing_snd_eq_none_iff hkept).mp hnone)
  unfold Manager.placing Manager.place at hsome ⊢
  simp only [hcontains] at hsome ⊢
  cases hadd : manager.topology.add request.details.id request.details.location with
  | error refusal => exact ⟨refusal, rfl⟩
  | ok topology => simp [hadd] at hsome

end Manager

/-- A service that was just made is as fresh as can be. -/
theorem Service.isFresh_make (settings : ServiceSettings) (configuration : Configuration) :
    (Service.make settings configuration).manager.IsFresh := by
  have hcluster : (Service.make settings configuration).manager.cluster =
      (Service.managerFor settings configuration).cluster := by
    unfold Service.make Manager.startMonitoring
    simp only
    split
    · split <;> rfl
    · rfl
  exact ⟨Service.hasEmptyMemory_make _ _, congrArg ClusterContext.healthy hcluster,
    congrArg ClusterContext.errors hcluster⟩

namespace World

variable {world : World} {start : Manager} {registered : List Details} {details : Details}

/-- What became of a row: the datanode is registered behind the others, or refused, and the answer says which. -/
structure TakesRow (world : World) (start : Manager) (registered : List Details) (details : Details) (fits : Bool)
    (after : World) (acknowledgement : Acknowledgement) : Prop where
  permitted : acknowledgement.permitted = fits
  tables : after.tables = world.tables
  loaded : after.manager.HasLoaded start (if fits then registered ++ [details] else registered)
  tells : after.manager.cluster.Tells !fits

/-- A row that fits is registered behind the others. -/
theorem exists_run_stored_of_fits (h : world.manager.HasLoaded start registered) (hdetails : details.Admissible)
    (hnew : details.id ∉ registered.map Details.id)
    (hfits : ∀ other ∈ registered, other.segmentCount = details.segmentCount) :
    ∃ after acknowledgement, world.run (.register (world.manager.storedRegistration details.located)) =
        (after, .ok (.acknowledged acknowledgement)) ∧
      world.TakesRow start registered details true after acknowledgement := by
  let request := world.manager.storedRegistration details.located
  have hkept : request.details.Kept := hdetails.kept_located
  have hid : request.details.id = details.id := details.id_located
  have habsent := h.get?_eq_none hnew
  have hplace : world.manager.topology.Fits request.details.id request.details.location :=
    hid ▸ (h.fits_iff hdetails hnew).mpr hfits
  obtain ⟨inPlace, hplacing, hregistry, hcommands, hlayout, hclock⟩ :=
    h.sound.exists_placing_of_fits hkept (hid ▸ habsent) hplace
  have hpinned : (world.manager.placedBy inPlace request).layout = inPlace.layout.pinned :=
    congrArg Layout.pinned hlayout.symm
  obtain ⟨trace, acknowledgement, hcompleted, hpermitted⟩ := inPlace.exists_completeRegistration_pinned rfl hpinned
  have hrun := run_register_unwritten hplacing rfl
  rw [hcompleted] at hrun
  have hsound := sound_run_register h.sound request hkept
  rw [hrun] at hsound
  refine ⟨_, acknowledgement, hrun, hpermitted, rfl,
    ⟨hsound, ?_, hcommands.trans h.commands, hlayout.trans h.layout, hclock.trans h.clock⟩,
    ClusterContext.tells_accepted _⟩
  change inPlace.registry.records.entries = _
  have hrecord : NodeRecord.registered request.details (request.layout.getD world.manager.layout.report)
      world.manager.clock = details.loadedRecord start.layout.pinned start.clock :=
    (congrArg₂ (NodeRecord.registered details.located) (congrArg Layout.pinned h.layout) h.clock).trans
      (details.registered_located _ _)
  rw [hregistry, hrecord]
  change Association.put details.located.id _ world.manager.registry.records.entries = _
  rw [details.id_located, Association.put_of_find?_eq_none habsent, h.registry, if_pos rfl, List.map_append]
  rfl

/-- A row that does not fit is refused, and nothing of it is registered. -/
theorem exists_run_stored_of_not_fits (h : world.manager.HasLoaded start registered) (hdetails : details.Admissible)
    (hnew : details.id ∉ registered.map Details.id)
    (hfits : ¬ ∀ other ∈ registered, other.segmentCount = details.segmentCount) :
    ∃ after acknowledgement, world.run (.register (world.manager.storedRegistration details.located)) =
        (after, .ok (.acknowledged acknowledgement)) ∧
      world.TakesRow start registered details false after acknowledgement := by
  let request := world.manager.storedRegistration details.located
  have hkept : request.details.Kept := hdetails.kept_located
  have hid : request.details.id = details.id := details.id_located
  have habsent := h.get?_eq_none hnew
  have hplace : ¬ world.manager.topology.Fits request.details.id request.details.location := fun hplace ↦
    hfits ((h.fits_iff hdetails hnew).mp (hid ▸ hplace))
  obtain ⟨refusal, hplacing⟩ := h.sound.exists_placing_of_not_fits hkept (hid ▸ habsent) hplace
  have hrun := run_register_refused hplacing
  have hsound := sound_run_register h.sound request hkept
  rw [hrun] at hsound
  exact ⟨_, _, hrun, rfl, rfl, ⟨hsound, h.registry, h.commands, h.layout, h.clock⟩, ClusterContext.tells_refused _⟩

theorem exists_run_stored (h : world.manager.HasLoaded start registered) (hdetails : details.Admissible)
    (hnew : details.id ∉ registered.map Details.id) {fits : Bool}
    (hfits : fits = true ↔ ∀ other ∈ registered, other.segmentCount = details.segmentCount) :
    ∃ after acknowledgement, world.run (.register (world.manager.storedRegistration details.located)) =
        (after, .ok (.acknowledged acknowledgement)) ∧
      world.TakesRow start registered details fits after acknowledgement := by
  cases fits with
  | true => exact exists_run_stored_of_fits h hdetails hnew (hfits.mp rfl)
  | false => exact exists_run_stored_of_not_fits h hdetails hnew fun hall ↦ Bool.false_ne_true (hfits.mpr hall)

/-! ## Row after row -/

variable {number iterator : Nat} {table : Table}

/-- A load takes a row in and goes on with the next. -/
theorem exists_loadEntries_cons (htable : world.tables[number]? = some table) {entries : List TableEntry}
    (hgives : table.Gives world.clock iterator (details.entry :: entries))
    (h : world.manager.HasLoaded start registered) (hdetails : details.Admissible)
    (hnew : details.id ∉ registered.map Details.id) {fits : Bool}
    (hfits : fits = true ↔ ∀ other ∈ registered, other.segmentCount = details.segmentCount) (bound loaded : Nat) :
    ∃ continued, loadEntries (bound + 1) world ⟨number, iterator, loaded⟩ =
        loadEntries bound continued ⟨number, iterator, if fits then loaded + 1 else loaded⟩ ∧
      continued.tables = world.tables.set number (table.perform world.clock (.next iterator)).1 ∧
      continued.manager.HasLoaded start (if fits then registered ++ [details] else registered) ∧
      continued.manager.cluster.Tells !fits := by
  have hperform : table.perform world.clock (.next iterator) =
      ((table.perform world.clock (.next iterator)).1, (table.perform world.clock (.next iterator)).2.1,
        .ok (some details.entry)) := Prod.ext rfl (Prod.ext rfl hgives.1)
  obtain ⟨log, hask⟩ := world.exists_ask_eq htable hperform
  generalize hasked : ({ world.withManager (world.manager.relog log) with
    tables := world.tables.set number (table.perform world.clock (.next iterator)).1 } : World) = asked at hask
  have hready : asked.manager.HasLoaded start registered := hasked ▸ h.relog log
  obtain ⟨after, acknowledgement, hrun, htaken⟩ := exists_run_stored hready hdetails hnew hfits
  have hentry : asked.manager.takeEntry loaded (.ok (some details.entry)) =
      (asked.manager, .register details.id (.register (asked.manager.storedRegistration details.located))) := by
    unfold Manager.takeEntry
    simp only [Details.entry, Manager.screen_of_admissible _ hdetails]
  obtain ⟨noted, halike, hclock, hcluster, hcounted⟩ : ∃ noted, after.manager.Alike noted ∧
      noted.clock = after.manager.clock ∧ noted.cluster = after.manager.cluster ∧
      after.manager.takeRegistered details.id loaded (.ok (.acknowledged acknowledgement)) =
        (noted, some (if fits then loaded + 1 else loaded)) := by
    unfold Manager.takeRegistered
    simp only [htaken.permitted]
    exact ⟨_, after.manager.alike_note _, rfl, rfl, rfl⟩
  refine ⟨after.withManager noted, ?_, ?_, htaken.loaded.alike halike hclock, ?_⟩
  · have hself : asked.withManager asked.manager = asked := rfl
    rw [loadEntries]
    simp only [hask, hentry, hself, hrun, hcounted]
  · exact htaken.tables.trans (hasked ▸ rfl)
  · change noted.cluster.Tells _
    exact hcluster ▸ htaken.tells

/-- Behind the last row a load ends. -/
theorem exists_loadEntries_nil (htable : world.tables[number]? = some table)
    (hgives : table.Gives world.clock iterator []) (h : world.manager.HasLoaded start registered)
    {refused : Bool} (htells : world.manager.cluster.Tells refused) (bound loaded : Nat) :
    ∃ ended, loadEntries (bound + 1) world ⟨number, iterator, loaded⟩ = (ended, loaded) ∧
      ended.tables = world.tables.set number (table.perform world.clock (.next iterator)).1 ∧
      ended.manager.HasLoaded start registered ∧ ended.manager.cluster.Tells refused ∧
      ended.manager.cluster.hasError ClusterContext.loadFailed = false := by
  have hperform : table.perform world.clock (.next iterator) =
      ((table.perform world.clock (.next iterator)).1, (table.perform world.clock (.next iterator)).2.1,
        .ok none) := Prod.ext rfl (Prod.ext rfl hgives)
  obtain ⟨log, hask⟩ := world.exists_ask_eq htable hperform
  unfold loadEntries
  simp only [hask]
  have halike : world.manager.Alike ((world.manager.relog log).loadEnded loaded) := ⟨rfl, rfl⟩
  exact ⟨_, rfl, rfl, h.alike halike rfl, htells.removeError, ClusterContext.hasError_removeError _ _⟩

/-- All rows are taken in one after another: those that fit are registered, and the last one decides what the cluster
tells. -/
theorem exists_loadEntries_eq {pending : List Details} {level : Nat} (htable : world.tables[number]? = some table)
    (hgives : table.Gives world.clock iterator (pending.map Details.entry))
    (h : world.manager.HasLoaded start registered) (hadmissible : ∀ details ∈ pending, details.Admissible)
    (hdistinct : ((registered ++ pending).map Details.id).Nodup) (hlevel : Details.AtLevel registered pending level)
    {refused : Bool} (htells : world.manager.cluster.Tells refused) {bound : Nat} (hbound : pending.length < bound)
    (loaded : Nat) :
    ∃ ended, loadEntries bound world ⟨number, iterator, loaded⟩ =
        (ended, loaded + (pending.filter fun details ↦ details.segmentCount = level).length) ∧
      ended.tables = world.tables.set number
        (table.called (List.replicate (pending.length + 1) (world.clock, .request (.next iterator)))) ∧
      ended.manager.HasLoaded start (registered ++ pending.filter fun details ↦ details.segmentCount = level) ∧
      ended.manager.cluster.Tells
        ((pending.getLast?.map fun details ↦ decide (details.segmentCount ≠ level)).getD refused) ∧
      ended.manager.cluster.hasError ClusterContext.loadFailed = false := by
  induction pending generalizing world table registered refused bound loaded with
  | nil =>
    obtain ⟨bound, rfl⟩ := Nat.exists_eq_succ_of_ne_zero (Nat.ne_of_gt hbound)
    obtain ⟨ended, hended, htables, hloaded, htold, hcode⟩ := exists_loadEntries_nil htable hgives h htells bound loaded
    exact ⟨ended, hended, htables, (List.append_nil registered).symm ▸ hloaded, htold, hcode⟩
  | cons details rest ih =>
    obtain ⟨bound, rfl⟩ := Nat.exists_eq_succ_of_ne_zero (Nat.ne_of_gt (Nat.zero_lt_of_lt hbound))
    obtain ⟨hdetails, hrest⟩ := List.forall_mem_cons.mp hadmissible
    have hnew : details.id ∉ registered.map Details.id := by
      rw [List.map_append, List.nodup_append] at hdistinct
      exact fun hmem ↦ hdistinct.2.2 _ hmem _ List.mem_cons_self rfl
    obtain ⟨continued, hcontinued, htables, hloaded, htold⟩ :=
      exists_loadEntries_cons htable hgives h hdetails hnew hlevel.fits_iff bound loaded
    have hclock : continued.clock = world.clock := hloaded.clock.trans h.clock.symm
    have htable' : continued.tables[number]? = some (table.perform world.clock (.next iterator)).1 := by
      rw [htables]
      exact List.getElem?_set_self (List.getElem?_eq_some_iff.mp htable).1
    have hgives' : (table.perform world.clock (.next iterator)).1.Gives continued.clock iterator
        (rest.map Details.entry) := by
      rw [hclock]
      exact And.right hgives
    have hdistinct' := hdistinct.sublist <|
      (Details.sublist_append_cons registered rest details (decide (details.segmentCount = level))).map Details.id
    obtain ⟨ended, hended, htables', hloaded', htold', hcode⟩ :=
      ih htable' hgives' hloaded hrest hdistinct' hlevel.next htold (Nat.lt_of_succ_lt_succ hbound)
        (if decide (details.segmentCount = level) then loaded + 1 else loaded)
    refine ⟨ended, ?_, ?_, ?_, ?_, hcode⟩
    · rw [hcontinued, hended, List.filter_cons]
      split
      · rw [List.length_cons, Nat.succ_add_eq_add_succ]
      · rfl
    · rw [htables', htables, List.set_set, hclock]
      rfl
    · rw [Details.append_filter_cons]
      exact hloaded'
    · rw [List.getLast?_cons]
      cases hlast : rest.getLast? with
      | none => simpa [hlast] using htold'
      | some last => simpa [hlast] using htold'

/-! ## The load as a whole -/

/-- The calls with which a load of so many rows reads a table: it opens an iterator, asks it until nothing more comes,
and closes it. -/
def readingCalls (now : Instant) (iterator rows : Nat) : List (Instant × TableCall) :=
  (now, .iterate) :: List.replicate (rows + 1) (now, .request (.next iterator)) ++ [(now, .request (.close iterator))]

/-- Closing an iterator changes nothing but its table and the log. -/
theorem exists_closeIterator_eq (htable : world.tables[number]? = some table) (iterator : Nat) :
    ∃ log, world.closeIterator number iterator =
      { world.withManager (world.manager.relog log) with
        tables := world.tables.set number (table.call world.clock (.request (.close iterator))).1 } := by
  rcases hperform : table.perform world.clock (.close iterator) with ⟨after, page, answer⟩
  obtain ⟨log, hask⟩ := world.exists_ask_eq htable hperform
  have hcall : (table.call world.clock (.request (.close iterator))).1 = after := congrArg Prod.fst hperform
  unfold closeIterator
  rw [hask, hcall]
  cases answer with
  | ok entry => exact ⟨log, rfl⟩
  | error failure => exact ⟨_, rfl⟩

variable {stored : List Details} {opened : Table}

theorem iterate_of_lists (htable : world.tables[number]? = some table) {entries : List TableEntry}
    (hlists : table.Lists world.clock entries opened iterator) :
    world.iterate number = ({ world with tables := world.tables.set number opened }, .ok iterator) := by
  unfold iterate
  rw [htable]
  simp only [hlists.opens]

/-- The bound on the entries to load is no bound on the rows that a table lists. -/
theorem length_lt_entriesLeft (hopened : world.tables[number]? = some opened) {now : Instant}
    (hlists : table.Lists now (stored.map Details.entry) opened iterator) :
    stored.length < world.entriesLeft number iterator + 1 := by
  have hleft : world.entriesLeft number iterator = opened.entriesLeft iterator := by
    unfold entriesLeft
    rw [hopened]
    rfl
  have hbounded := hlists.bounded
  rw [List.length_map, ← hleft] at hbounded
  exact Nat.lt_succ_of_le hbounded

/-- A load from its first call to its last. -/
theorem exists_load_of_lists (hfresh : world.manager.IsFresh) (huses : world.manager.table = some number)
    (htable : world.tables[number]? = some table)
    (hlists : table.Lists world.clock (stored.map Details.entry) opened iterator)
    (hadmissible : ∀ details ∈ stored, details.Admissible) (hdistinct : (stored.map Details.id).Nodup) :
    ∃ loaded, world.load = (loaded, .ok (.count (Details.fitting stored).length)) ∧
      loaded.tables = world.tables.set number (table.called (readingCalls world.clock iterator stored.length)) ∧
      loaded.manager.HasLoaded world.manager (Details.fitting stored) ∧
      loaded.manager.cluster.Tells
        ((stored.getLast?.map fun details ↦ decide (details.segmentCount ≠ Details.firstCount stored)).getD false) ∧
      loaded.manager.cluster.hasError ClusterContext.loadFailed = false := by
  let reading : World := { world with tables := world.tables.set number opened }
  have hopen : world.iterate number = (reading, .ok iterator) := iterate_of_lists htable hlists
  have hopened : reading.tables[number]? = some opened :=
    List.getElem?_set_self (List.getElem?_eq_some_iff.mp htable).1
  have hloaded : reading.manager.HasLoaded world.manager [] := hfresh.hasLoaded
  obtain ⟨ended, hended, htables, hregistered, htold, hcode⟩ :=
    exists_loadEntries_eq hopened hlists.gives hloaded hadmissible hdistinct (Details.atLevel_firstCount stored)
      hfresh.tells (length_lt_entriesLeft hopened hlists) 0
  have hread : ended.tables[number]? = some (opened.called
      (List.replicate (stored.length + 1) (reading.clock, .request (.next iterator)))) := by
    rw [htables]
    exact List.getElem?_set_self (List.getElem?_eq_some_iff.mp hopened).1
  obtain ⟨log, hclose⟩ := exists_closeIterator_eq hread iterator
  refine ⟨ended.closeIterator number iterator, ?_, ?_, ?_, ?_, ?_⟩
  · unfold load
    rw [huses]
    simp only [hopen, hended, Nat.zero_add]
    rfl
  · have hnow : ended.clock = world.clock := hregistered.clock
    have hiterated : table.iterate.1 = opened := congrArg Prod.fst hlists.opens
    rw [hclose, htables, hnow, List.set_set, List.set_set, Table.called, Table.called, readingCalls,
      List.foldl_append, List.foldl_cons]
    exact hiterated ▸ rfl
  · exact hclose ▸ hregistered.relog log
  · exact hclose ▸ htold
  · exact hclose ▸ hcode

/-- A fresh service registers exactly those rows of its table that have as many segments as the first one, in the order
of the rows and as they are stored, each with the software version of the service as both versions of its layout.  It
only reads the table, queues no command, and tells in the end whether the last row was refused. -/
theorem load_registers_fitting (hfresh : world.manager.IsFresh) (huses : world.manager.table = some number)
    (htable : world.tables[number]? = some table) (hreadable : table.IsReadable)
    (hstored : table.Stores (stored.map Details.entry)) (hadmissible : ∀ details ∈ stored, details.Admissible) :
    let software := world.manager.layout.software
    ∃ loaded, world.load = (loaded, .ok (.count (Details.fitting stored).length)) ∧
      loaded.manager.registry.records.entries = (Details.fitting stored).map (fun details ↦
        (details.id, details.loadedRecord { software := software, metadata := software } world.clock)) ∧
      loaded.manager.commands = .empty ∧
      (∃ iterator, table.iterate.2 = .ok iterator ∧ loaded.tables =
        world.tables.set number (table.called (readingCalls world.clock iterator stored.length))) ∧
      loaded.manager.cluster.hasError ClusterContext.loadFailed = false ∧
      (loaded.manager.cluster.hasError ClusterContext.invalidTopology = true ↔
        ∃ last ∈ stored.getLast?, last ∉ Details.fitting stored) ∧
      (loaded.manager.cluster.healthy = false ↔ ∃ last ∈ stored.getLast?, last ∉ Details.fitting stored) := by
  intro software
  obtain ⟨opened, iterator, hlists⟩ := hstored.exists_lists hreadable world.clock
  have hdistinct : (stored.map Details.id).Nodup := by
    have hids := hstored.nodup
    rw [List.map_map] at hids
    exact hids
  obtain ⟨loaded, hload, htables, hloaded, htold, hcode⟩ :=
    exists_load_of_lists hfresh huses htable hlists hadmissible hdistinct
  refine ⟨loaded, hload, hloaded.registry, hloaded.commands.trans hfresh.memory.commands,
    ⟨iterator, congrArg Prod.snd hlists.opens, htables⟩, hcode, ?_, ?_⟩
  · rw [htold.code]
    exact Details.lastRefused_eq_true_iff stored
  · rw [htold.healthy, Bool.not_eq_false']
    exact Details.lastRefused_eq_true_iff stored

/-- Three rows; the second does not fit the first. -/
def sampleRows : List Details :=
  let row (id location : String) : Details := ⟨(Details.sample location).members.set "uuid" (.text id)⟩
  [row "0c7f1d3a-52a4-4d6e-8b1f-9e5a6c2d7b80" "/row1/rack1", .sample "/rack1",
    row "9d4e8c11-7f02-4b6a-8c35-1e2f3a4b5c6d" "/row2/rack1"]

/-- The row that does not fit is left out, and the one behind it is registered all the same. -/
theorem load_registers_around_refused :
    let table := Table.ofStore (.memory (.create (sampleRows.map Details.entry)))
    let world : World := ⟨Service.make { table := some 0, clock := 0 } .default, [table]⟩
    world.manager.IsFresh ∧ table.IsReadable ∧ table.Stores (sampleRows.map Details.entry) ∧
      (∀ details ∈ sampleRows, details.Admissible) ∧
      ∃ loaded, world.load = (loaded, .ok (.count 2)) ∧
        loaded.manager.registry.records.entries.map Prod.fst = (sampleRows.eraseIdx 1).map Details.id ∧
        loaded.manager.cluster.healthy = true := by
  intro table world
  have hfresh : world.manager.IsFresh := Service.isFresh_make _ _
  have hreadable : table.IsReadable := List.forall_mem_nil _
  have hsorted : (MemoryTable.create (sampleRows.map Details.entry)).sortedRows = sampleRows.map Details.entry := by
    refine List.mergeSort_of_pairwise ?_
    decide +kernel
  have hstored : table.Stores (sampleRows.map Details.entry) := .memory rfl hsorted
  have hadmissible : ∀ details ∈ sampleRows, details.Admissible := by
    have hflawless : ∀ details ∈ sampleRows, Validation.check (some details.toValue) = .ok [] := by decide +kernel
    have hlisted : ∀ details ∈ sampleRows, details.ports = some (.list []) := by decide +kernel
    exact fun details hmem ↦ ⟨hflawless details hmem, [], hlisted details hmem⟩
  obtain ⟨loaded, hload, hregistry, -, -, -, -, hhealthy⟩ :=
    load_registers_fitting hfresh rfl rfl hreadable hstored hadmissible
  have hfitting : Details.fitting sampleRows = sampleRows.eraseIdx 1 := by decide +kernel
  refine ⟨hfresh, hreadable, hstored, hadmissible, loaded, ?_, ?_, ?_⟩
  · rw [hload, hfitting]
    rfl
  · rw [hregistry, hfitting]
    rfl
  · refine Bool.eq_true_of_not_eq_false fun hunhealthy ↦ ?_
    obtain ⟨last, hlast, hrefused⟩ := hhealthy.mp hunhealthy
    obtain rfl : _ = last := Option.some.inj hlast
    exact hrefused (hfitting ▸ List.mem_cons_of_mem _ List.mem_cons_self)

end World

end ClusterMembership
