import ClusterMembership.Proofs.Logging
import ClusterMembership.Proofs.Removal
import ClusterMembership.Proofs.Restart
import ClusterMembership.Proofs.Serial

/-!
# Removed datanodes

A removal takes everything that the stores and the table in use hold of a datanode and nothing else, or it fails and
leaves all as it was.  A datanode that was not there before it was first registered is then as if it had never been
there: loads do not bring it back, and its heartbeats are answered with the command to register.
-/

namespace ClusterMembership

/-! ## What the stores hold of a datanode -/

/-- What the stores hold of a datanode. -/
structure Holding where
  record : Option NodeRecord
  location : Option String
  queued : Option (List QueuedCommand)
  counts : Option HeldCounts
  descriptor : Option Descriptor
  isUnsynced : Bool
  deriving DecidableEq

namespace Holding

/-- Nothing in any store. -/
def nothing : Holding := ⟨none, none, none, none, none, false⟩

end Holding

namespace Stores

def holding (stores : Stores) (id : String) : Holding where
  record := stores.registry.get? id
  location := stores.topology.location? id
  queued := stores.commands.queues.get? id
  counts := stores.commands.held.get? id
  descriptor := stores.known.peek id
  isUnsynced := stores.unsynced.contains id

variable {stores : Stores} {id : String}

/-- Stores without a datanode hold nothing of it, and of the others what they held. -/
theorem holding_without (stores : Stores) (id other : String) :
    (stores.without id).holding other = if id = other then .nothing else stores.holding other := by
  by_cases hsame : id = other
  · subst hsame
    simp [holding, without, Holding.nothing, Registry.get?_erase, Topology.location?, Topology.remove,
      CommandQueue.purge, KnownNodes.peek, KnownNodes.erase, OrderedMap.get?_erase]
  · simp [holding, without, hsame, Registry.get?_erase, Topology.location?, Topology.remove,
      CommandQueue.purge, KnownNodes.peek, KnownNodes.erase, OrderedMap.get?_erase, Ne.symm hsame]

/-- Of stores that hold nothing of a datanode nothing is left out. -/
theorem without_of_holding (h : stores.holding id = .nothing) : stores.without id = stores := by
  simp only [holding, Holding.nothing, Holding.mk.injEq, List.contains_eq_mem, decide_eq_false_iff_not] at h
  obtain ⟨hrecord, hlocation, hqueued, hcounts, hdescriptor, hunsynced⟩ := h
  have hsynced : (stores.unsynced.filter fun other ↦ other ≠ id) = stores.unsynced := by
    refine List.filter_eq_self.mpr fun other hother ↦ decide_eq_true ?_
    rintro rfl
    exact hunsynced hother
  unfold without Registry.erase CommandQueue.purge KnownNodes.erase Topology.remove
  rw [OrderedMap.erase_of_get?_eq_none hrecord, OrderedMap.erase_of_get?_eq_none hlocation,
    OrderedMap.erase_of_get?_eq_none hqueued, OrderedMap.erase_of_get?_eq_none hcounts,
    OrderedMap.erase_of_get?_eq_none hdescriptor, hsynced]

end Stores

namespace Manager

variable {manager : Manager} {id other : String}

theorem contains_eq_isSome_record (manager : Manager) (id : String) :
    manager.registry.contains id = (manager.stores.holding id).record.isSome := rfl

/-- What is the same without a datanode holds the same of any other. -/
theorem AlikeBut.holding {after : Manager} (h : manager.AlikeBut id after) (hne : other ≠ id) :
    after.stores.holding other = manager.stores.holding other := by
  have hsame := congrArg (fun stores ↦ Stores.holding stores other) h.stores
  simpa only [Stores.holding_without, if_neg hne.symm] using hsame

theorem noteAll_eq_relog (manager : Manager) (notes : List Note) :
    ∃ entries, manager.noteAll notes = manager.relog entries := manager.exists_noteAll_eq notes

end Manager

/-! ## Failures of a removal -/

/-- Whatever the table failed with, the failure of the operation is a persistence failure. -/
theorem Failure.name_wrapPersistence (failure : Failure) (operation : String) (key : Option String) :
    (failure.wrapPersistence operation key).name = "PersistenceError" := by
  unfold wrapPersistence
  simp only
  split
  · next error =>
    split
    · next hkind =>
      rw [ServiceError.name, hkind]
      rfl
    · rfl
  · rfl

namespace World

variable {world : World} {id : String}

/-- A request of a table changes nothing of a manager but the log. -/
theorem ask_eq_relog (world : World) (number : Nat) (request : TableRequest) :
    ∃ entries, (world.ask number request).1.manager = world.manager.relog entries := by
  unfold ask
  split
  · exact ⟨world.manager.trace.entries, rfl⟩
  · exact world.manager.noteAll_eq_relog _

/-! ## Removals -/

/-- Two worlds that differ in nothing but the log and what the tables keep beside their rows. -/
structure Untouched (before after : World) : Prop where
  manager : ∃ entries, after.manager = before.manager.relog entries
  observer : after.service.observer = before.service.observer
  rows : ∀ number, after.rowsOf number = before.rowsOf number

/-- A world from which a datanode was removed, and nothing else. -/
structure Removed (before : World) (id : String) (after : World) : Prop where
  gone : after.manager.stores.holding id = .nothing
  others : ∀ other ≠ id, after.manager.stores.holding other = before.manager.stores.holding other
  settings : after.manager.settings = before.manager.settings
  row : ∀ {number}, before.manager.table = some number → before.AnswersFromRows number →
    after.rowsOf number = Association.without id (before.rowsOf number)
  rows : ∀ {number}, before.manager.table ≠ some number → after.rowsOf number = before.rowsOf number
  events : after.manager.trace.events = before.manager.trace.events ++ [.removed id]

/-- How a removal ends: it is refused, it fails, or it takes away all that there is of the datanode. -/
structure RemovesWholly (world : World) (id : String) : Prop where
  /-- A datanode that is not registered is not found, and nothing changes. -/
  refused : world.manager.registry.contains id = false →
    (ServiceError.nodeNotFound id).name = "NodeError" ∧
      world.serve (.remove id) = (world, .error (.service (.nodeNotFound id)))
  /-- When the table does not delete the row, the failure is one of persistence, and nothing changes. -/
  failed : world.manager.registry.contains id = true → ∀ {number cause}, world.manager.table = some number →
    (world.ask number (.delete id)).2 = .error cause →
      ∃ failure : ServiceError, failure.name = "PersistenceError" ∧
        (world.serve (.remove id)).2 = .error (.service failure) ∧ world.Untouched (world.serve (.remove id)).1
  /-- When there is no table, or it deletes the row, the datanode is removed. -/
  removed : world.manager.registry.contains id = true →
    (∀ {number}, world.manager.table = some number → ∃ given, (world.ask number (.delete id)).2 = .ok given) →
      (world.serve (.remove id)).2 = .ok .nothing ∧ world.Removed id (world.serve (.remove id)).1

theorem removed_forget {asked : World} (hasked : ∃ entries, asked.manager = world.manager.relog entries)
    (hrow : ∀ {number}, world.manager.table = some number → world.AnswersFromRows number →
      asked.rowsOf number = Association.without id (world.rowsOf number))
    (hrows : ∀ {number}, world.manager.table ≠ some number → asked.rowsOf number = world.rowsOf number)
    {after : World} (hmanager : after.manager = asked.manager.forget id) (htables : after.tables = asked.tables) :
    world.Removed id after := by
  obtain ⟨entries, hentries⟩ := hasked
  have hstores : after.manager.stores = world.manager.stores.without id := by
    rw [hmanager, hentries]
    rfl
  have hkept (number : Nat) : after.rowsOf number = asked.rowsOf number := rowsOf_of_store? (store?_of_tables htables _)
  constructor
  · rw [hstores, Stores.holding_without, if_pos rfl]
  · intro other hother
    rw [hstores, Stores.holding_without, if_neg hother.symm]
  · rw [hmanager, hentries]
    rfl
  · exact fun htable hanswers ↦ (hkept _).trans (hrow htable hanswers)
  · exact fun hunused ↦ (hkept _).trans (hrows hunused)
  · rw [hmanager, hentries]
    rfl

/-- A removal fails with the table, and then nothing changes. -/
theorem serve_remove_undeleted {number : Nat} (hregistered : world.manager.registry.contains id = true)
    (htable : world.manager.table = some number) {cause : Failure}
    (hcause : (world.ask number (.delete id)).2 = .error cause) :
    (world.serve (.remove id)).2 = .error (.service (cause.wrapPersistence "delete" (some id))) ∧
      world.Untouched (world.serve (.remove id)).1 := by
  obtain ⟨entries, hentries⟩ := world.ask_eq_relog number (.delete id)
  have hrow := (world.rowsOf_ask_delete number id).1 cause hcause
  have hobserver := world.observer_ask number (.delete id)
  have hothers {other : Nat} (hother : other ≠ number) := world.store?_ask_of_ne hother (.delete id)
  cases hask : world.ask number (.delete id) with
  | mk asked answer =>
    rw [hask] at hentries hrow hobserver hothers
    obtain rfl : answer = .error cause := (congrArg Prod.snd hask).symm.trans hcause
    rw [serve_remove, run_remove_written hregistered htable hask]
    refine ⟨rfl, ⟨?_, hobserver, fun other ↦ ?_⟩⟩
    · let noted := (asked.finish (.removal id) (.error cause)).1.manager
      have hnoted : noted = asked.manager.relog noted.trace.entries := rfl
      rw [hentries] at hnoted
      exact ⟨_, hnoted⟩
    · by_cases hsame : other = number
      · exact hsame ▸ hrow
      · exact rowsOf_of_store? (hothers hsame)

/-- Once the table has deleted the row, the datanode is removed. -/
theorem serve_remove_deleted {number : Nat} (hregistered : world.manager.registry.contains id = true)
    (htable : world.manager.table = some number) {given : Option TableEntry}
    (hgiven : (world.ask number (.delete id)).2 = .ok given) :
    (world.serve (.remove id)).2 = .ok .nothing ∧ world.Removed id (world.serve (.remove id)).1 := by
  have hentries := world.ask_eq_relog number (.delete id)
  have hrow := (world.rowsOf_ask_delete number id).2
  have hothers {other : Nat} (hother : other ≠ number) := world.store?_ask_of_ne hother (.delete id)
  cases hask : world.ask number (.delete id) with
  | mk asked answer =>
    rw [hask] at hentries hrow hothers
    obtain rfl : answer = .ok given := (congrArg Prod.snd hask).symm.trans hgiven
    rw [serve_remove, run_remove_written hregistered htable hask]
    refine ⟨rfl, removed_forget hentries ?_ ?_ rfl rfl⟩
    · intro used hused hanswers
      obtain rfl : number = used := Option.some.inj (htable.symm.trans hused)
      exact hrow hanswers given rfl
    · intro other hother
      have hne : other ≠ number := fun hsame ↦ hother (hsame ▸ htable)
      exact rowsOf_of_store? (hothers hne)

/-- Where no table is in use a removal cannot fail. -/
theorem serve_remove_unwritten (hregistered : world.manager.registry.contains id = true)
    (htable : world.manager.table = none) :
    (world.serve (.remove id)).2 = .ok .nothing ∧ world.Removed id (world.serve (.remove id)).1 := by
  rw [serve_remove, run_remove_unwritten hregistered htable]
  refine ⟨rfl, removed_forget ⟨world.manager.trace.entries, rfl⟩ ?_ (fun _ ↦ rfl) rfl rfl⟩
  intro number hused
  rw [htable] at hused
  cases hused

/-- A removal takes away all that there is of a datanode, or nothing. -/
theorem removesWholly (world : World) (id : String) : world.RemovesWholly id where
  refused habsent := by
    rw [serve_remove, run_remove_of_absent habsent]
    exact ⟨rfl, rfl⟩
  failed hregistered _ cause htable hcause := by
    obtain ⟨hfailed, huntouched⟩ := serve_remove_undeleted hregistered htable hcause
    exact ⟨_, cause.name_wrapPersistence "delete" (some id), hfailed, huntouched⟩
  removed hregistered hdeletes := by
    cases htable : world.manager.table with
    | none => exact serve_remove_unwritten hregistered htable
    | some number =>
      obtain ⟨given, hgiven⟩ := hdeletes htable
      exact serve_remove_deleted hregistered htable hgiven

end World

/-! ## Datanodes that stay away -/

/-- Every request concerns some datanode. -/
theorem OperationRequest.exists_concerns (request : OperationRequest) : ∃ id, request.Concerns id := by
  cases request with
  | register offered _ _ _ | heartbeat offered _ =>
    cases hdetails : Details.ofField offered with
    | error failure => exact ⟨"", fun details hgiven ↦ absurd (hdetails.symm.trans hgiven) nofun⟩
    | ok details =>
      exact ⟨details.id, fun given hgiven ↦ congrArg Details.id (Except.ok.inj (hgiven.symm.trans hdetails))⟩
  | remove id | setState id _ _ | reconcile id _ _ => exact ⟨id, rfl⟩

/-- A move that does not register a datanode; it switches to no table but the given one, and others write nothing to
the tables. -/
def Move.LeavesOut (move : Move) (id : String) (table : Option Nat) : Prop :=
  match move with
  | .call (.operate (.register offered _ _ _)) => ¬ offered.Describes id
  | .call (.switch other) => other = table
  | .exchange _ => False
  | _ => True

namespace World

/-- A datanode that is away: it is not registered, and the table in use has no row of it. -/
structure Away (world : World) (id : String) (table : Option Nat) : Prop where
  sound : world.manager.Sound
  absent : world.manager.registry.contains id = false
  inUse : world.manager.table = table
  answers : ∀ {number}, table = some number → world.AnswersFromRows number
  lacks : ∀ {number}, table = some number → world.Lacks number id

/-- What an iterator over the table with a number holds does not describe a datanode. -/
def Withholds (world : World) (number iterator : Nat) (id : String) : Prop :=
  ∀ store, world.store? number = some store → store.Withholds iterator id

namespace Away

variable {world : World} {id other : String} {table : Option Nat} {number iterator : Nat}

/-- Whatever is done about another datanode, this one stays away. -/
theorem alikeBut {after : World} (h : world.Away id table) (hsound : after.manager.Sound) (hother : other ≠ id)
    (halike : world.AlikeBut other after) : after.Away id table where
  sound := hsound
  absent := by
    rw [Manager.contains_eq_isSome_record, halike.manager.holding hother.symm, ← Manager.contains_eq_isSome_record]
    exact h.absent
  inUse := halike.table.trans h.inUse
  answers hnumber := halike.answers (h.answers hnumber)
  lacks hnumber := halike.lacks hother.symm (h.lacks hnumber)

theorem of_kept {after : World} (h : world.Away id table) (hsound : after.manager.Sound)
    (habsent : after.manager.registry.contains id = false) (hinUse : after.manager.table = world.manager.table)
    (hstore : ∀ number, after.store? number = world.store? number) : after.Away id table where
  sound := hsound
  absent := habsent
  inUse := hinUse.trans h.inUse
  answers hnumber := by
    unfold AnswersFromRows
    rw [hstore]
    exact h.answers hnumber
  lacks hnumber := by
    unfold World.Lacks
    rw [hstore]
    exact h.lacks hnumber

theorem of_tables {after : World} (h : world.Away id table) (hsound : after.manager.Sound)
    (habsent : after.manager.registry.contains id = false) (hinUse : after.manager.table = world.manager.table)
    (htables : after.tables = world.tables) : after.Away id table :=
  h.of_kept hsound habsent hinUse (store?_of_tables htables)

theorem tended {after : World} (h : world.Away id table) (htended : world.manager.Tended after.manager)
    (htables : after.tables = world.tables) : after.Away id table := by
  refine h.of_tables (h.sound.tended htended) ?_ (congrArg Settings.table htended.settings) htables
  rw [Manager.contains_eq_isSome_standing, htended.standing, ← Manager.contains_eq_isSome_standing]
  exact h.absent

/-- What reads the tables leaves them without the datanode. -/
theorem of_reading {after : World} (h : world.Away id table) (halike : world.manager.Alike after.manager)
    {request : TableRequest} (hreading : request.IsReading)
    (hserved : ∀ {number reached}, after.store? number = some reached →
      ∃ before, world.store? number = some before ∧ before.Serves request reached) : after.Away id table where
  sound := h.sound.alike halike
  absent := halike.registry ▸ h.absent
  inUse := (congrArg Settings.table halike.settings).trans h.inUse
  answers hnumber reached hreached := by
    obtain ⟨before, hbefore, hserves⟩ := hserved hreached
    exact hserves.answers (h.answers hnumber before hbefore)
  lacks hnumber reached hreached := by
    obtain ⟨before, hbefore, hserves⟩ := hserved hreached
    refine (h.lacks hnumber before hbefore).of_serves hserves fun written details hput ↦ ?_
    rw [hput] at hreading
    exact hreading.elim

theorem ask (h : world.Away id table) (number : Nat) {request : TableRequest} (hreading : request.IsReading) :
    (world.ask number request).1.Away id table :=
  h.of_reading (world.alike_ask number request) hreading exists_serves_of_ask

theorem iterate (h : world.Away id table) (number : Nat) : (world.iterate number).1.Away id table := by
  have halike : world.manager.Alike (world.iterate number).1.manager := by
    rw [manager_iterate]
    exact .refl world.manager
  have hreading : (TableRequest.close 0).IsReading := trivial
  exact h.of_reading halike hreading (exists_serves_of_iterate _)

/-- An iterator that is opened over the table in use does not hold the datanode. -/
theorem withholds_iterate (h : world.Away id (some number)) (hopened : (world.iterate number).2 = .ok iterator) :
    (world.iterate number).1.Withholds number iterator id := by
  intro reached hreached
  cases htable : world.tables[number]? with
  | none =>
    obtain ⟨before, hbefore, -⟩ := exists_serves_of_iterate (.close 0) hreached
    exact absurd ((Option.map_eq_none_iff.mpr htable).symm.trans hbefore) nofun
  | some opening =>
    obtain ⟨opened, hiterate, hstore⟩ := iterate_eq htable
    rw [hopened] at hiterate
    have hlacks := h.lacks rfl opening.store (congrArg (Option.map Table.store) htable)
    exact Option.some.inj (hstore.symm.trans hreached) ▸ TableStore.withholds_iterate opening hlacks hiterate

/-- What an iterator over the table in use gives is not the datanode. -/
theorem withholds_ask (h : world.Away id (some number)) (hwithholds : world.Withholds number iterator id) :
    (world.ask number (.next iterator)).1.Withholds number iterator id ∧
      ∀ entry, (world.ask number (.next iterator)).2 = .ok (some entry) → ¬ entry.details.Describes id := by
  cases htable : world.tables[number]? with
  | none =>
    rw [ask_of_absent (Option.map_eq_none_iff.mpr htable)]
    exact ⟨hwithholds, nofun⟩
  | some asked =>
    have hstore : world.store? number = some asked.store := congrArg (Option.map Table.store) htable
    obtain ⟨served, note, hperform, hserved⟩ := ask_eq htable (.next iterator)
    obtain ⟨hstill, hgiven⟩ := TableStore.withholds_next asked world.clock hperform (h.answers rfl _ hstore)
      (h.lacks rfl _ hstore) (hwithholds _ hstore)
    exact ⟨fun reached hreached ↦ Option.some.inj (hserved.symm.trans hreached) ▸ hstill, hgiven⟩

/-- A load of the table does not bring the datanode back, however far it comes. -/
theorem load (h : world.Away id table) : world.load.1.Away id table := by
  unfold World.load
  split
  · exact h
  · next number hnumber =>
    obtain rfl := h.inUse.symm.trans hnumber
    have hopened := h.iterate number
    split
    · next refused failure hrefused => rwa [hrefused] at hopened
    · next opened iterator hiterator =>
      rw [hiterator] at hopened
      have hwithholds := h.withholds_iterate (congrArg Prod.snd hiterator)
      rw [hiterator] at hwithholds
      have hended := loadEntries_induction_given
        (P := fun reached ↦ reached.Away id (some number) ∧ reached.Withholds number iterator id)
        (Q := fun _ entry ↦ ¬ entry.details.Describes id)
        (fun ⟨hready, hheld⟩ ↦ ⟨hready.ask number trivial, (hready.withholds_ask hheld).1⟩)
        (fun ⟨hready, hheld⟩ ↦ (hready.withholds_ask hheld).2 _)
        (fun ⟨hready, hheld⟩ hnoted ↦ ⟨hready.tended hnoted.alike.tended rfl, hheld⟩)
        ?_ ⟨hopened, hwithholds⟩ (opened.entriesLeft number iterator + 1) 0
      · have hreading : (TableRequest.close iterator).IsReading := trivial
        exact (hended.1.ask number hreading).tended (Manager.noted_takeClosed _ _).alike.tended rfl
      · rintro ready entry details ⟨hready, hheld⟩ hentry hscreen
        obtain ⟨-, hkept, -⟩ := Manager.kept_of_screen hscreen
        obtain ⟨given, hgiven, hid⟩ := Manager.exists_offered_of_screen hscreen
        have hother : details.id ≠ id := fun hsame ↦ hentry ⟨given, hgiven, hid.trans hsame⟩
        let request := ready.manager.storedRegistration details
        have hregistered : ready.AlikeBut details.id (ready.run (.register request)).1 :=
          alikeBut_run_register hready.sound request hkept
        refine ⟨hready.alikeBut (sound_run_register hready.sound request hkept) hother hregistered, ?_⟩
        unfold Withholds
        rw [store?_of_tables (ready.tables_run_stored details)]
        exact hheld

/-- A request about another datanode. -/
theorem serve_of_other (h : world.Away id table) {request : OperationRequest} (hconcerns : request.Concerns other)
    (hother : other ≠ id) : (world.serve request).1.Away id table :=
  h.alikeBut (sound_serve h.sound request) hother (alikeBut_serve h.sound hconcerns)

theorem serve_register (h : world.Away id table) {offered : Field} (hleaves : ¬ offered.Describes id)
    (nodeReport : Option NodeReport) (pipelineReport : Field) (layout : Option LayoutReport) :
    (world.serve (.register offered nodeReport pipelineReport layout)).1.Away id table := by
  obtain ⟨refused, failure, hnoted, hserved⟩ | ⟨details, hscreen, -, -⟩ :=
    world.serve_register_cases offered nodeReport pipelineReport layout
  · rw [hserved]
    exact h.tended hnoted.alike.tended rfl
  · obtain ⟨given, hgiven, -⟩ := Manager.exists_offered_of_screen hscreen
    have hconcerns : (OperationRequest.register offered nodeReport pipelineReport layout).Concerns given.id :=
      fun other hother ↦ congrArg Details.id (Except.ok.inj (hother.symm.trans hgiven))
    exact h.serve_of_other hconcerns fun hsame ↦ hleaves ⟨given, hgiven, hsame⟩

theorem serve (h : world.Away id table) {request : OperationRequest}
    (hleaves : (Move.call (.operate request)).LeavesOut id table) : (world.serve request).1.Away id table := by
  by_cases hregistration : request.IsRegistration
  · cases request with
    | register offered nodeReport pipelineReport layout => exact h.serve_register hleaves _ _ _
    | _ => exact hregistration.elim
  · obtain ⟨other, hconcerns⟩ := request.exists_concerns
    by_cases hother : other = id
    · subst hother
      obtain ⟨hregistry, htables⟩ := serve_of_absent h.absent hconcerns hregistration
      exact h.of_tables (sound_serve h.sound request) (hregistry ▸ h.absent)
        (congrArg Settings.table (world.settings_serve request)) htables
    · exact h.serve_of_other hconcerns hother

theorem call (h : world.Away id table) {call : Call} (hleaves : (Move.call call).LeavesOut id table) :
    (world.call call).1.Away id table := by
  cases call with
  | operate request => exact h.serve hleaves
  | queue target command =>
    refine h.tended (world.tended_queue target command) ?_
    unfold World.call
    simp only
    split <;> rfl
  | take target command => exact h.tended (world.tended_take target command) rfl
  | purge target => exact h.tended (world.manager.tended_purgeCommands target) rfl
  | refreshUsage =>
    refine h.tended ?_ rfl
    unfold World.call Service.refreshUsage
    simp only
    split
    · exact .refl world.manager
    · exact world.manager.tended_refreshUsage h.sound.keyed
  | sweep moment => exact h.tended (Manager.tended_checkHeartbeats _ h.sound.keyed _) rfl
  | load => exact h.load
  | switch other =>
    obtain rfl : other = table := hleaves
    exact (h.of_tables (sound_switchTable h.sound other) h.absent h.inUse.symm rfl).load

theorem move (h : world.Away id table) {move : Move} (hleaves : move.LeavesOut id table) :
    (world.move move).Away id table := by
  cases move with
  | call call => exact h.call hleaves
  | tick now =>
    have halike : world.manager.Alike (world.setClock now).manager := ⟨rfl, rfl⟩
    exact h.tended halike.tended rfl
  | finalizeLayout => exact h.of_tables (sound_move h.sound .finalizeLayout) h.absent rfl rfl
  | spoil spoilt faults => exact h.of_kept h.sound h.absent rfl (world.store?_spoil spoilt faults)
  | exchange tables => exact hleaves.elim

theorem after (h : world.Away id table) {moves : List Move} (hleaves : ∀ move ∈ moves, move.LeavesOut id table) :
    (world.after moves).Away id table := by
  unfold World.after
  induction moves generalizing world with
  | nil => exact h
  | cons move rest ih =>
    exact ih (h.move (hleaves move List.mem_cons_self)) fun other hother ↦
      hleaves other (List.mem_cons_of_mem move hother)

/-- Nor is the datanode brought back when the service is started afresh over the tables. -/
theorem restart (h : world.Away id table) {fresh : Service} (hempty : fresh.manager.HasEmptyMemory)
    (htable : fresh.manager.table = table) : (world.restart fresh).1.Away id table := by
  have habsent : fresh.manager.registry.contains id = false := by
    rw [hempty.registry]
    rfl
  have hfresh : ({ world with service := fresh } : World).Away id table :=
    ⟨hempty.sound, habsent, htable, h.answers, h.lacks⟩
  exact hfresh.load

end Away

/-! ## Nothing is left of a datanode -/

variable {world : World} {id : String}

/-- A datanode of which neither the stores nor the table in use hold anything; a table that is a database answers from
its rows. -/
structure HasNothingOf (world : World) (id : String) : Prop where
  memory : world.manager.stores.holding id = .nothing
  answers : ∀ {number}, world.manager.table = some number → world.AnswersFromRows number
  rows : ∀ {number}, world.manager.table = some number → ∀ row ∈ world.rowsOf number, row.1 ≠ id

structure SameStores (before after : World) : Prop where
  stores : after.manager.stores = before.manager.stores
  rows : ∀ number, after.rowsOf number = before.rowsOf number

/-- A removal that succeeds takes away all that there is of the datanode. -/
theorem removed_of_serve {removed : World} (h : world.serve (.remove id) = (removed, .ok .nothing)) :
    world.Removed id removed := by
  have hremoves := world.removesWholly id
  cases hregistered : world.manager.registry.contains id with
  | false =>
    obtain ⟨-, hrefused⟩ := hremoves.refused hregistered
    rw [hrefused] at h
    cases h
  | true =>
    have hdeletes : ∀ {number}, world.manager.table = some number →
        ∃ given, (world.ask number (.delete id)).2 = .ok given := by
      intro number htable
      cases hanswer : (world.ask number (.delete id)).2 with
      | ok given => exact ⟨given, rfl⟩
      | error cause =>
        obtain ⟨failure, -, hfailed, -⟩ := hremoves.failed hregistered htable hanswer
        rw [h] at hfailed
        cases hfailed
    obtain ⟨-, hremoved⟩ := hremoves.removed hregistered hdeletes
    rwa [h] at hremoved

section Removal

variable {about : List Move} {removed : World}

theorem alikeBut_removed (hsound : world.manager.Sound) (habout : ∀ move ∈ about, move.IsAbout id)
    (hremoved : (world.after about).serve (.remove id) = (removed, .ok .nothing)) : world.AlikeBut id removed := by
  have hconcerns : (OperationRequest.remove id).Concerns id := rfl
  have hserved := alikeBut_serve (sound_after hsound about) hconcerns
  rw [hremoved] at hserved
  exact (alikeBut_after hsound habout).trans hserved

theorem HasNothingOf.restored (h : world.HasNothingOf id) (hsound : world.manager.Sound)
    (habout : ∀ move ∈ about, move.IsAbout id)
    (hremoved : (world.after about).serve (.remove id) = (removed, .ok .nothing)) : world.SameStores removed := by
  have halike := alikeBut_removed hsound habout hremoved
  have hreached := alikeBut_after hsound habout
  have hgone := removed_of_serve hremoved
  constructor
  · have hstores := halike.manager.stores
    rwa [Stores.without_of_holding hgone.gone, Stores.without_of_holding h.memory] at hstores
  · intro number
    by_cases hused : world.manager.table = some number
    · calc
        removed.rowsOf number = Association.without id ((world.after about).rowsOf number) :=
          hgone.row (hreached.table.trans hused) (hreached.answers (h.answers hused))
        _ = Association.without id (world.rowsOf number) := hreached.rows number
        _ = world.rowsOf number :=
          List.filter_eq_self.mpr fun row hrow ↦ decide_eq_true (h.rows hused row hrow)
    · exact rowsOf_of_store? (halike.unused hused)

end Removal

end World

end ClusterMembership
