import ClusterMembership.Proofs.Frame
import ClusterMembership.Proofs.Queueing
import ClusterMembership.Proofs.TableRows

/-!
# What concerns one datanode alone

Everything that the stores hold of a datanode can be left out (`Stores.without`), and that is what a removal does.  A
call that concerns one datanode changes nothing else: `Manager.AlikeBut` says of two states of a manager that they
are the same without the datanode, and it is carried through every function that such a call runs.  So whatever is
done about a datanode between its first registration and its removal leaves no trace.
-/

namespace ClusterMembership

/-! ## Stores without a datanode -/

theorem OrderedMap.erase_erase {α : Type} (map : OrderedMap α) (key : String) :
    (map.erase key).erase key = map.erase key :=
  erase_of_get?_eq_none ((map.get?_erase key key).trans (if_pos rfl))

theorem OrderedMap.erase_restore {α : Type} (map : OrderedMap α) (key : String) (value : Option α) :
    (map.restore key value).erase key = map.erase key := by
  cases value with
  | none => exact map.erase_erase key
  | some value => exact map.erase_insert key value

theorem Association.without_without {α : Type} (key : String) (entries : List (String × α)) :
    without key (without key entries) = without key entries := by
  unfold without
  rw [List.filter_filter]
  simp

namespace Registry

variable (registry : Registry)

theorem erase_upsert {record : NodeRecord} {id : String} (hid : record.id = id) :
    (registry.upsert record).erase id = registry.erase id := by
  subst hid
  exact congrArg Registry.mk (registry.records.erase_insert record.id record)

theorem erase_amend {id : String} {change : NodeRecord → NodeRecord}
    (hid : ∀ record, registry.get? id = some record → (change record).id = id) :
    (registry.amend id change).erase id = registry.erase id := by
  cases hrecord : registry.get? id with
  | none => rw [amend, hrecord]
  | some record =>
    rw [amend, hrecord]
    exact registry.erase_upsert (hid record hrecord)

end Registry

namespace Topology

variable (topology : Topology)

theorem remove_remove (id : String) : (topology.remove id).remove id = topology.remove id :=
  congrArg Topology.mk (topology.leaves.erase_erase id)

theorem remove_of_add {topology placed : Topology} {id offered : String} (h : topology.add id offered = .ok placed) :
    placed.remove id = topology.remove id := by
  cases hlocation : topology.location? id with
  | none =>
    rw [add_of_absent hlocation] at h
    cases hcheck : topology.check (meant offered) with
    | error refusal => simp [hcheck, Except.map] at h
    | ok _ =>
      rw [hcheck, Except.map] at h
      rw [← Except.ok.inj h]
      exact congrArg Topology.mk (topology.leaves.erase_insert id (meant offered))
  | some existing =>
    simp only [add, hlocation] at h
    split at h
    · rw [Except.ok.inj h]
    · cases h

theorem remove_update (id offered : String) : (topology.update id offered).1.remove id = topology.remove id := by
  unfold update
  simp only
  split
  · rfl
  · split
    · next moved hadded => rw [remove_of_add hadded, remove_remove]
    · exact (congrArg Topology.mk ((topology.remove id).leaves.erase_restore id _)).trans (topology.remove_remove id)

end Topology

namespace CommandQueue

variable (queue : CommandQueue) (id : String)

theorem purge_add (command : Command) (now : Instant) :
    ((queue.add id command now).purge id).1 = (queue.purge id).1 := by
  unfold purge add
  simp only [OrderedMap.erase_insert]

theorem purge_drain : ((queue.drain id).1.purge id).1 = (queue.purge id).1 := by
  unfold purge drain
  simp only [OrderedMap.erase_erase]

theorem purge_purge : ((queue.purge id).1.purge id).1 = (queue.purge id).1 := by
  unfold purge
  simp only [OrderedMap.erase_erase]

theorem purge_recordHeld (counts : HeldCounts) : ((queue.recordHeld id counts).purge id).1 = (queue.purge id).1 := by
  unfold purge recordHeld
  simp only [OrderedMap.erase_insert]

end CommandQueue

def Stores.without (stores : Stores) (id : String) : Stores where
  registry := stores.registry.erase id
  commands := (stores.commands.purge id).1
  known := stores.known.erase id
  topology := stores.topology.remove id
  unsynced := stores.unsynced.filter fun other ↦ other ≠ id

theorem Stores.without_without (stores : Stores) (id : String) :
    (stores.without id).without id = stores.without id := by
  unfold Stores.without
  congr 1
  · exact congrArg Registry.mk (stores.registry.records.erase_erase id)
  · exact stores.commands.purge_purge id
  · exact congrArg KnownNodes.mk (stores.known.descriptors.erase_erase id)
  · exact stores.topology.remove_remove id
  · rw [List.filter_filter]
    simp

namespace Manager

/-- Two states of a manager that differ in nothing but what they hold of a datanode, the cluster, the clock and the
trace. -/
structure AlikeBut (before : Manager) (id : String) (after : Manager) : Prop where
  stores : after.stores.without id = before.stores.without id
  settings : after.settings = before.settings

namespace AlikeBut

variable {before middle after : Manager} {id : String}

protected theorem refl (manager : Manager) (id : String) : manager.AlikeBut id manager := ⟨rfl, rfl⟩

protected theorem trans (hfirst : before.AlikeBut id middle) (hsecond : middle.AlikeBut id after) :
    before.AlikeBut id after :=
  ⟨hsecond.stores.trans hfirst.stores, hsecond.settings.trans hfirst.settings⟩

end AlikeBut

theorem Alike.alikeBut {before after : Manager} (h : before.Alike after) (id : String) : before.AlikeBut id after :=
  ⟨congrArg (Stores.without · id) h.stores, h.settings⟩

variable {manager : Manager} {id : String}

/-! ## Single stores -/

theorem alikeBut_registry {registry : Registry} (h : registry.erase id = manager.registry.erase id) :
    manager.AlikeBut id { manager with registry := registry } :=
  ⟨congrArg (fun erased ↦ { manager.stores.without id with registry := erased }) h, rfl⟩

theorem alikeBut_commands {commands : CommandQueue} (h : (commands.purge id).1 = (manager.commands.purge id).1) :
    manager.AlikeBut id { manager with commands := commands } :=
  ⟨congrArg (fun purged ↦ { manager.stores.without id with commands := purged }) h, rfl⟩

theorem alikeBut_known {known : KnownNodes} (h : known.erase id = manager.known.erase id) :
    manager.AlikeBut id { manager with known := known } :=
  ⟨congrArg (fun erased ↦ { manager.stores.without id with known := erased }) h, rfl⟩

theorem alikeBut_topology {topology : Topology} (h : topology.remove id = manager.topology.remove id) :
    manager.AlikeBut id { manager with topology := topology } :=
  ⟨congrArg (fun removed ↦ { manager.stores.without id with topology := removed }) h, rfl⟩

theorem alikeBut_unsynced {unsynced : List String}
    (h : (unsynced.filter fun other ↦ other ≠ id) = manager.unsynced.filter fun other ↦ other ≠ id) :
    manager.AlikeBut id { manager with unsynced := unsynced } :=
  ⟨congrArg (fun filtered ↦ { manager.stores.without id with unsynced := filtered }) h, rfl⟩

/-- A change of the record of a datanode that keeps its identifier. -/
theorem alikeBut_amend (hkeyed : manager.Keyed) {change : NodeRecord → NodeRecord}
    (hid : ∀ record, (change record).id = record.id) :
    manager.AlikeBut id { manager with registry := manager.registry.amend id change } :=
  alikeBut_registry (manager.registry.erase_amend fun record hrecord ↦ (hid record).trans (hkeyed hrecord))

/-! ## Commands -/

theorem alikeBut_onCommand (manager : Manager) (id : String) (command : Command) :
    manager.AlikeBut id (manager.onCommand id command) := by
  unfold onCommand
  split
  · exact alikeBut_commands (manager.commands.purge_add id command manager.clock)
  · exact (manager.alike_note _).alikeBut id

theorem alikeBut_of_addCommand {command : Command} {after : Manager}
    (h : manager.addCommand id command = .ok after) : manager.AlikeBut id after := by
  unfold addCommand at h
  split at h
  · rw [← Except.ok.inj h]
    exact alikeBut_commands (manager.commands.purge_add id command manager.clock)
  · simp at h

theorem alikeBut_purgeCommands (manager : Manager) (id : String) : manager.AlikeBut id (manager.purgeCommands id).1 :=
  alikeBut_commands (manager.commands.purge_purge id)

/-! ## Reports and heartbeats -/

theorem alikeBut_of_noteUsage (hkeyed : manager.Keyed) {report : Option NodeReport} {now : Instant}
    {after : Manager} (h : manager.noteUsage id report now = .ok after) : manager.AlikeBut id after := by
  obtain rfl | ⟨usage, rfl⟩ := noteUsage_cases h
  · exact .refl after id
  · exact alikeBut_amend hkeyed fun _ ↦ rfl

theorem alikeBut_queueFinalize (manager : Manager) (id : String) (details : Details) (reported : LayoutReport)
    (now : Instant) : manager.AlikeBut id (manager.queueFinalize id details reported now) := by
  have hnoted := (manager.alike_noteAll (manager.layout.checkNotes details reported)).alikeBut id
  unfold queueFinalize
  simp only
  split
  · exact hnoted
  · exact hnoted.trans (alikeBut_commands (CommandQueue.purge_add _ id _ now))

theorem alikeBut_of_takeReports (hkeyed : manager.Keyed) {details : Details} {report : HeartbeatReport}
    {now : Instant} {after : Manager} (h : manager.takeReports id details report now = .ok after) :
    manager.AlikeBut id after := by
  obtain ⟨stocked, queued, hstocked, hqueued, rfl⟩ := takeReports_cases h
  have hfinalized : stocked.AlikeBut id queued := by
    obtain ⟨-, rfl⟩ | ⟨reported, -, rfl⟩ := hqueued
    · exact .refl queued id
    · exact stocked.alikeBut_queueFinalize id details reported now
  have hheld : queued.AlikeBut id (queued.noteHeld id report.heldCounts) := by
    unfold noteHeld
    split
    · exact .refl queued id
    · exact alikeBut_commands (queued.commands.purge_recordHeld id _)
  exact ((alikeBut_of_noteUsage hkeyed hstocked).trans hfinalized).trans hheld

theorem alikeBut_hear (hkeyed : manager.Keyed) (previous : Health) (layout : Option LayoutReport) (now : Instant) :
    manager.AlikeBut id (manager.hear id previous layout now) := by
  have hheard : manager.AlikeBut id
      { manager with registry := manager.registry.amend id (Registry.heard layout now) } :=
    alikeBut_amend hkeyed fun _ ↦ rfl
  unfold hear
  simp only
  split
  · exact hheard
  · exact hheard.trans (((alike_note _ _).trans (alike_publish _ _)).alikeBut id)

theorem alikeBut_restate (hkeyed : manager.Keyed) (state expiry : Field) (now : Instant) :
    manager.AlikeBut id (manager.restate id state expiry now) :=
  alikeBut_amend hkeyed fun record ↦ record.details.id_withOperational state expiry

theorem alikeBut_settleState (hkeyed : manager.Keyed) (details : Details) (now : Instant) :
    manager.AlikeBut details.id (manager.settleState details now) := by
  unfold settleState
  simp only
  split
  · exact .refl manager details.id
  · split
    · exact .refl manager details.id
    · split
      · have hnoted (note : Note) : (manager.note note).Keyed := hkeyed
        exact ((manager.alike_note _).alikeBut details.id).trans (alikeBut_restate (hnoted _) _ _ now)
      · exact ((manager.alike_note _).alikeBut details.id).trans
          (alikeBut_commands (CommandQueue.purge_add _ details.id _ now))

/-- A heartbeat concerns its datanode alone. -/
theorem alikeBut_heartbeat (hkeyed : manager.Keyed) (details : Details) (report : HeartbeatReport) (now : Instant) :
    manager.AlikeBut details.id (manager.heartbeat details report now).1 := by
  unfold heartbeat
  simp only
  split
  · exact (manager.alike_note _).alikeBut details.id
  · next record hrecord =>
    have hheard : manager.AlikeBut details.id (manager.hear details.id record.status.health report.layout now) :=
      alikeBut_hear hkeyed record.status.health report.layout now
    have hstill : (manager.hear details.id record.status.health report.layout now).Keyed :=
      (manager.tended_hear hkeyed details.id record.status.health report.layout now).keyed hkeyed
    split
    · exact hheard
    · next reported htaken =>
      have hregistered : manager.registry.contains details.id = true :=
        (Registry.contains_iff _ _).mpr ⟨record, hrecord⟩
      have hready : reported.Keyed := (tended_hear_takeReports hkeyed hregistered htaken).keyed hkeyed
      have hsettled := (alikeBut_of_takeReports hstill htaken).trans (alikeBut_settleState hready details now)
      exact (hheard.trans hsettled).trans (alikeBut_commands (CommandQueue.purge_drain _ details.id))

theorem alikeBut_refuseOutdated (manager : Manager) (observer : Observer) (details : Details) (silence : Int) :
    manager.AlikeBut details.id (Service.refuseOutdated manager observer details silence) := by
  unfold Service.refuseOutdated
  cases observer.discards with
  | true => exact (manager.alikeBut_purgeCommands details.id).trans ((alike_note _ _).alikeBut details.id)
  | false => exact (manager.alike_note _).alikeBut details.id

/-! ## Registrations -/

theorem alikeBut_place (manager : Manager) (details : Details) (layout : LayoutReport) (now : Instant) :
    manager.AlikeBut details.id (manager.place details layout now).1 := by
  unfold place
  simp only
  split
  · have hupdate := manager.topology.remove_update details.id details.location
    split
    · next topology refusal hmoved =>
      rw [hmoved] at hupdate
      exact alikeBut_topology hupdate
    · next topology hmoved =>
      rw [hmoved] at hupdate
      let detailed := manager.registry.amend details.id (Registry.detailed details now)
      have hdetailed : detailed.erase details.id = manager.registry.erase details.id :=
        manager.registry.erase_amend fun _ _ ↦ details.id_withOperational _ _
      have hheard : (detailed.amend details.id (Registry.heard (some layout) now)).erase details.id =
          detailed.erase details.id := by
        refine detailed.erase_amend fun record hrecord ↦ ?_
        rw [Registry.get?_amend, if_pos rfl] at hrecord
        · obtain ⟨former, -, rfl⟩ := Option.map_eq_some_iff.mp hrecord
          exact details.id_withOperational _ _
        · exact fun _ _ ↦ details.id_withOperational _ _
      have hplaced : manager.AlikeBut details.id { manager with topology := topology } := alikeBut_topology hupdate
      exact hplaced.trans (alikeBut_registry (hheard.trans hdetailed))
  · split
    · exact .refl manager details.id
    · next topology hadded =>
      have hplaced : manager.AlikeBut details.id { manager with topology := topology } :=
        alikeBut_topology (Topology.remove_of_add hadded)
      exact hplaced.trans (alikeBut_registry (manager.registry.erase_upsert rfl))

theorem alikeBut_placing (manager : Manager) (request : RegistrationRequest) :
    manager.AlikeBut request.details.id (manager.placing request).1 := by
  have hrecorded : manager.AlikeBut request.details.id
      { manager with known := manager.known.record request.details } :=
    alikeBut_known (congrArg KnownNodes.mk (manager.known.descriptors.erase_insert _ _))
  exact hrecorded.trans (alikeBut_place _ request.details _ manager.clock)

theorem alikeBut_markUnsynced (manager : Manager) (id : String) : manager.AlikeBut id (manager.markUnsynced id) := by
  unfold markUnsynced
  split
  · exact .refl manager id
  · exact alikeBut_unsynced (by rw [List.filter_append]; simp)

theorem alikeBut_settleWrite (manager : Manager) (id : String) (answer : TableAnswer) :
    manager.AlikeBut id (manager.settleWrite id answer).1 := by
  unfold settleWrite
  split
  · exact alikeBut_unsynced (by rw [List.filter_filter]; simp)
  · simp only
    split
    · exact (manager.alike_note _).alikeBut id
    · exact ((manager.alike_note _).alikeBut id).trans (alikeBut_markUnsynced _ id)

theorem alikeBut_completeRegistration (hkeyed : manager.Keyed) (placed : PlacedRegistration) :
    manager.AlikeBut placed.request.details.id (manager.completeRegistration placed).1 := by
  unfold completeRegistration
  simp only
  split
  · exact .refl manager _
  · next stocked hstocked =>
    have hqueued := (alikeBut_of_noteUsage hkeyed hstocked).trans
      (stocked.alikeBut_queueFinalize placed.request.details.id placed.stored placed.layout placed.now)
    exact hqueued.trans (((alike_withCluster _ _).trans (alike_announce _ placed)).alikeBut _)

theorem alikeBut_undoPlacement (manager : Manager) {placed : PlacedRegistration}
    (hprevious : ∀ previous, placed.previous = some previous → previous.id = placed.request.details.id) :
    manager.AlikeBut placed.request.details.id (manager.undoPlacement placed) := by
  let id := placed.request.details.id
  have hknown : manager.AlikeBut id
      { manager with known := manager.known.restore id placed.previousDescriptor } :=
    alikeBut_known (congrArg KnownNodes.mk (manager.known.descriptors.erase_restore id _))
  unfold undoPlacement
  simp only
  split
  · have herased : manager.AlikeBut id
        { manager with
          known := manager.known.restore id placed.previousDescriptor
          registry := manager.registry.erase id } :=
      hknown.trans (alikeBut_registry (congrArg Registry.mk (manager.registry.records.erase_erase id)))
    exact herased.trans (alikeBut_topology (manager.topology.remove_remove id))
  · next previous hsome =>
    have hrestored : manager.AlikeBut id
        { manager with
          known := manager.known.restore id placed.previousDescriptor
          registry := manager.registry.upsert previous } :=
      hknown.trans (alikeBut_registry (manager.registry.erase_upsert (hprevious previous hsome)))
    have hundone := hrestored.trans (alikeBut_topology (manager.topology.remove_update id previous.details.location))
    split
    · exact hundone
    · exact hundone.trans ((alike_note _ _).alikeBut id)

/-- A registration writes details of the datanode that is registered. -/
theorem id_stored_placedBy (manager : Manager) {inPlace : Manager} (hkeyed : inPlace.Keyed)
    (request : RegistrationRequest) : (manager.placedBy inPlace request).stored.id = request.details.id := by
  unfold placedBy
  simp only
  cases hrecord : inPlace.registry.get? request.details.id with
  | none => rfl
  | some record => exact hkeyed hrecord

theorem alikeBut_finishRegistration (hkeyed : manager.Keyed) {placed : PlacedRegistration}
    (hprevious : ∀ previous, placed.previous = some previous → previous.id = placed.request.details.id)
    (answer : TableAnswer) :
    manager.AlikeBut placed.request.details.id (manager.finishRegistration placed answer).1 := by
  have hsettled := manager.alikeBut_settleWrite placed.request.details.id answer
  have hregistry := manager.registry_settleWrite placed.request.details.id answer
  unfold finishRegistration
  split
  · next written hwritten =>
    rw [hwritten] at hsettled hregistry
    have hstill : written.Keyed := fun hrecord ↦ hkeyed (hregistry ▸ hrecord)
    exact hsettled.trans (alikeBut_completeRegistration hstill placed)
  · next failed failure hfailed =>
    rw [hfailed] at hsettled
    exact hsettled.trans (failed.alikeBut_undoPlacement hprevious)

/-! ## Removals -/

/-- What is forgotten is left out, and nothing else is. -/
theorem stores_forget (manager : Manager) (id : String) : (manager.forget id).stores = manager.stores.without id := rfl

theorem alikeBut_forget (manager : Manager) (id : String) : manager.AlikeBut id (manager.forget id) := by
  refine ⟨?_, rfl⟩
  rw [stores_forget, Stores.without_without]

end Manager

/-! ## Calls about one datanode -/

def Call.IsAbout (id : String) : Call → Prop
  | .operate request => request.Concerns id
  | .queue other _ | .take other _ | .purge other => other = id
  | .refreshUsage | .sweep _ | .load | .switch _ => False

/-- A move that leaves other datanodes alone: a call about one datanode, time that passes, or faults of a table. -/
def Move.IsAbout (id : String) : Move → Prop
  | .call made => made.IsAbout id
  | .tick _ | .spoil _ _ => True
  | .finalizeLayout | .exchange _ => False

/-! ## Tables without a datanode -/

/-- Two states of a table that differ in nothing but the rows of a datanode and what is neither row nor answer. -/
structure TableStore.AlikeBut (before : TableStore) (id : String) (after : TableStore) : Prop where
  rows : Association.without id after.rows = Association.without id before.rows
  reading : after.detailsOf = before.detailsOf
  answers : before.AnswersFromRows → after.AnswersFromRows
  lacks : ∀ {other}, other ≠ id → before.Lacks other → after.Lacks other

namespace TableStore

variable {before middle after : TableStore} {id : String}

protected theorem AlikeBut.refl (store : TableStore) (id : String) : store.AlikeBut id store :=
  ⟨rfl, rfl, fun h ↦ h, fun _ h ↦ h⟩

protected theorem AlikeBut.trans (hfirst : before.AlikeBut id middle) (hsecond : middle.AlikeBut id after) :
    before.AlikeBut id after where
  rows := hsecond.rows.trans hfirst.rows
  reading := hsecond.reading.trans hfirst.reading
  answers hanswers := hsecond.answers (hfirst.answers hanswers)
  lacks hother hlacks := hsecond.lacks hother (hfirst.lacks hother hlacks)

/-- A request for a datanode that writes details of the datanode, if any, changes no other row. -/
theorem Serves.alikeBut {request : TableRequest} (hserves : before.Serves request after) (hfor : request.IsFor id)
    (hown : ∀ {written details}, request = .put written details → details.id = written) : before.AlikeBut id after where
  rows := by
    obtain ⟨hleads, -, -⟩ := hserves
    generalize after.rows = rows at hleads
    cases hleads with
    | put =>
      obtain rfl := hfor
      exact Association.without_put _ _ _
    | delete =>
      obtain rfl := hfor
      exact Association.without_without _ _
    | same => rfl
  reading := hserves.reading
  answers := hserves.answers
  lacks hother hlacks := by
    refine hlacks.of_serves hserves fun written details hput ↦ ?_
    obtain rfl : written = id := by
      rw [hput] at hfor
      exact hfor
    exact ⟨hown hput, hother.symm⟩

end TableStore

namespace World

/-- Two worlds that differ in nothing but what they hold of a datanode, in memory and in the table in use, and in what
is neither store nor row. -/
structure AlikeBut (before : World) (id : String) (after : World) : Prop where
  manager : before.manager.AlikeBut id after.manager
  used : ∀ number, Option.Rel (·.AlikeBut id ·) (before.store? number) (after.store? number)
  unused : ∀ {number}, before.manager.table ≠ some number → after.store? number = before.store? number

namespace AlikeBut

variable {before middle after : World} {id other : String} {number : Nat}

protected theorem refl (world : World) (id : String) : world.AlikeBut id world where
  manager := .refl world.manager id
  used number := by
    cases world.store? number with
    | none => exact .none
    | some store => exact .some (.refl store id)
  unused _ := rfl

theorem table (h : before.AlikeBut id after) : after.manager.table = before.manager.table :=
  congrArg Settings.table h.manager.settings

protected theorem trans (hfirst : before.AlikeBut id middle) (hsecond : middle.AlikeBut id after) :
    before.AlikeBut id after where
  manager := hfirst.manager.trans hsecond.manager
  used number := by
    have hearlier := hfirst.used number
    have hlater := hsecond.used number
    generalize before.store? number = kept, middle.store? number = reached, after.store? number = left
      at hearlier hlater
    cases hearlier with
    | none => exact hlater
    | some hstore =>
      cases hlater with
      | some hstill => exact .some (hstore.trans hstill)
  unused hunused := (hsecond.unused (hfirst.table ▸ hunused)).trans (hfirst.unused hunused)

theorem rows (h : before.AlikeBut id after) (number : Nat) :
    Association.without id (after.rowsOf number) = Association.without id (before.rowsOf number) := by
  have hused := h.used number
  unfold rowsOf
  generalize before.store? number = kept, after.store? number = reached at hused
  cases hused with
  | none => rfl
  | some hstore => exact hstore.rows

/-- Every table that is there afterwards was there before. -/
theorem exists_store (h : before.AlikeBut id after) {reached : TableStore}
    (hreached : after.store? number = some reached) :
    ∃ store, before.store? number = some store ∧ store.AlikeBut id reached := by
  have hused := h.used number
  rw [hreached] at hused
  generalize before.store? number = kept at hused
  cases hused with
  | some hstore => exact ⟨_, rfl, hstore⟩

theorem answers (h : before.AlikeBut id after) (hanswers : before.AnswersFromRows number) :
    after.AnswersFromRows number := by
  intro reached hreached
  obtain ⟨store, hstore, halike⟩ := h.exists_store hreached
  exact halike.answers (hanswers store hstore)

theorem lacks (h : before.AlikeBut id after) (hother : other ≠ id) (hlacks : before.Lacks number other) :
    after.Lacks number other := by
  intro reached hreached
  obtain ⟨store, hstore, halike⟩ := h.exists_store hreached
  exact halike.lacks hother (hlacks store hstore)

end AlikeBut

variable {world : World} {id : String}

/-- Nothing that is kept in the tables changes. -/
theorem alikeBut_of_kept {after : World} (hmanager : world.manager.AlikeBut id after.manager)
    (hstore : ∀ number, after.store? number = world.store? number) : world.AlikeBut id after where
  manager := hmanager
  used number := hstore number ▸ (AlikeBut.refl world id).used number
  unused _ := hstore _

theorem alikeBut_of_tables {after : World} (hmanager : world.manager.AlikeBut id after.manager)
    (htables : after.tables = world.tables) : world.AlikeBut id after :=
  alikeBut_of_kept hmanager (store?_of_tables htables)

/-- A request for a datanode changes no row but that of the datanode. -/
theorem alikeBut_ask {number : Nat} (htable : world.manager.table = some number) {request : TableRequest}
    (hfor : request.IsFor id) (hown : ∀ {written details}, request = .put written details → details.id = written) :
    world.AlikeBut id (world.ask number request).1 where
  manager := (world.alike_ask number request).alikeBut id
  used other := by
    by_cases hsame : other = number
    · subst hsame
      cases hstore : world.store? other with
      | none =>
        rw [ask_of_absent hstore, hstore]
        exact .none
      | some store =>
        obtain ⟨after, hafter, hserves⟩ := exists_serves_ask hstore request
        rw [hafter]
        exact .some (hserves.alikeBut hfor hown)
    · rw [world.store?_ask_of_ne hsame]
      exact (AlikeBut.refl world id).used other
  unused {other} hunused := by
    have hother : other ≠ number := fun hsame ↦ hunused (hsame ▸ htable)
    exact world.store?_ask_of_ne hother request

/-- A registration concerns its datanode alone. -/
theorem alikeBut_run_register (hsound : world.manager.Sound) (request : RegistrationRequest)
    (hkept : request.details.Kept) : world.AlikeBut request.details.id (world.run (.register request)).1 := by
  have hplaced := world.manager.alikeBut_placing request
  cases hplacing : world.manager.placing request with
  | mk inPlace refusal =>
    rw [hplacing] at hplaced
    cases refusal with
    | some refusal =>
      rw [run_register_refused hplacing]
      exact alikeBut_of_tables (hplaced.trans ((inPlace.alike_refuse request.details refusal).alikeBut _)) rfl
    | none =>
      have hinPlace : inPlace.Keyed := (hsound.placing hkept hplacing).1.keyed
      cases hwrite : (if request.persist then inPlace.table else none) with
      | none =>
        rw [run_register_unwritten hplacing hwrite]
        exact alikeBut_of_tables
          (hplaced.trans (Manager.alikeBut_completeRegistration hinPlace (world.manager.placedBy inPlace request))) rfl
      | some table =>
        have htable : inPlace.table = some table := by
          split at hwrite
          · exact hwrite
          · cases hwrite
        have hwaits : world.AlikeBut request.details.id (world.withManager inPlace) := alikeBut_of_tables hplaced rfl
        have hinUse : (world.withManager inPlace).manager.table = some table := htable
        let put : TableRequest := .put request.details.id (world.manager.placedBy inPlace request).stored
        have hput : put.IsFor request.details.id := rfl
        have hown : ∀ {written details}, put = .put written details → details.id = written := by
          intro written details hwritten
          obtain ⟨rfl, rfl⟩ := TableRequest.put.inj hwritten
          exact world.manager.id_stored_placedBy hinPlace request
        have hasked : (world.withManager inPlace).AlikeBut request.details.id
            (world.askedToPut inPlace table request).1 := alikeBut_ask hinUse hput hown
        have hready : (world.askedToPut inPlace table request).1.manager.Keyed :=
          (world.alike_askedToPut inPlace table request).tended.keyed hinPlace
        have hprevious : ∀ previous, (world.manager.placedBy inPlace request).previous = some previous →
            previous.id = request.details.id := fun _ hprevious ↦ hsound.keyed hprevious
        rw [run_register_written hplacing hwrite rfl]
        exact (hwaits.trans hasked).trans
          (alikeBut_of_tables (Manager.alikeBut_finishRegistration hready hprevious _) rfl)

theorem alikeBut_run_heartbeat (hkeyed : world.manager.Keyed) (details : Details) (report : HeartbeatReport)
    (issuedAt : Instant) : world.AlikeBut details.id (world.run (.heartbeat details report issuedAt)).1 := by
  refine alikeBut_of_tables ?_ rfl
  rw [run_heartbeat]
  unfold manager Service.heartbeat
  simp only
  split
  · exact Manager.alikeBut_heartbeat hkeyed details report issuedAt
  · next observer _ =>
    unfold Service.observedHeartbeat
    simp only
    split
    · exact world.service.manager.alikeBut_refuseOutdated observer details _
    · exact Manager.alikeBut_heartbeat hkeyed details report _

theorem alikeBut_run_remove (world : World) (id : String) : world.AlikeBut id (world.run (.remove id)).1 := by
  cases hregistered : world.manager.registry.contains id with
  | false =>
    rw [run_remove_of_absent hregistered]
    exact .refl world id
  | true =>
    cases htable : world.manager.table with
    | none =>
      rw [run_remove_unwritten hregistered htable]
      exact alikeBut_of_tables (world.manager.alikeBut_forget id) rfl
    | some table =>
      have hdelete : (TableRequest.delete id).IsFor id := rfl
      have hdeleted := alikeBut_ask htable hdelete nofun
      cases hask : world.ask table (.delete id) with
      | mk asked answer =>
        rw [run_remove_written hregistered htable hask]
        rw [hask] at hdeleted
        cases answer with
        | ok given => exact hdeleted.trans (alikeBut_of_tables (asked.manager.alikeBut_forget id) rfl)
        | error cause => exact hdeleted.trans (alikeBut_of_tables ((asked.manager.alike_note _).alikeBut id) rfl)

theorem alikeBut_runStateChange (hkeyed : world.manager.Keyed) (id : String) (state expiry : Field) (reply : Reply) :
    world.AlikeBut id (world.runStateChange id (world.manager.beginStateChange id state expiry reply)).1 := by
  cases hrecord : world.manager.registry.get? id with
  | none =>
    rw [Manager.beginStateChange_of_absent ((Registry.contains_eq_false_iff _ _).mpr hrecord)]
    exact .refl world id
  | some record =>
    obtain ⟨note, hbegin⟩ := Manager.exists_beginStateChange_eq hrecord state expiry reply
    rw [hbegin]
    let expiry := Registry.expiryOrNever expiry
    let restated := (world.manager.restate id state expiry world.manager.clock).note note
    have hrestated : world.AlikeBut id (world.withManager restated) :=
      alikeBut_of_tables ((Manager.alikeBut_restate hkeyed state expiry world.manager.clock).trans
        ((Manager.alike_note _ note).alikeBut id)) rfl
    unfold runStateChange
    cases htable : world.manager.table with
    | none => exact hrestated
    | some table =>
      let put : TableRequest := .put id (record.details.withOperational state expiry)
      have hput : put.IsFor id := rfl
      have hown : ∀ {written details}, put = .put written details → details.id = written := by
        intro written details hwritten
        obtain ⟨rfl, rfl⟩ := TableRequest.put.inj hwritten
        exact (record.details.id_withOperational state expiry).trans (hkeyed hrecord)
      have hinUse : (world.withManager restated).manager.table = some table := htable
      have hasked : (world.withManager restated).AlikeBut id ((world.withManager restated).ask table put).1 :=
        alikeBut_ask hinUse hput hown
      exact (hrestated.trans hasked).trans (alikeBut_of_tables (Manager.alikeBut_settleWrite _ id _) rfl)

theorem alikeBut_serve (hsound : world.manager.Sound) {request : OperationRequest} (hconcerns : request.Concerns id) :
    world.AlikeBut id (world.serve request).1 := by
  cases request with
  | register offered nodeReport pipelineReport layout =>
    obtain ⟨refused, failure, hnoted, hserved⟩ | ⟨details, hscreen, hkept, hserved⟩ :=
      world.serve_register_cases offered nodeReport pipelineReport layout
    · rw [hserved]
      exact alikeBut_of_tables (hnoted.alike.alikeBut id) rfl
    · obtain ⟨given, hgiven, hid⟩ := Manager.exists_offered_of_screen hscreen
      obtain rfl : details.id = id := hid.symm.trans (hconcerns given hgiven)
      rw [hserved]
      let request : RegistrationRequest := ⟨details, nodeReport, pipelineReport, layout, true⟩
      exact alikeBut_run_register hsound request hkept
  | heartbeat offered report =>
    cases hdetails : Details.ofField offered with
    | error failure =>
      rw [serve_heartbeat_refused hdetails]
      exact .refl world id
    | ok details =>
      obtain rfl := hconcerns details hdetails
      rw [serve_heartbeat_admitted hdetails]
      exact alikeBut_run_heartbeat hsound.keyed details report world.clock
  | remove removed =>
    obtain rfl := hconcerns
    exact world.alikeBut_run_remove removed
  | setState changed state expiry =>
    obtain rfl := hconcerns
    rw [serve_setState, run_setState]
    exact alikeBut_runStateChange hsound.keyed changed state expiry .nothing
  | reconcile changed state expiry =>
    obtain rfl := hconcerns
    rw [serve_reconcile, run_reconcile]
    obtain ⟨outcome, -, hbegin⟩ | ⟨noted, hlogged, hbegin⟩ := world.manager.beginReconcile_cases changed state expiry
    · rw [hbegin]
      exact .refl world changed
    · rw [hbegin]
      have hkeyed : (world.withManager noted).manager.Keyed := hlogged.alike.tended.keyed hsound.keyed
      have hnoted : world.AlikeBut changed (world.withManager noted) :=
        alikeBut_of_tables (hlogged.alike.alikeBut changed) rfl
      exact hnoted.trans (alikeBut_runStateChange hkeyed changed state expiry (.changed true))

/-- Faults change nothing that is kept in a table. -/
theorem store?_spoil (world : World) (table : Nat) (faults : List Fault) (number : Nat) :
    (world.move (.spoil table faults)).store? number = world.store? number := by
  unfold store? World.move
  rw [List.getElem?_modify]
  cases world.tables[number]? with
  | none => rfl
  | some kept =>
    by_cases hspoilt : table = number
    · simp [hspoilt, Table.spoil]
    · simp [hspoilt]

theorem alikeBut_move (hsound : world.manager.Sound) {move : Move} (habout : move.IsAbout id) :
    world.AlikeBut id (world.move move) := by
  cases move with
  | call made =>
    cases made with
    | operate request => exact alikeBut_serve hsound habout
    | queue target command =>
      obtain rfl := habout
      unfold World.move World.call
      simp only
      split
      · next hadded => exact alikeBut_of_tables (Manager.alikeBut_of_addCommand hadded) rfl
      · exact .refl world target
    | take target command =>
      obtain rfl := habout
      refine alikeBut_of_tables ?_ rfl
      unfold World.move World.call Service.onCommand
      simp only
      split
      · exact (world.manager.alike_note _).alikeBut target
      · exact world.manager.alikeBut_onCommand target command
    | purge target =>
      obtain rfl := habout
      exact alikeBut_of_tables (world.manager.alikeBut_purgeCommands target) rfl
    | refreshUsage | sweep _ | load | switch _ => exact habout.elim
  | tick now => exact alikeBut_of_tables ⟨rfl, rfl⟩ rfl
  | spoil table faults => exact alikeBut_of_kept (.refl _ id) (world.store?_spoil table faults)
  | finalizeLayout | exchange _ => exact habout.elim

theorem alikeBut_after (hsound : world.manager.Sound) {moves : List Move} (habout : ∀ move ∈ moves, move.IsAbout id) :
    world.AlikeBut id (world.after moves) := by
  unfold after
  induction moves generalizing world with
  | nil => exact .refl world id
  | cons move rest ih =>
    have hmoved := alikeBut_move hsound (habout move List.mem_cons_self)
    exact hmoved.trans (ih (sound_move hsound move) fun other hmem ↦ habout other (List.mem_cons_of_mem move hmem))

end World

end ClusterMembership
