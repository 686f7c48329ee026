import ClusterMembership.Proofs.FailedWrite
import ClusterMembership.Proofs.Starting
import ClusterMembership.Proofs.Vitals

/-!
# The times of the last heartbeats

A registration takes the present time when it starts under the lock.  A heartbeat that comes to a primary brings the
time at which it was issued, and one that comes to an observer takes the present time.  Nothing else moves the time of a
last heartbeat: everything else keeps it, or forgets it with its datanode.  A registration that is undone would put
an earlier time back, but that happens under strict durability only.  What keeps the time of a last heartbeat in an
operation keeps the health of the datanode as well, so that the lemmas follow both as one.
-/

namespace ClusterMembership

namespace Manager

/-- When a datanode was last heard of, if it is registered. -/
def heardAt? (manager : Manager) (id : String) : Option Instant :=
  (manager.registry.get? id).map NodeRecord.lastHeartbeat

def vitals? (manager : Manager) (id : String) : Option (Health × Instant) :=
  (manager.registry.get? id).map NodeRecord.vitals

theorem heardAt?_eq_map_vitals? (manager : Manager) (id : String) :
    manager.heardAt? id = (manager.vitals? id).map Prod.snd := by
  unfold heardAt? vitals?
  rw [Option.map_map]
  rfl

/-- Two states of a manager, with records under their identifiers, between which no health and no last heartbeat has
moved. -/
structure Remembers (before after : Manager) : Prop where
  keyed : after.Keyed
  vitals? : ∀ id, after.vitals? id = before.vitals? id

namespace Remembers

variable {before middle after : Manager}

theorem of_registry (hkeyed : before.Keyed) (h : after.registry = before.registry) : before.Remembers after where
  keyed hrecord := hkeyed (h ▸ hrecord)
  vitals? id := by rw [Manager.vitals?, h, Manager.vitals?]

protected theorem trans (hfirst : before.Remembers middle) (hsecond : middle.Remembers after) :
    before.Remembers after :=
  ⟨hsecond.keyed, fun id ↦ (hsecond.vitals? id).trans (hfirst.vitals? id)⟩

theorem heardAt? (h : before.Remembers after) (id : String) : after.heardAt? id = before.heardAt? id := by
  rw [heardAt?_eq_map_vitals?, h.vitals?, heardAt?_eq_map_vitals?]

end Remembers

theorem Alike.remembers {before after : Manager} (h : before.Alike after) (hkeyed : before.Keyed) :
    before.Remembers after := .of_registry hkeyed h.registry

variable {manager : Manager}

/-! ## Records that are changed -/

/-- A change of a record under its identifier. -/
theorem vitals?_amend {amended : String} {change : NodeRecord → NodeRecord}
    (hid : ∀ record, manager.registry.get? amended = some record → (change record).id = amended) (id : String) :
    ({ manager with registry := manager.registry.amend amended change } : Manager).vitals? id =
      if amended = id then (manager.registry.get? amended).map fun record ↦ (change record).vitals
      else manager.vitals? id := by
  unfold vitals?
  rw [Registry.get?_amend _ _ _ _ hid]
  split
  · rw [Option.map_map]
    rfl
  · rfl

theorem keyed_amend (hkeyed : manager.Keyed) {amended : String} {change : NodeRecord → NodeRecord}
    (hid : ∀ record, manager.registry.get? amended = some record → (change record).id = amended) :
    ({ manager with registry := manager.registry.amend amended change } : Manager).Keyed := by
  intro id record hrecord
  rw [Registry.get?_amend _ _ _ _ hid] at hrecord
  split at hrecord
  · next hsame =>
    obtain ⟨former, hformer, rfl⟩ := Option.map_eq_some_iff.mp hrecord
    exact (hid former hformer).trans hsame
  · exact hkeyed hrecord

/-- A change of a record that keeps its identifier, its health and the time of its last heartbeat. -/
theorem remembers_amend (hkeyed : manager.Keyed) (amended : String) {change : NodeRecord → NodeRecord}
    (hid : ∀ record, (change record).id = record.id) (hvitals : ∀ record, (change record).vitals = record.vitals) :
    manager.Remembers { manager with registry := manager.registry.amend amended change } where
  keyed := keyed_amend hkeyed fun record hrecord ↦ (hid record).trans (hkeyed hrecord)
  vitals? id := by
    rw [vitals?_amend fun record hrecord ↦ (hid record).trans (hkeyed hrecord)]
    split
    · next hsame =>
      rw [funext hvitals, hsame]
      rfl
    · rfl

theorem remembers_restate (hkeyed : manager.Keyed) (id : String) (state expiry : Field) (now : Instant) :
    manager.Remembers (manager.restate id state expiry now) :=
  remembers_amend hkeyed id (fun record ↦ record.details.id_withOperational state expiry) fun _ ↦ rfl

/-! ## Reports -/

theorem remembers_of_noteUsage (hkeyed : manager.Keyed) {id : String} {report : Option NodeReport} {now : Instant}
    {after : Manager} (h : manager.noteUsage id report now = .ok after) : manager.Remembers after := by
  obtain rfl | ⟨usage, rfl⟩ := noteUsage_cases h
  · exact .of_registry hkeyed rfl
  · exact remembers_amend hkeyed id (fun _ ↦ rfl) fun _ ↦ rfl

theorem registry_queueFinalize (manager : Manager) (id : String) (details : Details) (reported : LayoutReport)
    (now : Instant) : (manager.queueFinalize id details reported now).registry = manager.registry := by
  obtain ⟨entries, hqueued⟩ := manager.exists_queueFinalize_eq id details reported now
  rw [hqueued]

theorem remembers_of_takeReports (hkeyed : manager.Keyed) {id : String} {details : Details}
    {report : HeartbeatReport} {now : Instant} {after : Manager}
    (h : manager.takeReports id details report now = .ok after) : manager.Remembers after := by
  obtain ⟨stocked, hstocked, commands, entries, rfl⟩ := exists_stocked_of_takeReports h
  have hnoted := remembers_of_noteUsage hkeyed hstocked
  exact hnoted.trans (.of_registry hnoted.keyed rfl)

theorem remembers_settleState (hkeyed : manager.Keyed) (details : Details) (now : Instant) :
    manager.Remembers (manager.settleState details now) := by
  have hsame : manager.Remembers manager := .of_registry hkeyed rfl
  unfold settleState
  simp only
  split
  · exact hsame
  · split
    · exact hsame
    · split
      · have hnoted (note : Note) : manager.Remembers (manager.note note) := .of_registry hkeyed rfl
        exact (hnoted _).trans (remembers_restate (hnoted _).keyed _ _ _ _)
      · exact .of_registry hkeyed rfl

/-! ## Heartbeats -/

theorem vitals?_hear (hkeyed : manager.Keyed) (heard : String) (previous : Health) (layout : Option LayoutReport)
    (now : Instant) (id : String) : (manager.hear heard previous layout now).vitals? id =
      if heard = id then (manager.vitals? heard).map fun _ ↦ (.healthy, now) else manager.vitals? id := by
  have hid (record : NodeRecord) (hrecord : manager.registry.get? heard = some record) :
      (Registry.heard layout now record).id = heard := show record.id = heard from hkeyed hrecord
  have hamended := vitals?_amend hid id
  have hregistry : (manager.hear heard previous layout now).registry =
      manager.registry.amend heard (Registry.heard layout now) := by
    unfold hear
    simp only
    split <;> rfl
  unfold vitals? at hamended ⊢
  rw [hregistry, hamended, Option.map_map]
  rfl

/-- A heartbeat makes its datanode healthy and gives its time to it, if that is registered. -/
theorem vitals?_heartbeat (hkeyed : manager.Keyed) (details : Details) (report : HeartbeatReport) (now : Instant)
    (id : String) : (manager.heartbeat details report now).1.vitals? id =
      if details.id = id then (manager.vitals? details.id).map fun _ ↦ (.healthy, now) else manager.vitals? id := by
  unfold heartbeat
  simp only
  split
  · next hnone =>
    have habsent : manager.vitals? details.id = none := by rw [vitals?, hnone, Option.map_none]
    split
    · next hsame =>
      rw [habsent, Option.map_none]
      exact hsame ▸ habsent
    · rfl
  · next record hrecord =>
    have hheard : (manager.hear details.id record.status.health report.layout now).Keyed :=
      (manager.tended_hear hkeyed _ _ _ _).keyed hkeyed
    split
    · exact vitals?_hear hkeyed _ _ _ _ id
    · next reported htaken =>
      have hreported := remembers_of_takeReports hheard htaken
      have hsettled := hreported.trans (remembers_settleState hreported.keyed details now)
      exact (hsettled.vitals? id).trans (vitals?_hear hkeyed _ _ _ _ id)

theorem heardAt?_heartbeat (hkeyed : manager.Keyed) (details : Details) (report : HeartbeatReport) (now : Instant)
    (id : String) : (manager.heartbeat details report now).1.heardAt? id =
      if details.id = id then (manager.heardAt? details.id).map fun _ ↦ now else manager.heardAt? id := by
  simp only [heardAt?_eq_map_vitals?, vitals?_heartbeat hkeyed]
  split
  · rw [Option.map_map, Option.map_map]
    rfl
  · rfl

/-! ## Registrations -/

theorem vitals_placedRecord (manager : Manager) (details : Details) (layout : LayoutReport) (now : Instant) :
    (manager.placedRecord details layout now).vitals = (.healthy, now) := by
  unfold placedRecord
  split <;> rfl

/-- A registration that is placed makes its datanode healthy and gives the present time to it. -/
theorem vitals?_placing {request : RegistrationRequest} {inPlace : Manager}
    (h : manager.placing request = (inPlace, none)) (id : String) :
    inPlace.vitals? id = if request.details.id = id then some (.healthy, manager.clock) else manager.vitals? id := by
  unfold vitals?
  rw [registry_of_place h, Registry.get?, OrderedMap.get?_insert]
  split
  · rw [Option.map_some, vitals_placedRecord]
  · rfl

theorem heardAt?_placing {request : RegistrationRequest} {inPlace : Manager}
    (h : manager.placing request = (inPlace, none)) (id : String) :
    inPlace.heardAt? id = if request.details.id = id then some manager.clock else manager.heardAt? id := by
  simp only [heardAt?_eq_map_vitals?, vitals?_placing h]
  split <;> rfl

theorem remembers_completeRegistration (hkeyed : manager.Keyed) (placed : PlacedRegistration) :
    manager.Remembers (manager.completeRegistration placed).1 := by
  unfold completeRegistration
  simp only
  split
  · exact .of_registry hkeyed rfl
  · next stocked hstocked =>
    have hnoted := remembers_of_noteUsage hkeyed hstocked
    refine hnoted.trans (.of_registry hnoted.keyed ?_)
    exact (alike_announce _ placed).registry.trans (stocked.registry_queueFinalize _ _ _ _)

/-- A registration that the topology refuses changes no record. -/
theorem registry_of_placing_refused {request : RegistrationRequest} {refused : Manager} {refusal : Refusal}
    (h : manager.placing request = (refused, some refusal)) : refused.registry = manager.registry := by
  unfold placing place at h
  simp only at h
  split at h
  · split at h
    · rw [← (Prod.mk.inj h).1]
    · simp at h
  · split at h
    · rw [← (Prod.mk.inj h).1]
    · simp at h

/-! ## Removals and operational states -/

theorem vitals?_forget (manager : Manager) (forgotten id : String) :
    (manager.forget forgotten).vitals? id = if forgotten = id then none else manager.vitals? id := by
  have hregistry : (manager.forget forgotten).registry = manager.registry.erase forgotten := rfl
  unfold vitals?
  rw [hregistry, Registry.get?_erase]
  split <;> rfl

theorem heardAt?_forget (manager : Manager) (forgotten id : String) :
    (manager.forget forgotten).heardAt? id = if forgotten = id then none else manager.heardAt? id := by
  simp only [heardAt?_eq_map_vitals?, vitals?_forget]
  split <;> rfl

theorem remembers_beginStateChange (hkeyed : manager.Keyed) (id : String) (state expiry : Field) (reply : Reply) :
    manager.Remembers (manager.beginStateChange id state expiry reply).1 := by
  cases hrecord : manager.registry.get? id with
  | none =>
    rw [beginStateChange_of_absent ((Registry.contains_eq_false_iff _ _).mpr hrecord)]
    exact .of_registry hkeyed rfl
  | some record =>
    obtain ⟨note, hbegin⟩ := exists_beginStateChange_eq hrecord state expiry reply
    rw [hbegin]
    have hrestated := remembers_restate hkeyed id state (Registry.expiryOrNever expiry) manager.clock
    exact hrestated.trans (.of_registry hrestated.keyed rfl)

end Manager

/-! ## Operations -/

namespace World

/-- The start of an operation gives a time to the last heartbeat of a datanode. -/
inductive Dates (before : World) : Operation → String → Instant → Prop
  /-- A registration takes the present time. -/
  | registers (request : RegistrationRequest) : Dates before (.register request) request.details.id before.clock
  /-- Of a primary a heartbeat brings the time at which it was issued. -/
  | brings (hprimary : before.service.observer = none) (details : Details) (report : HeartbeatReport)
      (issuedAt : Instant) : Dates before (.heartbeat details report issuedAt) details.id issuedAt
  /-- Of an observer it takes the present time. -/
  | observes {observer : Observer} (hobserver : before.service.observer = some observer) (details : Details)
      (report : HeartbeatReport) (issuedAt : Instant) :
      Dates before (.heartbeat details report issuedAt) details.id before.clock

variable {world : World} {id : String} {time : Instant}

theorem heardAt?_start_register (hkeyed : world.manager.Keyed) (request : RegistrationRequest)
    (h : (world.start (.register request)).1.manager.heardAt? id = some time) :
    world.manager.heardAt? id = some time ∨ world.Dates (.register request) id time := by
  have hplaced {inPlace : Manager} (hplacing : world.manager.placing request = (inPlace, none))
      (hinPlace : inPlace.heardAt? id = some time) :
      world.manager.heardAt? id = some time ∨ world.Dates (.register request) id time := by
    rw [Manager.heardAt?_placing hplacing] at hinPlace
    split at hinPlace
    · next hsame =>
      rw [← Option.some.inj hinPlace, ← hsame]
      exact .inr (.registers request)
    · exact .inl hinPlace
  cases hplacing : world.manager.placing request with
  | mk inPlace refusal =>
    cases refusal with
    | some refusal =>
      rw [start_register_refused hplacing] at h
      have hregistry := (inPlace.alike_refuse request.details refusal).registry.trans
        (Manager.registry_of_placing_refused hplacing)
      refine .inl (Eq.trans ?_ h)
      exact ((Manager.Remembers.of_registry hkeyed hregistry).heardAt? id).symm
    | none =>
      cases hwrite : (if request.persist then inPlace.table else none) with
      | none =>
        rw [start_register_unwritten hplacing hwrite] at h
        have hrenews := Manager.renews_of_placing hkeyed hplacing
        have hinPlace : inPlace.Keyed := hrenews.keyed (Standing.id_renewed _ _) hkeyed
        have hcompleted := Manager.remembers_completeRegistration hinPlace (world.manager.placedBy inPlace request)
        exact hplaced hplacing ((hcompleted.heardAt? id).symm.trans h)
      | some table =>
        rw [start_register_written hplacing hwrite] at h
        exact hplaced hplacing h

/-- Of a primary a heartbeat gives the time at which it was issued to its datanode, if that is registered. -/
theorem heardAt?_start_heartbeat (hkeyed : world.manager.Keyed) (hprimary : world.service.observer = none)
    (details : Details) (report : HeartbeatReport) (issuedAt : Instant) (id : String) :
    (world.start (.heartbeat details report issuedAt)).1.manager.heardAt? id =
      if details.id = id then (world.manager.heardAt? details.id).map fun _ ↦ issuedAt
      else world.manager.heardAt? id := by
  have hstart : (world.start (.heartbeat details report issuedAt)).1.manager =
      (world.manager.heartbeat details report issuedAt).1 := by
    change (world.service.heartbeat details report issuedAt).1.manager = _
    unfold Service.heartbeat
    rw [hprimary]
    rfl
  rw [hstart]
  exact Manager.heardAt?_heartbeat hkeyed details report issuedAt id

theorem heardAt?_start_observed (hkeyed : world.manager.Keyed) {observer : Observer}
    (hobserver : world.service.observer = some observer) (details : Details) (report : HeartbeatReport)
    (issuedAt : Instant) (h : (world.start (.heartbeat details report issuedAt)).1.manager.heardAt? id = some time) :
    world.manager.heardAt? id = some time ∨ world.Dates (.heartbeat details report issuedAt) id time := by
  change (world.service.heartbeat details report issuedAt).1.manager.heardAt? id = some time at h
  unfold Service.heartbeat at h
  rw [hobserver] at h
  unfold Service.observedHeartbeat at h
  simp only at h
  split at h
  · refine .inl (Eq.trans ?_ h)
    unfold Service.refuseOutdated
    cases observer.discards <;> rfl
  · have hheard := Manager.heardAt?_heartbeat hkeyed details report world.clock id
    rw [show (world.manager.heartbeat details report world.clock).1.heardAt? id = some time from h] at hheard
    split at hheard
    · next hsame =>
      obtain ⟨_, -, htime⟩ := Option.map_eq_some_iff.mp hheard.symm
      rw [← htime, ← hsame]
      exact .inr (.observes hobserver details report issuedAt)
    · exact .inl hheard.symm

/-- The time of a last heartbeat is the one from before the start of an operation, or the one that this gives. -/
theorem heardAt?_start (hkeyed : world.manager.Keyed) (operation : Operation)
    (h : (world.start operation).1.manager.heardAt? id = some time) :
    world.manager.heardAt? id = some time ∨ world.Dates operation id time := by
  have hremembers {after : Manager} (hafter : world.manager.Remembers after) (htime : after.heardAt? id = some time) :
      world.manager.heardAt? id = some time := (hafter.heardAt? id).symm.trans htime
  cases operation with
  | register request => exact heardAt?_start_register hkeyed request h
  | heartbeat details report issuedAt =>
    cases hobserver : world.service.observer with
    | some observer => exact heardAt?_start_observed hkeyed hobserver details report issuedAt h
    | none =>
      rw [heardAt?_start_heartbeat hkeyed hobserver] at h
      split at h
      · next hsame =>
        obtain ⟨_, -, htime⟩ := Option.map_eq_some_iff.mp h
        rw [← htime, ← hsame]
        exact .inr (.brings hobserver details report issuedAt)
      · exact .inl h
  | remove removed =>
    cases hregistered : world.manager.registry.contains removed with
    | false =>
      rw [start_remove_of_absent hregistered] at h
      exact .inl h
    | true =>
      cases htable : world.manager.table with
      | none =>
        rw [start_remove_unwritten hregistered htable] at h
        have hforgotten := world.manager.heardAt?_forget removed id
        rw [show (world.manager.forget removed).heardAt? id = some time from h] at hforgotten
        split at hforgotten
        · simp at hforgotten
        · exact .inl hforgotten.symm
      | some table =>
        rw [start_remove_written hregistered htable] at h
        exact .inl h
  | setState changed state expiry =>
    exact .inl (hremembers (Manager.remembers_beginStateChange hkeyed changed state expiry .nothing) h)
  | reconcile changed state expiry =>
    refine .inl (hremembers ?_ h)
    change world.manager.Remembers (Service.beginReconcile world.manager changed state expiry).1
    rcases Manager.beginReconcile_cases world.manager changed state expiry with
      ⟨outcome, -, hbegin⟩ | ⟨noted, hlogged, hbegin⟩
    · rw [hbegin]
      exact .of_registry hkeyed rfl
    · rw [hbegin]
      have hnoted := hlogged.alike.remembers hkeyed
      exact hnoted.trans (Manager.remembers_beginStateChange hnoted.keyed changed state expiry (.changed true))

/-- Under best-effort durability the end of an operation moves no last heartbeat. -/
theorem heardAt?_finish (hkeyed : world.manager.Keyed) (heffort : world.manager.configuration.isStrict = false)
    (remainder : Remainder) (answer : TableAnswer)
    (h : (world.finish remainder answer).1.manager.heardAt? id = some time) :
    world.manager.heardAt? id = some time := by
  generalize hafter : (world.finish remainder answer).1.manager = after at h
  have hfinishes : world.manager.Finishes remainder answer after := hafter ▸ world.finishes remainder answer
  have hsettled (settled : String) (answer : TableAnswer) :
      world.manager.Remembers (world.manager.settleWrite settled answer).1 :=
    .of_registry hkeyed (world.manager.registry_settleWrite settled answer)
  cases hfinishes with
  | @completes placed _ written hwritten =>
    have hkept := hsettled placed.request.details.id answer
    rw [hwritten] at hkept
    have hcompleted := hkept.trans (Manager.remembers_completeRegistration hkept.keyed placed)
    exact (hcompleted.heardAt? id).symm.trans h
  | undoes hstrict _ => simp [heffort] at hstrict
  | forgets =>
    rw [Manager.heardAt?_forget] at h
    split at h
    · simp at h
    · exact h
  | keeps halike => exact ((halike.remembers hkeyed).heardAt? id).symm.trans h
  | settles => exact ((hsettled _ _).heardAt? id).symm.trans h

end World

end ClusterMembership
