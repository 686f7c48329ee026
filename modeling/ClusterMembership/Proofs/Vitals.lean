import ClusterMembership.Proofs.History

/-!
# When datanodes were last heard of

Apart from sweeps, nothing makes the health of a datanode worse than when it was last heard of: a record that is
made or heard of is healthy, every other change of a record keeps its health together with the time of its last
heartbeat, and an undone registration puts a former record back as it was.  `Manager.Spares` says so of two states
of a manager, and there is one lemma for each function that touches the registry.
-/

namespace ClusterMembership

namespace Registry

variable {registry : Registry} {record : NodeRecord}

theorem mem_values_upsert {new : NodeRecord} (h : record ∈ (registry.upsert new).records.values) :
    record = new ∨ record ∈ registry.records.values := by
  obtain ⟨key, hkey⟩ := (OrderedMap.mem_values_iff _ _).mp h
  change (registry.upsert new).get? key = some record at hkey
  rw [get?_upsert] at hkey
  split at hkey
  · exact .inl (Option.some.inj hkey).symm
  · exact .inr ((OrderedMap.mem_values_iff _ _).mpr ⟨key, hkey⟩)

theorem mem_values_erase {id : String} (h : record ∈ (registry.erase id).records.values) :
    record ∈ registry.records.values := by
  obtain ⟨key, hkey⟩ := (OrderedMap.mem_values_iff _ _).mp h
  change (registry.erase id).get? key = some record at hkey
  rw [get?_erase] at hkey
  split at hkey
  · cases hkey
  · exact (OrderedMap.mem_values_iff _ _).mpr ⟨key, hkey⟩

theorem mem_values_amend {id : String} {change : NodeRecord → NodeRecord}
    (h : record ∈ (registry.amend id change).records.values) :
    (∃ former ∈ registry.records.values, record = change former) ∨ record ∈ registry.records.values := by
  unfold amend at h
  split at h
  · next former hformer =>
    obtain hnew | hold := mem_values_upsert h
    · exact .inl ⟨former, (OrderedMap.mem_values_iff _ _).mpr ⟨id, hformer⟩, hnew⟩
    · exact .inr hold
  · exact .inr h

end Registry

def NodeRecord.vitals (record : NodeRecord) : Health × Instant := (record.status.health, record.lastHeartbeat)

namespace Manager

/-- Two states of a manager between which no datanode became less healthy without being heard of. -/
structure Spares (before after : Manager) : Prop where
  setup : (after.configuration, after.authority) = (before.configuration, before.authority)
  vitals : ∀ {record}, record ∈ after.registry.records.values → record.status.health = .healthy ∨
    ∃ former ∈ before.registry.records.values, record.vitals = former.vitals

namespace Spares

variable {before middle after : Manager}

theorem configuration (h : before.Spares after) : after.configuration = before.configuration :=
  congrArg Prod.fst h.setup

theorem authority (h : before.Spares after) : after.authority = before.authority := congrArg Prod.snd h.setup

theorem of_registry (hregistry : after.registry = before.registry)
    (hsetup : (after.configuration, after.authority) = (before.configuration, before.authority)) :
    before.Spares after where
  setup := hsetup
  vitals hrecord := .inr ⟨_, hregistry ▸ hrecord, rfl⟩

protected theorem refl (manager : Manager) : manager.Spares manager := of_registry rfl rfl

protected theorem trans (hfirst : before.Spares middle) (hsecond : middle.Spares after) : before.Spares after where
  setup := hsecond.setup.trans hfirst.setup
  vitals hrecord := by
    obtain hhealthy | ⟨former, hformer, hsame⟩ := hsecond.vitals hrecord
    · exact .inl hhealthy
    · obtain hhealthy | ⟨first, hfirst, hsameFirst⟩ := hfirst.vitals hformer
      · exact .inl ((congrArg Prod.fst hsame).trans hhealthy)
      · exact .inr ⟨first, hfirst, hsame.trans hsameFirst⟩

end Spares

theorem Alike.spares {before after : Manager} (h : before.Alike after) : before.Spares after :=
  .of_registry h.registry (congrArg (fun settings ↦ (settings.configuration, settings.authority)) h.settings)

variable (manager : Manager)

theorem spares_note (note : Note) : manager.Spares (manager.note note) := .of_registry rfl rfl

/-! ## Single records -/

theorem spares_upsert {record : NodeRecord} (hrecord : record.status.health = .healthy ∨
    ∃ former ∈ manager.registry.records.values, record.vitals = former.vitals) :
    manager.Spares { manager with registry := manager.registry.upsert record } where
  setup := rfl
  vitals hmem := by
    obtain rfl | hold := Registry.mem_values_upsert hmem
    · exact hrecord
    · exact .inr ⟨_, hold, rfl⟩

theorem spares_erase (id : String) : manager.Spares { manager with registry := manager.registry.erase id } where
  setup := rfl
  vitals hmem := .inr ⟨_, Registry.mem_values_erase hmem, rfl⟩

theorem spares_amend (id : String) (change : NodeRecord → NodeRecord)
    (hchange : ∀ record, (change record).status.health = .healthy ∨ (change record).vitals = record.vitals) :
    manager.Spares { manager with registry := manager.registry.amend id change } where
  setup := rfl
  vitals hmem := by
    obtain ⟨former, hformer, rfl⟩ | hold := Registry.mem_values_amend hmem
    · exact (hchange former).imp_right fun hsame ↦ ⟨former, hformer, hsame⟩
    · exact .inr ⟨_, hold, rfl⟩

/-! ## Heartbeats -/

theorem spares_hear (id : String) (previous : Health) (layout : Option LayoutReport) (now : Instant) :
    manager.Spares (manager.hear id previous layout now) := by
  have hheard := manager.spares_amend id (Registry.heard layout now) fun _ ↦ .inl rfl
  unfold hear
  simp only
  split
  · exact hheard
  · exact hheard.trans (.of_registry rfl rfl)

variable {manager} in
theorem spares_of_noteUsage {id : String} {report : Option NodeReport} {now : Instant} {after : Manager}
    (h : manager.noteUsage id report now = .ok after) : manager.Spares after := by
  obtain rfl | ⟨usage, rfl⟩ := noteUsage_cases h
  · exact .refl after
  · exact manager.spares_amend id (Registry.stocked usage now) fun _ ↦ .inr rfl

theorem spares_queueFinalize (id : String) (details : Details) (reported : LayoutReport) (now : Instant) :
    manager.Spares (manager.queueFinalize id details reported now) := by
  have hnoted := (manager.alike_noteAll (manager.layout.checkNotes details reported)).spares
  unfold queueFinalize
  simp only
  split
  · exact hnoted
  · exact hnoted.trans (.of_registry rfl rfl)

variable {manager} in
theorem spares_of_takeReports {id : String} {details : Details} {report : HeartbeatReport} {now : Instant}
    {after : Manager} (h : manager.takeReports id details report now = .ok after) : manager.Spares after := by
  obtain ⟨stocked, hstocked, commands, entries, rfl⟩ := exists_stocked_of_takeReports h
  exact (spares_of_noteUsage hstocked).trans (.of_registry rfl rfl)

theorem spares_settleState (details : Details) (now : Instant) :
    manager.Spares (manager.settleState details now) := by
  unfold settleState
  simp only
  split
  · exact .refl manager
  · split
    · exact .refl manager
    · split
      · refine (manager.spares_note _).trans (spares_amend _ _ _ fun _ ↦ .inr rfl)
      · exact .of_registry rfl rfl

theorem spares_heartbeat (details : Details) (report : HeartbeatReport) (now : Instant) :
    manager.Spares (manager.heartbeat details report now).1 := by
  unfold heartbeat
  simp only
  split
  · exact manager.spares_note _
  · next record _ =>
    have hheard := manager.spares_hear details.id record.status.health report.layout now
    split
    · exact hheard
    · next reported htaken =>
      have hsettled := (hheard.trans (spares_of_takeReports htaken)).trans (reported.spares_settleState details now)
      exact hsettled.trans (.of_registry rfl rfl)

/-! ## Registrations -/

theorem spares_place (details : Details) (layout : LayoutReport) (now : Instant) :
    manager.Spares (manager.place details layout now).1 := by
  unfold place
  simp only
  split
  · split
    · exact .of_registry rfl rfl
    · have hdetailed := manager.spares_amend details.id (Registry.detailed details now) fun _ ↦ .inr rfl
      have hheard := spares_amend
        { manager with registry := manager.registry.amend details.id (Registry.detailed details now) }
        details.id (Registry.heard (some layout) now) fun _ ↦ .inl rfl
      exact (hdetailed.trans hheard).trans (.of_registry rfl rfl)
  · split
    · exact .refl manager
    · have hhealthy : (NodeRecord.registered details layout now).status.health = .healthy := rfl
      exact (manager.spares_upsert (.inl hhealthy)).trans (.of_registry rfl rfl)

theorem spares_placing (request : RegistrationRequest) : manager.Spares (manager.placing request).1 := by
  have hknown : manager.Spares { manager with known := manager.known.record request.details } := .of_registry rfl rfl
  exact hknown.trans (spares_place _ _ _ _)

theorem spares_settleWrite (id : String) (answer : TableAnswer) :
    manager.Spares (manager.settleWrite id answer).1 := by
  unfold settleWrite
  split
  · exact .of_registry rfl rfl
  · simp only
    split
    · exact manager.spares_note _
    · obtain ⟨marks, hmarks⟩ := markUnsynced_eq (manager.note _) id
      rw [hmarks]
      exact .of_registry rfl rfl

theorem spares_completeRegistration (placed : PlacedRegistration) :
    manager.Spares (manager.completeRegistration placed).1 := by
  unfold completeRegistration
  simp only
  split
  · exact .refl manager
  · next stocked hstocked =>
    have hqueued := (spares_of_noteUsage hstocked).trans
      (stocked.spares_queueFinalize placed.request.details.id placed.stored placed.layout placed.now)
    exact (hqueued.trans (alike_withCluster _ _).spares).trans (alike_announce _ placed).spares

/-- Undoing a placement puts a record back that was there before. -/
theorem spares_undoPlacement {before manager : Manager} (hspares : before.Spares manager)
    {placed : PlacedRegistration} (hprevious : ∀ record, placed.previous = some record →
      record ∈ before.registry.records.values) : before.Spares (manager.undoPlacement placed) := by
  unfold undoPlacement
  simp only
  split
  · exact (hspares.trans (manager.spares_erase _)).trans (.of_registry rfl rfl)
  · next previous hrecord =>
    have hupsert : before.Spares { manager with registry := manager.registry.upsert previous } := by
      refine ⟨hspares.setup, fun hmem ↦ ?_⟩
      obtain rfl | hold := Registry.mem_values_upsert hmem
      · exact .inr ⟨_, hprevious _ hrecord, rfl⟩
      · exact hspares.vitals hold
    split
    · exact hupsert.trans (.of_registry rfl rfl)
    · exact hupsert.trans (.of_registry rfl rfl)

theorem spares_finishRegistration {before manager : Manager} (hspares : before.Spares manager)
    {placed : PlacedRegistration} (hprevious : ∀ record, placed.previous = some record →
      record ∈ before.registry.records.values) (answer : TableAnswer) :
    before.Spares (manager.finishRegistration placed answer).1 := by
  have hsettled := hspares.trans (manager.spares_settleWrite placed.request.details.id answer)
  unfold finishRegistration
  split
  · next written hwritten =>
    rw [hwritten] at hsettled
    exact hsettled.trans (written.spares_completeRegistration placed)
  · next failed failure hfailed =>
    rw [hfailed] at hsettled
    exact spares_undoPlacement hsettled hprevious

/-! ## Removals, operational states and commands -/

theorem spares_forget (id : String) : manager.Spares (manager.forget id) :=
  (manager.spares_erase id).trans (.of_registry rfl rfl)

theorem spares_onCommand (id : String) (command : Command) : manager.Spares (manager.onCommand id command) := by
  unfold onCommand
  split <;> exact .of_registry rfl rfl

theorem spares_restate (id : String) (state expiry : Field) (now : Instant) :
    manager.Spares (manager.restate id state expiry now) :=
  manager.spares_amend id _ fun _ ↦ .inr rfl

end Manager

namespace World

/-! ## Operations -/

theorem spares_run_register (world : World) (request : RegistrationRequest) :
    world.manager.Spares (world.run (.register request)).1.manager := by
  have hplaced := world.manager.spares_placing request
  have hprevious (inPlace : Manager) (record : NodeRecord)
      (h : (world.manager.placedBy inPlace request).previous = some record) :
      record ∈ world.manager.registry.records.values :=
    (OrderedMap.mem_values_iff _ _).mpr ⟨_, h⟩
  cases hplacing : world.manager.placing request with
  | mk inPlace refusal =>
    rw [hplacing] at hplaced
    cases refusal with
    | some refusal =>
      rw [run_register_refused hplacing]
      exact hplaced.trans (inPlace.alike_refuse _ _).spares
    | none =>
      cases hwrite : (if request.persist then inPlace.table else none) with
      | none =>
        rw [run_register_unwritten hplacing hwrite]
        exact hplaced.trans (inPlace.spares_completeRegistration _)
      | some table =>
        rw [run_register_written hplacing hwrite rfl]
        exact Manager.spares_finishRegistration
          (hplaced.trans (world.alike_askedToPut inPlace table request).spares) (hprevious inPlace) _

theorem spares_heartbeat (service : Service) (details : Details) (report : HeartbeatReport) (issuedAt : Instant) :
    service.manager.Spares (service.heartbeat details report issuedAt).1.manager := by
  unfold Service.heartbeat
  split
  · exact service.manager.spares_heartbeat details report issuedAt
  · next observer _ =>
    unfold Service.observedHeartbeat
    simp only
    split
    · unfold Service.refuseOutdated
      cases observer.discards <;> exact .of_registry rfl rfl
    · exact service.manager.spares_heartbeat details report _

theorem spares_run_remove (world : World) (id : String) :
    world.manager.Spares (world.run (.remove id)).1.manager := by
  obtain ⟨failure, -, hlogged⟩ | ⟨asked, hlogged, -, hforgotten⟩ := world.run_remove_cases id
  · exact hlogged.alike.spares
  · rw [hforgotten]
    exact hlogged.alike.spares.trans (asked.spares_forget id)

theorem spares_runStateChange (world : World) (id : String) (state expiry : Field) (reply : Reply) :
    world.manager.Spares
      (world.runStateChange id (world.manager.beginStateChange id state expiry reply)).1.manager := by
  cases hrecord : world.manager.registry.get? id with
  | none =>
    rw [Manager.beginStateChange_of_absent ((Registry.contains_eq_false_iff _ _).mpr hrecord)]
    exact .refl world.manager
  | some record =>
    obtain ⟨note, hbegin⟩ := Manager.exists_beginStateChange_eq hrecord state expiry reply
    have hrestated := (world.manager.spares_restate id state (Registry.expiryOrNever expiry)
      world.manager.clock).trans (Manager.spares_note _ note)
    rw [hbegin]
    cases world.manager.table with
    | none => exact hrestated
    | some table =>
      exact (hrestated.trans (alike_ask (world.withManager _) table _).spares).trans
        (Manager.spares_settleWrite _ id _)

theorem spares_run (world : World) (operation : Operation) :
    world.manager.Spares (world.run operation).1.manager := by
  cases operation with
  | register request => exact world.spares_run_register request
  | heartbeat details report issuedAt =>
    rw [run_heartbeat]
    exact spares_heartbeat world.service details report issuedAt
  | remove id => exact world.spares_run_remove id
  | setState id state expiry =>
    rw [run_setState]
    exact world.spares_runStateChange id state expiry .nothing
  | reconcile id state expiry =>
    rw [run_reconcile]
    obtain ⟨outcome, -, hbegin⟩ | ⟨noted, hlogged, hbegin⟩ := world.manager.beginReconcile_cases id state expiry
    · rw [hbegin]
      exact .refl world.manager
    · rw [hbegin]
      exact hlogged.alike.spares.trans (spares_runStateChange (world.withManager noted) id state expiry (.changed true))

theorem spares_serve (world : World) (request : OperationRequest) :
    world.manager.Spares (world.serve request).1.manager := by
  have hprepared : world.manager.Spares (world.prepare request).1.manager := by
    cases request with
    | register offered _ _ _ => exact (world.manager.alike_screen offered).spares
    | _ => exact .refl world.manager
  unfold serve
  split
  · next refused failure hrefused => rwa [hrefused] at hprepared
  · next ready operation hready =>
    rw [hready] at hprepared
    exact hprepared.trans (ready.spares_run operation)

theorem spares_load (world : World) : world.manager.Spares world.load.1.manager := by
  apply load_induction (P := fun reached ↦ world.manager.Spares reached.manager) _ _ _ _ (.refl world.manager)
  · intro reached number request hreached
    exact hreached.trans (reached.alike_ask number request).spares
  · intro reached after hreached hnoted
    exact hreached.trans hnoted.alike.spares
  · intro reached field details hreached _
    exact hreached.trans (reached.spares_run_register _)
  · intro reached number hreached
    rwa [manager_iterate]

end World

end ClusterMembership
