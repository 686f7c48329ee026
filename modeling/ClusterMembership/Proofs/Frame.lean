import ClusterMembership.Proofs.History
import ClusterMembership.Proofs.Waiting

/-!
# What operations leave alone

A service keeps its settings, except when it switches to another table or its layout is finalized.  What an
observer has seen changes with heartbeats and with removals that succeed.  There is one lemma for each operation,
and one for a load.
-/

namespace ClusterMembership

namespace Manager

/-! ## Settings -/

variable (manager : Manager)

theorem settings_completeRegistration (placed : PlacedRegistration) :
    (manager.completeRegistration placed).1.settings = manager.settings := by
  obtain ⟨registry, commands, cluster, trace, hcompleted⟩ := manager.exists_frame_completeRegistration placed
  rw [hcompleted]
  rfl

theorem settings_finishRegistration (placed : PlacedRegistration) (answer : TableAnswer) :
    (manager.finishRegistration placed answer).1.settings = manager.settings := by
  have hsettled := manager.settings_settleWrite placed.request.details.id answer
  unfold finishRegistration
  split
  · next written hwritten =>
    rw [hwritten] at hsettled
    exact (written.settings_completeRegistration placed).trans hsettled
  · next failed failure hfailed =>
    rw [hfailed] at hsettled
    exact (failed.quiet_undoPlacement placed).settings.trans hsettled

/-! ## Readable reports -/

/-- A report whose volumes, if there is one, are listed is noted. -/
theorem exists_noteUsage_eq (id : String) {report : Option NodeReport}
    (hlisted : ∀ given ∈ report, given.volumes ≠ none) (now : Instant) :
    ∃ stocked, manager.noteUsage id report now = .ok stocked := by
  unfold noteUsage
  split
  · exact ⟨manager, rfl⟩
  · next given =>
    obtain ⟨volumes, hvolumes⟩ := Option.ne_none_iff_exists'.mp (hlisted given rfl)
    rw [NodeReport.usage, hvolumes]
    exact ⟨_, rfl⟩

end Manager

namespace World

variable {world : World}

theorem settings_run_register (world : World) (request : RegistrationRequest) :
    (world.run (.register request)).1.manager.settings = world.manager.settings := by
  cases hplacing : world.manager.placing request with
  | mk inPlace refusal =>
    have hplaced := (Manager.quiet_of_placing hplacing).settings
    cases refusal with
    | some refusal =>
      rw [run_register_refused hplacing]
      exact (inPlace.alike_refuse request.details refusal).settings.trans hplaced
    | none =>
      cases hwrite : (if request.persist then inPlace.table else none) with
      | none =>
        rw [run_register_unwritten hplacing hwrite]
        exact (inPlace.settings_completeRegistration _).trans hplaced
      | some table =>
        rw [run_register_written hplacing hwrite rfl]
        have hasked := (world.alike_askedToPut inPlace table request).settings
        exact (Manager.settings_finishRegistration _ _ _).trans (hasked.trans hplaced)

theorem settings_run_heartbeat (world : World) (details : Details) (report : HeartbeatReport) (issuedAt : Instant) :
    (world.run (.heartbeat details report issuedAt)).1.manager.settings = world.manager.settings := by
  rw [run_heartbeat]
  unfold manager Service.heartbeat
  simp only
  split
  · exact (world.service.manager.monitored_heartbeat details report issuedAt).settings
  · next observer _ =>
    unfold Service.observedHeartbeat
    simp only
    split
    · exact (Manager.tended_refuseOutdated _ observer details _).settings
    · exact (world.service.manager.monitored_heartbeat details report _).settings

theorem settings_run_remove (world : World) (id : String) :
    (world.run (.remove id)).1.manager.settings = world.manager.settings := by
  obtain ⟨failure, -, hlogged⟩ | ⟨asked, hlogged, -, hforgotten⟩ := world.run_remove_cases id
  · exact hlogged.alike.settings
  · rw [hforgotten]
    exact hlogged.alike.settings

theorem settings_runStateChange (world : World) (id : String) (state expiry : Field) (reply : Reply) :
    (world.runStateChange id (world.manager.beginStateChange id state expiry reply)).1.manager.settings =
      world.manager.settings := by
  cases hrecord : world.manager.registry.get? id with
  | none =>
    rw [Manager.beginStateChange_of_absent ((Registry.contains_eq_false_iff _ _).mpr hrecord)]
    rfl
  | some record =>
    obtain ⟨note, hbegin⟩ := Manager.exists_beginStateChange_eq hrecord state expiry reply
    rw [hbegin]
    cases world.manager.table with
    | none => rfl
    | some table =>
      exact (Manager.settings_settleWrite _ id _).trans (alike_ask (world.withManager _) table _).settings

theorem settings_run (world : World) (operation : Operation) :
    (world.run operation).1.manager.settings = world.manager.settings := by
  cases operation with
  | register request => exact world.settings_run_register request
  | heartbeat details report issuedAt => exact world.settings_run_heartbeat details report issuedAt
  | remove id => exact world.settings_run_remove id
  | setState id state expiry =>
    rw [run_setState]
    exact world.settings_runStateChange id state expiry .nothing
  | reconcile id state expiry =>
    rw [run_reconcile]
    obtain ⟨outcome, -, hbegin⟩ | ⟨noted, hlogged, hbegin⟩ := world.manager.beginReconcile_cases id state expiry
    · rw [hbegin]
      rfl
    · rw [hbegin]
      have hchanged := settings_runStateChange (world.withManager noted) id state expiry (.changed true)
      exact hchanged.trans hlogged.alike.settings

theorem settings_serve (world : World) (request : OperationRequest) :
    (world.serve request).1.manager.settings = world.manager.settings := by
  have hprepared : (world.prepare request).1.manager.settings = world.manager.settings := by
    cases request with
    | register offered _ _ _ => exact (world.manager.alike_screen offered).settings
    | _ => rfl
  unfold serve
  split
  · next refused failure hrefused => rwa [hrefused] at hprepared
  · next ready operation hready =>
    rw [hready] at hprepared
    exact (ready.settings_run operation).trans hprepared

theorem settings_load (world : World) : world.load.1.manager.settings = world.manager.settings := by
  apply load_induction (P := fun reached ↦ reached.manager.settings = world.manager.settings) _ _ _ _ rfl
  · exact fun number request hreached ↦ (alike_ask _ number request).settings.trans hreached
  · exact fun hreached hnoted ↦ hnoted.alike.settings.trans hreached
  · exact fun hreached _ ↦ (settings_run_register _ _).trans hreached
  · intro reached number hreached
    rwa [manager_iterate]

/-- A call changes the settings only by switching to another table. -/
theorem settings_call (hkeyed : world.manager.Keyed) {call : Call} (hcall : ∀ table, call ≠ .switch table) :
    (world.call call).1.manager.settings = world.manager.settings := by
  cases call with
  | operate request => exact world.settings_serve request
  | queue id command => exact (world.tended_queue id command).settings
  | take id command => exact (world.tended_take id command).settings
  | purge id => rfl
  | refreshUsage =>
    unfold World.call Service.refreshUsage
    simp only
    split <;> rfl
  | sweep moment => exact (Manager.tended_checkHeartbeats _ hkeyed _).settings
  | load => exact world.settings_load
  | switch table => exact absurd rfl (hcall table)

/-! ## What an observer has seen -/

theorem observer_run_register (world : World) (request : RegistrationRequest) :
    (world.run (.register request)).1.service.observer = world.service.observer := by
  cases hplacing : world.manager.placing request with
  | mk inPlace refusal =>
    cases refusal with
    | some refusal =>
      rw [run_register_refused hplacing]
      rfl
    | none =>
      cases hwrite : (if request.persist then inPlace.table else none) with
      | none =>
        rw [run_register_unwritten hplacing hwrite]
        rfl
      | some table =>
        rw [run_register_written hplacing hwrite rfl]
        exact (world.withManager inPlace).observer_ask table _

theorem observer_run_heartbeat (world : World) (details : Details) (report : HeartbeatReport) (issuedAt : Instant) :
    (world.run (.heartbeat details report issuedAt)).1.service.observer =
      world.service.observer.map fun observer ↦ observer.see details.id world.clock := by
  rw [run_heartbeat]
  simp only [Service.heartbeat]
  cases hobserver : world.service.observer with
  | none => exact hobserver
  | some observer =>
    simp only [Service.observedHeartbeat]
    split <;> rfl

/-- With a removal that succeeds an observer forgets when it saw the datanode, and only then. -/
theorem observer_run_remove (world : World) (id : String) :
    ((world.run (.remove id)).2 = .ok .nothing ∧ (world.run (.remove id)).1.service.observer =
        world.service.observer.map fun observer ↦ observer.forget id) ∨
      (∃ failure, (world.run (.remove id)).2 = .error failure) ∧
        (world.run (.remove id)).1.service.observer = world.service.observer := by
  cases hregistered : world.manager.registry.contains id with
  | false =>
    rw [run_remove_of_absent hregistered]
    exact .inr ⟨⟨_, rfl⟩, rfl⟩
  | true =>
    cases htable : world.manager.table with
    | none =>
      rw [run_remove_unwritten hregistered htable]
      exact .inl ⟨rfl, rfl⟩
    | some table =>
      cases hask : world.ask table (.delete id) with
      | mk asked answer =>
        have hasked := world.observer_ask table (.delete id)
        rw [hask] at hasked
        rw [run_remove_written hregistered htable hask]
        cases answer with
        | ok _ =>
          have hforgotten := congrArg (Option.map fun observer : Observer ↦ observer.forget id) hasked
          exact .inl ⟨rfl, hforgotten⟩
        | error cause => exact .inr ⟨⟨_, rfl⟩, hasked⟩

theorem observer_runStateChange (world : World) (id : String) (begun : Manager × Progress Reply) :
    (world.runStateChange id begun).1.service.observer = world.service.observer := by
  obtain ⟨after, progress⟩ := begun
  cases progress with
  | ended outcome => rfl
  | asking table request reply => exact (world.withManager after).observer_ask table request

theorem observer_serve_register (world : World) (offered : Field) (nodeReport : Option NodeReport)
    (pipelineReport : Field) (layout : Option LayoutReport) :
    (world.serve (.register offered nodeReport pipelineReport layout)).1.service.observer =
      world.service.observer := by
  obtain ⟨refused, failure, -, hserved⟩ | ⟨details, -, -, hserved⟩ :=
    world.serve_register_cases offered nodeReport pipelineReport layout
  · rw [hserved]
    rfl
  · rw [hserved]
    exact world.observer_run_register _

theorem observer_load (world : World) : world.load.1.service.observer = world.service.observer := by
  apply load_induction (P := fun reached ↦ reached.service.observer = world.service.observer) _ _ _ _ rfl
  · exact fun number request hreached ↦ (observer_ask _ number request).trans hreached
  · exact fun hreached _ ↦ hreached
  · exact fun hreached _ ↦ (observer_run_register _ _).trans hreached
  · intro reached number hreached
    unfold iterate
    split <;> exact hreached

/-- Moves other than heartbeats and removals leave an observer as it is. -/
theorem observer_move_of_idle {move : Move}
    (hbeats : ∀ offered report, move ≠ .call (.operate (.heartbeat offered report)))
    (hremoves : ∀ id, move ≠ .call (.operate (.remove id))) :
    (world.move move).service.observer = world.service.observer := by
  cases move with
  | call call =>
    cases call with
    | operate request =>
      cases request with
      | register offered nodeReport pipelineReport layout => exact world.observer_serve_register offered _ _ _
      | heartbeat offered report => exact absurd rfl (hbeats offered report)
      | remove id => exact absurd rfl (hremoves id)
      | setState id state expiry =>
        exact (congrArg (fun run ↦ run.1.service.observer) (world.run_setState id state expiry)).trans
          (world.observer_runStateChange id _)
      | reconcile id state expiry =>
        exact (congrArg (fun run ↦ run.1.service.observer) (world.run_reconcile id state expiry)).trans
          (world.observer_runStateChange id _)
    | queue id command =>
      unfold World.move World.call
      simp only
      split <;> rfl
    | take id command =>
      unfold World.move World.call Service.onCommand
      simp only
      split <;> rfl
    | refreshUsage =>
      unfold World.move World.call Service.refreshUsage
      simp only
      split <;> rfl
    | purge id => rfl
    | sweep moment => rfl
    | load => exact world.observer_load
    | switch table => exact (world.switchTable table).observer_load
  | _ => rfl

end World

end ClusterMembership
