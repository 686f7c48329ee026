import ClusterMembership.Proofs.StartupLoad

/-!
# The condition of the cluster

Whether the cluster is healthy and whether the code of a refused registration is set are two fields, and nothing in
the types keeps them in step.  Registrations alone touch the health: one that is answered sets both fields, one that
fails sets none, and every other operation leaves the condition as it is, except that a load sets or clears the code
of a failed load.
-/

namespace ClusterMembership

namespace ClusterContext

/-- The cluster is healthy exactly when the code of a refused registration is absent. -/
def InStep (context : ClusterContext) : Prop := context.healthy = !context.hasError invalidTopology

variable {context : ClusterContext} {refused : Bool}

theorem Tells.inStep (h : context.Tells refused) : context.InStep := by
  unfold InStep
  rw [h.code, h.healthy]

theorem InStep.tells (h : context.InStep) : context.Tells (context.hasError invalidTopology) := ⟨rfl, h⟩

theorem InStep.healthy_iff (h : context.InStep) :
    context.healthy = true ↔ context.hasError invalidTopology = false := by
  rw [InStep] at h
  rw [h, Bool.not_eq_true']

/-- The code of a failed load is another one. -/
theorem Tells.addError (h : context.Tells refused) : (context.addError loadFailed).Tells refused := by
  have hother : invalidTopology ≠ loadFailed := by decide
  unfold ClusterContext.addError
  split
  · exact h
  · refine ⟨?_, h.healthy⟩
    rw [← h.code]
    simp [hasError, hother]

/-- How the condition of the cluster follows the outcome of a registration. -/
inductive Follows (before : ClusterContext) : Outcome → ClusterContext → Prop
  | answered {acknowledgement : Acknowledgement} {after : ClusterContext} (h : after.Tells !acknowledgement.permitted) :
      Follows before (.ok (.acknowledged acknowledgement)) after
  | failed (failure : Failure) : Follows before (.error failure) before

theorem Follows.inStep {before after : ClusterContext} {outcome : Outcome} (h : before.Follows outcome after)
    (hbefore : before.InStep) : after.InStep := by
  cases h with
  | answered htells => exact htells.inStep
  | failed failure => exact hbefore

end ClusterContext

namespace Manager

variable (manager : Manager)

/-! ## Registrations -/

theorem cluster_placing (request : RegistrationRequest) : (manager.placing request).1.cluster = manager.cluster := by
  obtain ⟨registry, topology, hplace⟩ :=
    ({ manager with known := manager.known.record request.details } : Manager).exists_place_eq request.details
      (request.layout.getD manager.layout.report) manager.clock
  unfold placing
  rw [hplace]

theorem follows_refuse (details : Details) (refusal : Refusal) :
    manager.cluster.Follows (.ok (.acknowledged (manager.refuse details refusal).2))
      (manager.refuse details refusal).1.cluster :=
  .answered (ClusterContext.tells_refused _)

theorem follows_completeRegistration (placed : PlacedRegistration) :
    manager.cluster.Follows ((manager.completeRegistration placed).2.map Reply.acknowledged)
      (manager.completeRegistration placed).1.cluster := by
  unfold completeRegistration
  simp only
  split
  · next failure _ => exact .failed failure
  · next stocked _ =>
    refine .answered ?_
    obtain ⟨trace, hannounced⟩ := exists_announce_eq _ placed
    rw [hannounced]
    exact ClusterContext.tells_accepted _

theorem cluster_settleWrite (id : String) (answer : TableAnswer) :
    (manager.settleWrite id answer).1.cluster = manager.cluster := by
  obtain ⟨marks, trace, hsettled⟩ := manager.exists_settleWrite_eq id answer
  rw [hsettled]

theorem cluster_undoPlacement (placed : PlacedRegistration) :
    (manager.undoPlacement placed).cluster = manager.cluster := by
  unfold undoPlacement
  simp only
  split
  · rfl
  · split <;> rfl

theorem follows_finishRegistration (placed : PlacedRegistration) (answer : TableAnswer) :
    manager.cluster.Follows (manager.finishRegistration placed answer).2
      (manager.finishRegistration placed answer).1.cluster := by
  have hsettled := manager.cluster_settleWrite placed.request.details.id answer
  unfold finishRegistration
  split
  · next written hwritten =>
    rw [hwritten] at hsettled
    rw [← hsettled]
    exact written.follows_completeRegistration placed
  · next failed failure hfailed =>
    rw [hfailed] at hsettled
    rw [failed.cluster_undoPlacement placed, hsettled]
    exact .failed failure

/-! ## Loads -/

theorem cluster_screen (offered : Field) : (manager.screen offered).1.cluster = manager.cluster := by
  unfold screen
  split
  · rfl
  · rfl
  · split <;> rfl

variable {manager}

theorem inStep_loadFailed (h : manager.cluster.InStep) (failure : Failure) (loaded : Nat) :
    (manager.loadFailed failure loaded).cluster.InStep :=
  (ClusterContext.Tells.addError h.tells).inStep

theorem inStep_takeEntry (h : manager.cluster.InStep) (loaded : Nat) (answer : TableAnswer) :
    (manager.takeEntry loaded answer).1.cluster.InStep := by
  unfold takeEntry
  split
  · exact inStep_loadFailed h _ loaded
  · exact (ClusterContext.Tells.removeError h.tells).inStep
  · next entry =>
    have hscreened := manager.cluster_screen entry.details
    split
    · next refused failure hrefused =>
      rw [hrefused] at hscreened
      exact inStep_loadFailed (hscreened ▸ h) failure loaded
    · next admitted details hadmitted =>
      rw [hadmitted] at hscreened
      exact hscreened ▸ h

theorem inStep_takeRegistered (h : manager.cluster.InStep) (entry : String) (loaded : Nat) (outcome : Outcome) :
    (manager.takeRegistered entry loaded outcome).1.cluster.InStep := by
  unfold takeRegistered
  split
  · exact inStep_loadFailed h _ loaded
  · exact h
  · exact h

end Manager

namespace World

variable {world : World}

/-! ## Registrations -/

theorem follows_run_register (world : World) (request : RegistrationRequest) :
    world.manager.cluster.Follows (world.run (.register request)).2
      (world.run (.register request)).1.manager.cluster := by
  have hplaced := world.manager.cluster_placing request
  cases hplacing : world.manager.placing request with
  | mk inPlace refusal =>
    rw [hplacing] at hplaced
    rw [← hplaced]
    cases refusal with
    | some refusal =>
      rw [run_register_refused hplacing]
      exact inPlace.follows_refuse request.details refusal
    | none =>
      cases hwrite : (if request.persist then inPlace.table else none) with
      | none =>
        rw [run_register_unwritten hplacing hwrite]
        exact inPlace.follows_completeRegistration _
      | some table =>
        cases hasked : world.askedToPut inPlace table request with
        | mk asked answer =>
          have hcluster := (world.withManager inPlace).cluster_ask table
            (.put request.details.id (world.manager.placedBy inPlace request).stored)
          change (world.askedToPut inPlace table request).1.manager.cluster = inPlace.cluster at hcluster
          rw [hasked] at hcluster
          rw [run_register_written hplacing hwrite hasked, ← hcluster]
          exact asked.manager.follows_finishRegistration _ answer

/-- Every registration that is asked for sets the condition of the cluster with its answer, or leaves it. -/
theorem follows_serve_register (world : World) (offered : Field) (nodeReport : Option NodeReport)
    (pipelineReport : Field) (layout : Option LayoutReport) :
    let served := world.serve (.register offered nodeReport pipelineReport layout)
    world.manager.cluster.Follows served.2 served.1.manager.cluster := by
  intro served
  have hscreened := world.manager.cluster_screen offered
  cases hscreen : world.manager.screen offered with
  | mk screened admitted =>
    rw [hscreen] at hscreened
    cases admitted with
    | error failure =>
      have hserved : served = _ := serve_register_refused hscreen nodeReport pipelineReport layout
      rw [hserved, ← hscreened]
      exact .failed failure
    | ok details =>
      obtain ⟨rfl, -, -⟩ := Manager.kept_of_screen hscreen
      have hserved : served = _ := serve_register_admitted hscreen nodeReport pipelineReport layout
      rw [hserved]
      exact world.follows_run_register _

/-! ## Other operations -/

theorem cluster_run_heartbeat (world : World) (details : Details) (report : HeartbeatReport) (issuedAt : Instant) :
    (world.run (.heartbeat details report issuedAt)).1.manager.cluster = world.manager.cluster := by
  rw [run_heartbeat]
  unfold manager Service.heartbeat
  simp only
  split
  · exact (world.service.manager.monitored_heartbeat details report issuedAt).cluster
  · next observer _ =>
    unfold Service.observedHeartbeat
    simp only
    split
    · unfold Service.refuseOutdated
      cases observer.discards <;> rfl
    · exact (world.service.manager.monitored_heartbeat details report _).cluster

theorem cluster_run_remove (world : World) (id : String) :
    (world.run (.remove id)).1.manager.cluster = world.manager.cluster := by
  cases hregistered : world.manager.registry.contains id with
  | false => rw [run_remove_of_absent hregistered]
  | true =>
    cases htable : world.manager.table with
    | none =>
      rw [run_remove_unwritten hregistered htable]
      rfl
    | some table =>
      have hcluster := world.cluster_ask table (.delete id)
      cases hasked : world.ask table (.delete id) with
      | mk asked answer =>
        rw [hasked] at hcluster
        rw [run_remove_written hregistered htable hasked, ← hcluster]
        cases answer <;> rfl

theorem cluster_runStateChange (world : World) (id : String) (state expiry : Field) (reply : Reply) :
    (world.runStateChange id (world.manager.beginStateChange id state expiry reply)).1.manager.cluster =
      world.manager.cluster := by
  cases hrecord : world.manager.registry.get? id with
  | none => rw [Manager.beginStateChange_of_absent ((Registry.contains_eq_false_iff _ _).mpr hrecord)]; rfl
  | some record =>
    obtain ⟨note, hbegin⟩ := Manager.exists_beginStateChange_eq hrecord state expiry reply
    rw [hbegin]
    unfold runStateChange
    cases world.manager.table with
    | none => rfl
    | some table => exact (Manager.cluster_settleWrite _ id _).trans (cluster_ask _ table _)

/-- No operation but a registration touches the condition of the cluster. -/
theorem cluster_serve {request : OperationRequest} (hrequest : ∀ offered nodeReport pipelineReport layout,
    request ≠ .register offered nodeReport pipelineReport layout) :
    (world.serve request).1.manager.cluster = world.manager.cluster := by
  cases request with
  | register offered nodeReport pipelineReport layout => exact absurd rfl (hrequest offered _ _ _)
  | heartbeat offered report =>
    cases hdetails : Details.ofField offered with
    | error failure => rw [serve_heartbeat_refused hdetails]
    | ok details =>
      rw [serve_heartbeat_admitted hdetails]
      exact world.cluster_run_heartbeat details report world.clock
  | remove id => exact world.cluster_run_remove id
  | setState id state expiry =>
    rw [serve_setState, run_setState]
    exact world.cluster_runStateChange id state expiry .nothing
  | reconcile id state expiry =>
    rw [serve_reconcile, run_reconcile]
    unfold Service.beginReconcile
    split
    · rfl
    · split
      · rfl
      · exact cluster_runStateChange (world.withManager (world.manager.note _)) id state expiry (.changed true)

/-! ## Loads -/

theorem inStep_loadEntries (bound : Nat) {world : World} (h : world.manager.cluster.InStep) (loading : Loading) :
    (loadEntries bound world loading).1.manager.cluster.InStep := by
  induction bound generalizing world loading with
  | zero => exact h
  | succ bound ih =>
    unfold loadEntries
    have hasked : (world.ask loading.table (.next loading.iterator)).1.manager.cluster.InStep :=
      world.cluster_ask loading.table (.next loading.iterator) ▸ h
    cases hask : world.ask loading.table (.next loading.iterator) with
    | mk asked answer =>
      rw [hask] at hasked
      have htaken := Manager.inStep_takeEntry hasked loading.loaded answer
      simp only
      split
      · next manager htake =>
        rw [htake] at htaken
        exact htaken
      · next manager entry operation htake =>
        rw [htake] at htaken
        obtain ⟨stored, details, -, -, rfl, -, rfl⟩ := Manager.takeEntry_register htake
        have hregistered := (asked.follows_run_register (asked.manager.storedRegistration details)).inStep hasked
        have hself : asked.withManager asked.manager = asked := rfl
        rw [hself]
        cases hrun : asked.run (.register (asked.manager.storedRegistration details)) with
        | mk registered outcome =>
          rw [hrun] at hregistered
          have hnoted := Manager.inStep_takeRegistered hregistered entry loading.loaded outcome
          simp only
          split
          · next hended =>
            rw [hended] at hnoted
            exact hnoted
          · next continued loaded hgoes =>
            rw [hgoes] at hnoted
            have hcontinued : (registered.withManager continued).manager.cluster.InStep := hnoted
            exact ih hcontinued _

theorem inStep_load (h : world.manager.cluster.InStep) : world.load.1.manager.cluster.InStep := by
  unfold load
  split
  · exact h
  · next table _ =>
    have hopened : (world.iterate table).1.manager.cluster.InStep := by
      rw [manager_iterate]
      exact h
    split
    · next refused failure hrefused => rwa [hrefused] at hopened
    · next opened iterator hiterator =>
      rw [hiterator] at hopened
      have hended := inStep_loadEntries (opened.entriesLeft table iterator + 1) hopened ⟨table, iterator, 0⟩
      rwa [← (alike_closeIterator _ table iterator).2] at hended

/-! ## Runs -/

theorem inStep_move (h : world.manager.cluster.InStep) (move : Move) :
    (world.move move).manager.cluster.InStep := by
  have hkept {after : World} (hcluster : after.manager.cluster = world.manager.cluster) :
      after.manager.cluster.InStep := hcluster ▸ h
  cases move with
  | call call =>
    cases call with
    | operate request =>
      cases request with
      | register offered nodeReport pipelineReport layout =>
        exact (world.follows_serve_register offered nodeReport pipelineReport layout).inStep h
      | _ => exact hkept (cluster_serve nofun)
    | load => exact inStep_load h
    | switch table =>
      have hswitched : (world.switchTable table).manager.cluster.InStep := h
      exact inStep_load hswitched
    | queue id command =>
      refine hkept ?_
      unfold World.move World.call Manager.addCommand
      simp only
      split
      · next hqueued =>
        split at hqueued <;> cases hqueued
        rfl
      · rfl
    | take id command =>
      refine hkept ?_
      unfold World.move World.call Service.onCommand Manager.onCommand
      simp only
      split
      · rfl
      · exact apply_ite Manager.cluster _ _ _ |>.trans (ite_self _)
    | purge id => exact h
    | refreshUsage =>
      refine hkept ?_
      unfold World.move World.call Service.refreshUsage
      simp only
      split <;> rfl
    | sweep moment => exact hkept (world.manager.monitored_checkHeartbeats _).cluster
  | _ => exact h

/-- Whatever a service does, the health of its cluster stays in step with the code of a refused registration. -/
theorem inStep_after (h : world.manager.cluster.InStep) (moves : List Move) :
    (world.after moves).manager.cluster.InStep := by
  unfold World.after
  induction moves generalizing world with
  | nil => exact h
  | cons move rest ih => exact ih (inStep_move h move)

end World

end ClusterMembership
