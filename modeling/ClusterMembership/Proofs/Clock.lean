import ClusterMembership.Proofs.Operations

/-!
# Operations take no time

The clock of a manager moves only when it is told to.  No operation touches it, neither at its start, nor while a
table answers, nor at its end, so that operations under way at one time all see the same clock.
-/

namespace ClusterMembership

namespace Manager

variable (manager : Manager)

@[simp]
theorem clock_noteAll (notes : List Note) : (manager.noteAll notes).clock = manager.clock := by
  obtain ⟨entries, hnoted⟩ := manager.exists_noteAll_eq notes
  rw [hnoted]

@[simp]
theorem clock_screen (offered : Field) : (manager.screen offered).1.clock = manager.clock := by
  unfold screen
  split
  · rfl
  · rfl
  · split <;> rfl

@[simp]
theorem clock_settleWrite (id : String) (answer : TableAnswer) :
    (manager.settleWrite id answer).1.clock = manager.clock := by
  unfold settleWrite
  split
  · rfl
  · simp only
    split
    · rfl
    · obtain ⟨marks, hmarks⟩ := (manager.note _).markUnsynced_eq id
      rw [hmarks]
      rfl

/-! ## Registrations -/

theorem clock_place (details : Details) (layout : LayoutReport) (now : Instant) :
    (manager.place details layout now).1.clock = manager.clock := by
  obtain ⟨registry, topology, hplaced⟩ := manager.exists_place_eq details layout now
  rw [hplaced]

theorem clock_undoPlacement (placed : PlacedRegistration) :
    (manager.undoPlacement placed).clock = manager.clock := by
  unfold undoPlacement
  simp only
  split
  · rfl
  · split <;> rfl

theorem clock_completeRegistration (placed : PlacedRegistration) :
    (manager.completeRegistration placed).1.clock = manager.clock := by
  obtain ⟨registry, commands, cluster, trace, hcompleted⟩ := manager.exists_frame_completeRegistration placed
  rw [hcompleted]

theorem clock_beginRegistration (request : RegistrationRequest) :
    (manager.beginRegistration request).1.clock = manager.clock := by
  have hplaced := clock_place { manager with known := manager.known.record request.details } request.details
    (request.layout.getD manager.layout.report) manager.clock
  unfold beginRegistration
  simp only
  split
  · next refused refusal hrefused =>
    rw [hrefused] at hplaced
    exact hplaced
  · next inPlace hinPlace =>
    rw [hinPlace] at hplaced
    split
    · exact hplaced
    · exact (clock_completeRegistration inPlace _).trans hplaced

theorem clock_finishRegistration (placed : PlacedRegistration) (answer : TableAnswer) :
    (manager.finishRegistration placed answer).1.clock = manager.clock := by
  have hsettled := manager.clock_settleWrite placed.request.details.id answer
  unfold finishRegistration
  split
  · next written hwritten =>
    rw [hwritten] at hsettled
    exact (clock_completeRegistration written placed).trans hsettled
  · next failed failure hfailed =>
    rw [hfailed] at hsettled
    exact (clock_undoPlacement failed placed).trans hsettled

/-! ## Removals and operational states -/

theorem clock_beginRemoval (id : String) : (manager.beginRemoval id).1.clock = manager.clock := by
  unfold beginRemoval
  split
  · split <;> rfl
  · rfl

theorem clock_finishRemoval (id : String) (answer : TableAnswer) :
    (manager.finishRemoval id answer).1.clock = manager.clock := by
  unfold finishRemoval
  split <;> rfl

theorem clock_beginStateChange (id : String) (state expiry : Field) (reply : Reply) :
    (manager.beginStateChange id state expiry reply).1.clock = manager.clock := by
  unfold beginStateChange
  split
  · rfl
  · simp only
    split <;> rfl

theorem clock_finishStateChange (id : String) (reply : Reply) (answer : TableAnswer) :
    (manager.finishStateChange id reply answer).1.clock = manager.clock :=
  manager.clock_settleWrite id answer

theorem clock_beginReconcile (id : String) (state expiry : Field) :
    (Service.beginReconcile manager id state expiry).1.clock = manager.clock := by
  unfold Service.beginReconcile
  split
  · rfl
  · split
    · rfl
    · exact clock_beginStateChange _ id state expiry (.changed true)

end Manager

/-! ## Services and worlds -/

namespace Service

variable (service : Service)

theorem clock_heartbeat (details : Details) (report : HeartbeatReport) (issuedAt : Instant) :
    (service.heartbeat details report issuedAt).1.manager.clock = service.manager.clock := by
  unfold heartbeat
  split
  · exact (service.manager.monitored_heartbeat details report issuedAt).clock
  · next observer _ =>
    unfold observedHeartbeat
    simp only
    split
    · unfold refuseOutdated
      cases observer.discards <;> rfl
    · exact (service.manager.monitored_heartbeat details report _).clock

theorem clock_afterRemoval (id : String) (outcome : Outcome) :
    (service.afterRemoval id outcome).manager.clock = service.manager.clock := by
  cases outcome <;> rfl

theorem clock_start (operation : Operation) :
    (service.start operation).1.manager.clock = service.manager.clock := by
  cases operation with
  | register request => exact service.manager.clock_beginRegistration request
  | heartbeat details report issuedAt => exact service.clock_heartbeat details report issuedAt
  | remove id =>
    have hbegun : (service.started (fun _ ↦ Remainder.removal id)
        (service.manager.beginRemoval id)).1.manager.clock = service.manager.clock :=
      service.manager.clock_beginRemoval id
    unfold start
    simp only
    split
    · next removed outcome hended =>
      rw [hended] at hbegun
      exact (clock_afterRemoval removed id outcome).trans hbegun
    · next waiting progress _ hwaiting =>
      rw [hwaiting] at hbegun
      exact hbegun
  | setState id state expiry => exact service.manager.clock_beginStateChange id state expiry .nothing
  | reconcile id state expiry => exact service.manager.clock_beginReconcile id state expiry

theorem clock_finish (remainder : Remainder) (answer : TableAnswer) :
    (service.finish remainder answer).1.manager.clock = service.manager.clock := by
  cases remainder with
  | registration placed => exact service.manager.clock_finishRegistration placed answer
  | removal id =>
    exact (clock_afterRemoval _ id _).trans (service.manager.clock_finishRemoval id answer)
  | stateChange id reply => exact service.manager.clock_finishStateChange id reply answer

end Service

namespace World

variable (world : World)

theorem clock_ask (number : Nat) (request : TableRequest) :
    (world.ask number request).1.clock = world.clock := by
  unfold ask
  split
  · rfl
  · exact Manager.clock_noteAll _ _

theorem clock_start (operation : Operation) : (world.start operation).1.clock = world.clock :=
  world.service.clock_start operation

theorem clock_finish (remainder : Remainder) (answer : TableAnswer) :
    (world.finish remainder answer).1.clock = world.clock :=
  world.service.clock_finish remainder answer

theorem clock_prepare (request : OperationRequest) : (world.prepare request).1.clock = world.clock := by
  cases request with
  | register offered _ _ _ => exact world.manager.clock_screen offered
  | _ => rfl

/-- An operation ends at the time at which it was started. -/
theorem clock_run (operation : Operation) : (world.run operation).1.clock = world.clock := by
  have hstarted := world.clock_start operation
  unfold run
  split
  · next ended outcome hended => rwa [hended] at hstarted
  · next waiting table request remainder hwaiting =>
    rw [hwaiting] at hstarted
    exact ((clock_finish _ remainder _).trans (waiting.clock_ask table request)).trans hstarted

theorem clock_serve (request : OperationRequest) : (world.serve request).1.clock = world.clock := by
  have hprepared := world.clock_prepare request
  unfold serve
  split
  · next refused failure hrefused => rwa [hrefused] at hprepared
  · next ready operation hready =>
    rw [hready] at hprepared
    exact (ready.clock_run operation).trans hprepared

end World

end ClusterMembership
