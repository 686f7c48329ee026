import ClusterMembership.Proofs.Placement

/-!
# Operations from start to end

An operation that runs alone is its start, the answer of the table and its end in a row.  The equations of
`World.run` below say so once for each operation, with nothing left of the bookkeeping between the parts.
From them it follows that every operation, and every load with all its registrations, keeps a sound
manager sound, whatever the table answers.
-/

namespace ClusterMembership

namespace Manager

def placing (manager : Manager) (request : RegistrationRequest) : Manager × Option Refusal :=
  ({ manager with known := manager.known.record request.details } : Manager).place request.details
    (request.layout.getD manager.layout.report) manager.clock

/-- What a registration keeps of the manager that it starts on and of the manager that it is placed in. -/
def placedBy (manager inPlace : Manager) (request : RegistrationRequest) : PlacedRegistration where
  request := request
  previous := manager.registry.get? request.details.id
  previousDescriptor := manager.known.peek request.details.id
  layout := request.layout.getD manager.layout.report
  now := manager.clock
  stored := ((inPlace.registry.get? request.details.id).map NodeRecord.details).getD request.details

/-! ## Sound parts of operations -/

variable {manager : Manager}

theorem Sound.alike {after : Manager} (hsound : manager.Sound) (halike : manager.Alike after) : after.Sound :=
  hsound.tended halike.tended

/-- A durable write that is not given up keeps a manager sound. -/
theorem Sound.settleWrite (hsound : manager.Sound) {id : String}
    (hregistered : manager.registry.contains id = true) (answer : TableAnswer) :
    (manager.settleWrite id answer).1.Sound := by
  unfold Manager.settleWrite
  split
  · exact hsound.markSynced id
  · simp only
    split
    · exact hsound.tended (manager.tended_note _)
    · exact (hsound.tended (manager.tended_note _)).markUnsynced hregistered

/-- A write that is given up leaves all stores as they were. -/
theorem alike_of_settleWrite_error {id : String} {answer : TableAnswer} {failed : Manager}
    {failure : Failure} (h : manager.settleWrite id answer = (failed, .error failure)) :
    manager.Alike failed := by
  unfold Manager.settleWrite at h
  split at h
  · simp at h
  · simp only at h
    split at h
    · have hfailed : _ = failed := congrArg Prod.fst h
      rw [← hfailed]
      exact manager.alike_note _
    · simp at h

/-- Under best-effort durability a write that fails is remembered. -/
theorem settleWrite_error_of_not_strict (hstrict : manager.configuration.isStrict = false) (id : String)
    (cause : Failure) :
    ∃ note, manager.settleWrite id (.error cause) = ((manager.note note).markUnsynced id, .ok ()) := by
  unfold Manager.settleWrite
  simp only [hstrict]
  exact ⟨_, rfl⟩

/-- Under strict durability a write that fails is raised. -/
theorem settleWrite_error_of_strict (hstrict : manager.configuration.isStrict = true) (id : String)
    (cause : Failure) :
    ∃ note failure, manager.settleWrite id (.error cause) = (manager.note note, .error failure) := by
  unfold Manager.settleWrite
  simp only [hstrict]
  exact ⟨_, _, rfl⟩

/-- However a write is settled, nothing changes but the marks and the trace. -/
theorem exists_settleWrite_eq (manager : Manager) (id : String) (answer : TableAnswer) :
    ∃ marks trace, (manager.settleWrite id answer).1 = { manager with unsynced := marks, trace := trace } := by
  unfold Manager.settleWrite
  split
  · exact ⟨_, manager.trace, rfl⟩
  · simp only
    split
    · exact ⟨manager.unsynced, _, rfl⟩
    · obtain ⟨marks, hmarks⟩ := markUnsynced_eq (manager.note _) id
      rw [hmarks]
      exact ⟨marks, _, rfl⟩

theorem registry_settleWrite (manager : Manager) (id : String) (answer : TableAnswer) :
    (manager.settleWrite id answer).1.registry = manager.registry := by
  obtain ⟨marks, trace, hsettled⟩ := manager.exists_settleWrite_eq id answer
  rw [hsettled]

theorem settings_settleWrite (manager : Manager) (id : String) (answer : TableAnswer) :
    (manager.settleWrite id answer).1.settings = manager.settings := by
  obtain ⟨marks, trace, hsettled⟩ := manager.exists_settleWrite_eq id answer
  rw [hsettled]
  rfl

theorem standing_settleWrite (manager : Manager) (id : String) (answer : TableAnswer) (other : String) :
    (manager.settleWrite id answer).1.standing other = manager.standing other := by
  rw [standing, registry_settleWrite, standing]

/-- A difference between operational states is settled without touching the membership, unless the datanode is
followed. -/
theorem settleState_cases (manager : Manager) (details : Details) (now : Instant) :
    manager.Tended (manager.settleState details now) ∨
      manager.authority = .followReported ∧ ∃ noted state expiry, manager.Tended noted ∧
        manager.settleState details now = noted.restate details.id state expiry now := by
  cases hauthority : manager.authority with
  | enforce => exact .inl (manager.tended_settleState hauthority details now)
  | followReported =>
    unfold Manager.settleState
    simp only [hauthority]
    split
    · exact .inl (.refl manager)
    · split
      · exact .inl (.refl manager)
      · exact .inr ⟨trivial, _, _, _, manager.tended_note _, rfl⟩

/-- A heartbeat tends a manager, and restates its datanode in between at most when that is followed. -/
theorem heartbeat_membership (hkeyed : manager.Keyed) (details : Details) (report : HeartbeatReport) (now : Instant) :
    manager.Tended (manager.heartbeat details report now).1 ∨
      manager.authority = .followReported ∧ ∃ reported state expiry, manager.Tended reported ∧
        (reported.restate details.id state expiry now).Tended (manager.heartbeat details report now).1 := by
  unfold Manager.heartbeat
  simp only
  split
  · exact .inl (manager.tended_note _)
  · next record hrecord =>
    have hregistered : manager.registry.contains details.id = true :=
      (Registry.contains_iff _ _).mpr ⟨record, hrecord⟩
    split
    · exact .inl (manager.tended_hear hkeyed _ _ _ _)
    · next reported htaken =>
      have hreported := tended_hear_takeReports hkeyed hregistered htaken
      rcases reported.settleState_cases details now with htended | ⟨hfollows, noted, state, expiry, hnoted, hsettled⟩
      · exact .inl ((hreported.trans htended).trans (tended_drainCommands _ _))
      · refine .inr ⟨?_, noted, state, expiry, hreported.trans hnoted, ?_⟩
        · exact (congrArg Settings.authority hreported.settings).symm.trans hfollows
        · rw [hsettled]
          exact tended_drainCommands _ _

/-- The manager that a registration was placed in. -/
theorem Sound.placing (hsound : manager.Sound) {request : RegistrationRequest} (hkept : request.details.Kept)
    {inPlace : Manager} (h : manager.placing request = (inPlace, none)) :
    inPlace.Sound ∧ inPlace.registry.contains request.details.id = true := by
  have hrecorded := hsound.record request.details
  have hknown : (manager.known.record request.details).peek request.details.id ≠ none := by
    rw [KnownNodes.peek_record, if_pos rfl]
    simp
  refine ⟨hrecorded.place hkept hknown h, ?_⟩
  rw [contains_eq_isSome_standing, standing_place hrecorded.keyed h, if_pos rfl]
  rfl

/-- A registration that the topology refuses keeps the membership. -/
theorem tended_of_placing_refused {request : RegistrationRequest} {refused : Manager} {refusal : Refusal}
    (h : manager.placing request = (refused, some refusal)) : manager.Tended refused := by
  have hrefused := tended_of_place_refused h
  exact
    { standing := hrefused.standing
      placed := hrefused.placed
      known := fun {id} hid ↦ by
        apply hrefused.known
        rw [KnownNodes.peek_record]
        split
        · simp
        · exact hid
      unsynced := hrefused.unsynced
      queued := hrefused.queued
      held := hrefused.held
      settings := hrefused.settings }

theorem Sound.completeRegistration (hsound : manager.Sound) {placed : PlacedRegistration}
    (hregistered : manager.registry.contains placed.request.details.id = true) :
    (manager.completeRegistration placed).1.Sound :=
  hsound.tended (manager.tended_completeRegistration hsound.keyed hregistered)

/-- After the table has answered, a registration is completed in a sound manager with the same standings, or its
placement is undone. -/
theorem Sound.finishRegistration_cases (hsound : manager.Sound) {request : RegistrationRequest}
    (hkept : request.details.Kept) {inPlace asked : Manager}
    (hplacing : manager.placing request = (inPlace, none)) (halike : inPlace.Alike asked)
    (answer : TableAnswer) :
    (∃ written : Manager, written.Sound ∧ (∀ id, written.standing id = inPlace.standing id) ∧
        (asked.finishRegistration (manager.placedBy inPlace request) answer).1 =
          (written.completeRegistration (manager.placedBy inPlace request)).1) ∨
      manager.Tended (asked.finishRegistration (manager.placedBy inPlace request) answer).1 := by
  obtain ⟨hinPlace, hregistered⟩ := hsound.placing hkept hplacing
  have hasked : asked.Sound := hinPlace.alike halike
  have hstill : asked.registry.contains request.details.id = true := halike.registry ▸ hregistered
  have hid : (manager.placedBy inPlace request).request.details.id = request.details.id := rfl
  unfold Manager.finishRegistration
  split
  · next written hwritten =>
    have hwrittenSound := hasked.settleWrite hstill answer
    have hstanding := asked.standing_settleWrite request.details.id answer
    rw [hid] at hwritten
    rw [hwritten] at hwrittenSound hstanding
    exact .inl ⟨written, hwrittenSound, fun id ↦ (hstanding id).trans (halike.standing id), rfl⟩
  · next failed failure hfailed =>
    exact .inr (tended_undoPlacement hsound hkept rfl rfl hplacing
      (halike.trans (alike_of_settleWrite_error hfailed)))

/-- Completing a registration tends a sound manager in which its datanode stands as placed. -/
theorem Sound.tended_completed {written inPlace : Manager} (hwritten : written.Sound)
    (placed : PlacedRegistration) (hsame : ∀ id, written.standing id = inPlace.standing id)
    (hregistered : inPlace.registry.contains placed.request.details.id = true) :
    written.Tended (written.completeRegistration placed).1 := by
  apply written.tended_completeRegistration hwritten.keyed
  rw [contains_eq_isSome_standing, hsame, ← contains_eq_isSome_standing]
  exact hregistered

/-- However a registration ends after the table has answered, the manager is sound. -/
theorem Sound.finishRegistration (hsound : manager.Sound) {request : RegistrationRequest}
    (hkept : request.details.Kept) {inPlace asked : Manager}
    (hplacing : manager.placing request = (inPlace, none)) (halike : inPlace.Alike asked)
    (answer : TableAnswer) :
    (asked.finishRegistration (manager.placedBy inPlace request) answer).1.Sound := by
  rcases hsound.finishRegistration_cases hkept hplacing halike answer with
    ⟨written, hwritten, hsame, hended⟩ | hundone
  · rw [hended]
    exact hwritten.tended (hwritten.tended_completed (manager.placedBy inPlace request) hsame
      (hsound.placing hkept hplacing).2)
  · exact hsound.tended hundone

/-- A registration whose write is given up leaves every standing as it was. -/
theorem Sound.standing_finishRegistration (hsound : manager.Sound) {request : RegistrationRequest}
    (hkept : request.details.Kept) {inPlace asked : Manager}
    (hplacing : manager.placing request = (inPlace, none)) (halike : inPlace.Alike asked)
    (answer : TableAnswer) :
    (∀ id, (asked.finishRegistration (manager.placedBy inPlace request) answer).1.standing id =
        manager.standing id) ∨
      ∀ id, (asked.finishRegistration (manager.placedBy inPlace request) answer).1.standing id =
        inPlace.standing id := by
  rcases hsound.finishRegistration_cases hkept hplacing halike answer with
    ⟨written, hwritten, hsame, hended⟩ | hundone
  · have htended := hwritten.tended_completed (manager.placedBy inPlace request) hsame
      (hsound.placing hkept hplacing).2
    rw [hended]
    exact .inr fun id ↦ (htended.standing id).trans (hsame id)
  · exact .inl hundone.standing

end Manager

namespace Operation

/-- Whether the details of a registration were admitted; other operations need no admission. -/
def Admitted : Operation → Prop
  | .register request => request.details.Kept
  | _ => True

end Operation

namespace World

/-! ## Asking a table -/

/-- While a table answers, the manager at most logs. -/
theorem noted_ask (world : World) (number : Nat) (request : TableRequest) :
    world.manager.Noted (world.ask number request).1.manager := by
  unfold ask
  split
  · exact .refl world.manager
  · exact world.manager.noted_noteAll _

theorem alike_ask (world : World) (number : Nat) (request : TableRequest) :
    world.manager.Alike (world.ask number request).1.manager := (world.noted_ask number request).alike

theorem observer_ask (world : World) (number : Nat) (request : TableRequest) :
    (world.ask number request).1.service.observer = world.service.observer := by
  unfold ask
  split <;> rfl

/-! ## Starting an operation -/

/-- A registration that the topology refuses ends at once. -/
theorem start_register_refused {world : World} {request : RegistrationRequest} {refused : Manager}
    {refusal : Refusal} (h : world.manager.placing request = (refused, some refusal)) :
    world.start (.register request) =
      (world.withManager (refused.refuse request.details refusal).1,
        .ended (.ok (.acknowledged (refused.refuse request.details refusal).2))) := by
  have hbegin : world.service.manager.beginRegistration request =
      ((refused.refuse request.details refusal).1,
        .ended (.ok (.acknowledged (refused.refuse request.details refusal).2))) := by
    unfold Manager.beginRegistration
    simp only
    unfold Manager.placing at h
    unfold manager at h
    rw [h]
  simp only [start, Service.start, hbegin, Service.started, Progress.mapKept]
  rfl

/-- A placed registration that is not to be written ends at once. -/
theorem start_register_unwritten {world : World} {request : RegistrationRequest} {inPlace : Manager}
    (h : world.manager.placing request = (inPlace, none))
    (hwrite : (if request.persist then inPlace.table else none) = none) :
    world.start (.register request) =
      (world.withManager (inPlace.completeRegistration (world.manager.placedBy inPlace request)).1,
        .ended ((inPlace.completeRegistration (world.manager.placedBy inPlace request)).2.map
          Reply.acknowledged)) := by
  have hbegin : world.service.manager.beginRegistration request =
      ((inPlace.completeRegistration (world.manager.placedBy inPlace request)).1,
        .ended ((inPlace.completeRegistration (world.manager.placedBy inPlace request)).2.map
          Reply.acknowledged)) := by
    unfold Manager.beginRegistration
    simp only
    unfold Manager.placing at h
    unfold manager at h
    rw [h]
    simp only [hwrite]
    rfl
  simp only [start, Service.start, hbegin, Service.started, Progress.mapKept]
  rfl

/-- A placed registration that is to be written asks the table for it. -/
theorem start_register_written {world : World} {request : RegistrationRequest} {inPlace : Manager}
    {table : Nat} (h : world.manager.placing request = (inPlace, none))
    (hwrite : (if request.persist then inPlace.table else none) = some table) :
    world.start (.register request) =
      (world.withManager inPlace,
        .asking table (.put request.details.id (world.manager.placedBy inPlace request).stored)
          (.registration (world.manager.placedBy inPlace request))) := by
  have hbegin : world.service.manager.beginRegistration request =
      (inPlace, .asking table
        (.put request.details.id (world.manager.placedBy inPlace request).stored)
        (world.manager.placedBy inPlace request)) := by
    unfold Manager.beginRegistration
    simp only
    unfold Manager.placing at h
    unfold manager at h
    rw [h]
    simp only [hwrite]
    rfl
  simp only [start, Service.start, hbegin, Service.started, Progress.mapKept]
  rfl

/-- The removal of an unknown datanode is refused. -/
theorem start_remove_of_absent {world : World} {id : String}
    (h : world.manager.registry.contains id = false) :
    world.start (.remove id) = (world, .ended (.error (.service (.nodeNotFound id)))) := by
  have hbegin : world.service.manager.beginRemoval id =
      (world.service.manager, .ended (.error (.service (.nodeNotFound id)))) := by
    unfold Manager.beginRemoval
    unfold manager at h
    simp [h]
  simp only [start, Service.start, hbegin, Service.started, Progress.mapKept]
  rfl

/-- A removal without a table ends at once. -/
theorem start_remove_unwritten {world : World} {id : String}
    (hregistered : world.manager.registry.contains id = true) (htable : world.manager.table = none) :
    world.start (.remove id) =
      ({ world with
          service := (world.service.withManager (world.manager.forget id)).afterRemoval id (.ok .nothing) },
        .ended (.ok .nothing)) := by
  have hbegin : world.service.manager.beginRemoval id =
      (world.service.manager.forget id, .ended (.ok .nothing)) := by
    unfold Manager.beginRemoval
    unfold manager at hregistered htable
    simp [hregistered, htable]
  simp only [start, Service.start, hbegin, Service.started, Progress.mapKept]
  rfl

/-- A removal with a table asks it to delete the row. -/
theorem start_remove_written {world : World} {id : String} {table : Nat}
    (hregistered : world.manager.registry.contains id = true) (htable : world.manager.table = some table) :
    world.start (.remove id) = (world, .asking table (.delete id) (.removal id)) := by
  have hbegin : world.service.manager.beginRemoval id =
      (world.service.manager, .asking table (.delete id) ()) := by
    unfold Manager.beginRemoval
    unfold manager at hregistered htable
    simp [hregistered, htable]
  simp only [start, Service.start, hbegin, Service.started, Progress.mapKept]
  rfl

/-! ## Running an operation -/

/-- A refused registration ends at once. -/
theorem run_register_refused {world : World} {request : RegistrationRequest} {refused : Manager}
    {refusal : Refusal} (h : world.manager.placing request = (refused, some refusal)) :
    world.run (.register request) =
      (world.withManager (refused.refuse request.details refusal).1,
        .ok (.acknowledged (refused.refuse request.details refusal).2)) := by
  rw [run, start_register_refused h]

/-- A placed registration that is not to be written ends at once. -/
theorem run_register_unwritten {world : World} {request : RegistrationRequest} {inPlace : Manager}
    (h : world.manager.placing request = (inPlace, none))
    (hwrite : (if request.persist then inPlace.table else none) = none) :
    world.run (.register request) =
      (world.withManager (inPlace.completeRegistration (world.manager.placedBy inPlace request)).1,
        (inPlace.completeRegistration (world.manager.placedBy inPlace request)).2.map
          Reply.acknowledged) := by
  rw [run, start_register_unwritten h hwrite]

/-- The world in which a registration waits for a table, after the table has answered. -/
def askedToPut (world : World) (inPlace : Manager) (table : Nat) (request : RegistrationRequest) :
    World × TableAnswer :=
  (world.withManager inPlace).ask table
    (.put request.details.id (world.manager.placedBy inPlace request).stored)

theorem alike_askedToPut (world : World) (inPlace : Manager) (table : Nat) (request : RegistrationRequest) :
    inPlace.Alike (world.askedToPut inPlace table request).1.manager :=
  (world.withManager inPlace).alike_ask table _

/-- A placed registration that is written ends with the answer of the table. -/
theorem run_register_written {world : World} {request : RegistrationRequest} {inPlace : Manager}
    {table : Nat} (h : world.manager.placing request = (inPlace, none))
    (hwrite : (if request.persist then inPlace.table else none) = some table) {asked : World}
    {answer : TableAnswer} (hasked : world.askedToPut inPlace table request = (asked, answer)) :
    world.run (.register request) =
      (asked.withManager
        (asked.manager.finishRegistration (world.manager.placedBy inPlace request) answer).1,
        (asked.manager.finishRegistration (world.manager.placedBy inPlace request) answer).2) := by
  rw [run, start_register_written h hwrite]
  unfold askedToPut at hasked
  simp only [hasked]
  rfl

/-- A heartbeat never waits for a table. -/
theorem run_heartbeat (world : World) (details : Details) (report : HeartbeatReport) (issuedAt : Instant) :
    world.run (.heartbeat details report issuedAt) =
      ({ world with service := (world.service.heartbeat details report issuedAt).1 },
        (world.service.heartbeat details report issuedAt).2.map Reply.commands) := rfl

theorem run_remove_of_absent {world : World} {id : String}
    (h : world.manager.registry.contains id = false) :
    world.run (.remove id) = (world, .error (.service (.nodeNotFound id))) := by
  rw [run, start_remove_of_absent h]

/-- A removal without a table ends at once. -/
theorem run_remove_unwritten {world : World} {id : String}
    (hregistered : world.manager.registry.contains id = true) (htable : world.manager.table = none) :
    world.run (.remove id) =
      ({ world with
          service := (world.service.withManager (world.manager.forget id)).afterRemoval id (.ok .nothing) },
        .ok .nothing) := by
  rw [run, start_remove_unwritten hregistered htable]

/-- A removal with a table ends with the answer of the table. -/
theorem run_remove_written {world : World} {id : String} {table : Nat}
    (hregistered : world.manager.registry.contains id = true) (htable : world.manager.table = some table)
    {asked : World} {answer : TableAnswer} (hasked : world.ask table (.delete id) = (asked, answer)) :
    world.run (.remove id) = asked.finish (.removal id) answer := by
  rw [run, start_remove_written hregistered htable]
  simp only [hasked]

def runStateChange (world : World) (id : String) (begun : Manager × Progress Reply) : World × Outcome :=
  match begun with
  | (ended, .ended outcome) => (world.withManager ended, outcome)
  | (waiting, .asking table request reply) =>
    let (asked, answer) := (world.withManager waiting).ask table request
    let (written, outcome) := asked.manager.finishStateChange id reply answer
    (asked.withManager written, outcome)

theorem run_setState (world : World) (id : String) (state expiry : Field) :
    world.run (.setState id state expiry) =
      world.runStateChange id (world.manager.beginStateChange id state expiry .nothing) := by
  unfold run start Service.start Service.started runStateChange manager
  simp only
  cases hbegun : world.service.manager.beginStateChange id state expiry .nothing with
  | mk after progress => cases progress <;> rfl

theorem run_reconcile (world : World) (id : String) (state expiry : Field) :
    world.run (.reconcile id state expiry) =
      world.runStateChange id (Service.beginReconcile world.manager id state expiry) := by
  unfold run start Service.start Service.started runStateChange manager
  simp only
  cases hbegun : Service.beginReconcile world.service.manager id state expiry with
  | mk after progress => cases progress <;> rfl

end World

namespace Manager

/-- The change of the operational state of an unknown datanode is refused. -/
theorem beginStateChange_of_absent {manager : Manager} {id : String}
    (h : manager.registry.contains id = false) (state expiry : Field) (reply : Reply) :
    manager.beginStateChange id state expiry reply =
      (manager, .ended (.error (.service (.nodeNotFound id)))) := by
  unfold beginStateChange
  rw [(Registry.contains_eq_false_iff _ _).mp h]

/-- A datanode that is not registered is told to register, and nothing else comes of its heartbeat. -/
theorem exists_heartbeat_of_absent {manager : Manager} {details : Details}
    (h : manager.registry.contains details.id = false) (report : HeartbeatReport) (now : Instant) :
    ∃ note : Note, manager.heartbeat details report now = (manager.note note, .ok [Command.reregister now]) := by
  unfold heartbeat
  simp only [(Registry.contains_eq_false_iff _ _).mp h]
  exact ⟨_, rfl⟩

/-- The operational state of a registered datanode is set in memory before a table is asked. -/
theorem exists_beginStateChange_eq {manager : Manager} {id : String} {record : NodeRecord}
    (h : manager.registry.get? id = some record) (state expiry : Field) (reply : Reply) :
    ∃ note : Note, manager.beginStateChange id state expiry reply =
      ((manager.restate id state (Registry.expiryOrNever expiry) manager.clock).note note,
        match manager.table with
        | none => .ended (.ok reply)
        | some table =>
          .asking table
            (.put id (record.details.withOperational state (Registry.expiryOrNever expiry))) reply) := by
  unfold beginStateChange
  rw [h]
  simp only
  split
  · next htable => exact ⟨_, Prod.ext rfl (by rw [show manager.table = none from htable])⟩
  · next table htable =>
    exact ⟨_, Prod.ext rfl (by rw [show manager.table = some table from htable]; rfl)⟩

/-- An observer that turns a heartbeat away at most drops what waits for the datanode. -/
theorem tended_refuseOutdated (manager : Manager) (observer : Observer) (details : Details)
    (silence : Int) : manager.Tended (Service.refuseOutdated manager observer details silence) := by
  unfold Service.refuseOutdated
  cases observer.discards with
  | true => exact (manager.tended_purgeCommands details.id).trans (tended_note _ _)
  | false => exact manager.tended_note _

/-- Following the primary either leaves a datanode as it is and does not say otherwise, or sets its operational
state. -/
theorem beginReconcile_cases (manager : Manager) (id : String) (state expiry : Field) :
    (∃ outcome, outcome ≠ .ok (.changed true) ∧
        Service.beginReconcile manager id state expiry = (manager, .ended outcome)) ∨
      ∃ noted, manager.Noted noted ∧ Service.beginReconcile manager id state expiry =
        noted.beginStateChange id state expiry (.changed true) := by
  unfold Service.beginReconcile
  split
  · exact .inl ⟨_, by simp, rfl⟩
  · split
    · exact .inl ⟨_, by simp, rfl⟩
    · exact .inr ⟨manager.note _, manager.noted_note _, rfl⟩

end Manager

/-- Of a primary and of an observer a heartbeat tends the manager, or restates its datanode in between. -/
theorem Service.heartbeat_membership {service : Service} (hkeyed : service.manager.Keyed) (details : Details)
    (report : HeartbeatReport) (issuedAt : Instant) :
    service.manager.Tended (service.heartbeat details report issuedAt).1.manager ∨
      service.manager.authority = .followReported ∧ ∃ reported state expiry now,
        service.manager.Tended reported ∧ (reported.restate details.id state expiry now).Tended
          (service.heartbeat details report issuedAt).1.manager := by
  have hcases (now : Instant) :
      service.manager.Tended (service.manager.heartbeat details report now).1 ∨
        service.manager.authority = .followReported ∧ ∃ reported state expiry now',
          service.manager.Tended reported ∧ (reported.restate details.id state expiry now').Tended
            (service.manager.heartbeat details report now).1 :=
    (Manager.heartbeat_membership hkeyed details report now).imp_right
      fun ⟨hfollows, reported, state, expiry, h⟩ ↦ ⟨hfollows, reported, state, expiry, now, h⟩
  unfold Service.heartbeat
  split
  · exact hcases issuedAt
  · unfold Service.observedHeartbeat
    simp only
    split
    · exact .inl (Manager.tended_refuseOutdated _ _ _ _)
    · exact hcases _

namespace World

variable {world : World}

/-! ## Soundness of operations -/

theorem contains_of_get? {manager : Manager} {id : String} {record : NodeRecord}
    (h : manager.registry.get? id = some record) : manager.registry.contains id = true :=
  (Registry.contains_iff _ _).mpr ⟨record, h⟩

theorem sound_run_register (hsound : world.manager.Sound) (request : RegistrationRequest)
    (hkept : request.details.Kept) : (world.run (.register request)).1.manager.Sound := by
  cases hplacing : world.manager.placing request with
  | mk inPlace refusal =>
    cases refusal with
    | some refusal =>
      rw [run_register_refused hplacing]
      have htended := Manager.tended_of_placing_refused hplacing
      exact (hsound.tended htended).alike (Manager.alike_refuse _ _ _)
    | none =>
      obtain ⟨hinPlace, hregistered⟩ := hsound.placing hkept hplacing
      cases hwrite : (if request.persist then inPlace.table else none) with
      | none =>
        rw [run_register_unwritten hplacing hwrite]
        exact hinPlace.completeRegistration hregistered
      | some table =>
        rw [run_register_written hplacing hwrite rfl]
        exact hsound.finishRegistration hkept hplacing (world.alike_askedToPut inPlace table request) _

theorem sound_heartbeat {service : Service} (hsound : service.manager.Sound) (details : Details)
    (report : HeartbeatReport) (issuedAt : Instant) :
    (service.heartbeat details report issuedAt).1.manager.Sound := by
  rcases service.heartbeat_membership hsound.keyed details report issuedAt with
    htended | ⟨-, reported, state, expiry, now, hreported, hrestated⟩
  · exact hsound.tended htended
  · exact ((hsound.tended hreported).restate details.id state expiry now).tended hrestated

/-- A removal fails and leaves the stores as they are, or it succeeds and the datanode is forgotten. -/
theorem run_remove_cases (world : World) (removed : String) :
    (∃ failure, (world.run (.remove removed)).2 = .error failure ∧
        world.manager.Noted (world.run (.remove removed)).1.manager) ∨
      ∃ asked, world.manager.Noted asked ∧ (world.run (.remove removed)).2 = .ok .nothing ∧
        (world.run (.remove removed)).1.manager = asked.forget removed := by
  cases hregistered : world.manager.registry.contains removed with
  | false =>
    rw [run_remove_of_absent hregistered]
    exact .inl ⟨_, rfl, .refl world.manager⟩
  | true =>
    cases htable : world.manager.table with
    | none =>
      rw [run_remove_unwritten hregistered htable]
      exact .inr ⟨world.manager, .refl world.manager, rfl, rfl⟩
    | some table =>
      cases hasked : world.ask table (.delete removed) with
      | mk asked answer =>
        have hlogged := world.noted_ask table (.delete removed)
        rw [hasked] at hlogged
        rw [run_remove_written hregistered htable hasked]
        cases answer with
        | ok _ => exact .inr ⟨asked.manager, hlogged, rfl, rfl⟩
        | error cause => exact .inl ⟨_, rfl, hlogged.trans (asked.manager.noted_note _)⟩

theorem sound_run_remove (hsound : world.manager.Sound) (id : String) :
    (world.run (.remove id)).1.manager.Sound := by
  obtain ⟨failure, -, hlogged⟩ | ⟨asked, hlogged, -, hforgotten⟩ := world.run_remove_cases id
  · exact hsound.alike hlogged.alike
  · rw [hforgotten]
    exact (hsound.alike hlogged.alike).forget id

/-- Setting an operational state keeps a manager sound, whether the write succeeds or not. -/
theorem sound_runStateChange (hsound : world.manager.Sound) (id : String) (state expiry : Field)
    (reply : Reply) :
    (world.runStateChange id (world.manager.beginStateChange id state expiry reply)).1.manager.Sound := by
  cases hrecord : world.manager.registry.get? id with
  | none =>
    rw [Manager.beginStateChange_of_absent ((Registry.contains_eq_false_iff _ _).mpr hrecord)]
    exact hsound
  | some record =>
    obtain ⟨note, hbegin⟩ := Manager.exists_beginStateChange_eq hrecord state expiry reply
    let restated := (world.manager.restate id state (Registry.expiryOrNever expiry)
      world.manager.clock).note note
    have hrestated : restated.Sound := (hsound.restate id state _ _).tended (Manager.tended_note _ note)
    have hregistered : restated.registry.contains id = true :=
      (Manager.contains_restate hsound.keyed id state _ _ id).trans (contains_of_get? hrecord)
    rw [hbegin]
    cases world.manager.table with
    | none => exact hrestated
    | some table =>
      let waiting := world.withManager restated
      let request : TableRequest :=
        .put id (record.details.withOperational state (Registry.expiryOrNever expiry))
      have hasked : (waiting.ask table request).1.manager.Sound :=
        hrestated.alike (waiting.alike_ask table request)
      have hstill : (waiting.ask table request).1.manager.registry.contains id = true :=
        (waiting.alike_ask table request).registry ▸ hregistered
      exact hasked.settleWrite hstill (waiting.ask table request).2

/-- Following the primary keeps a manager sound. -/
theorem sound_run_reconcile (hsound : world.manager.Sound) (id : String) (state expiry : Field) :
    (world.run (.reconcile id state expiry)).1.manager.Sound := by
  rw [run_reconcile]
  rcases Manager.beginReconcile_cases world.manager id state expiry with
    ⟨outcome, -, hbegin⟩ | ⟨noted, hlogged, hbegin⟩
  · rw [hbegin]
    exact hsound
  · have hnoted : (world.withManager noted).manager.Sound := hsound.alike hlogged.alike
    rw [hbegin]
    exact sound_runStateChange hnoted id state expiry (.changed true)

/-! ## Standings after operations -/

/-- A registration leaves every standing as it was, or it leaves them as its placement does. -/
theorem standing_run_register (hsound : world.manager.Sound) {request : RegistrationRequest}
    (hkept : request.details.Kept) :
    (∀ id, (world.run (.register request)).1.manager.standing id = world.manager.standing id) ∨
      ∃ inPlace, world.manager.placing request = (inPlace, none) ∧
        ∀ id, (world.run (.register request)).1.manager.standing id = inPlace.standing id := by
  cases hplacing : world.manager.placing request with
  | mk inPlace refusal =>
    cases refusal with
    | some refusal =>
      rw [run_register_refused hplacing]
      have hrefused := Manager.tended_of_placing_refused hplacing
      exact .inl (hrefused.trans (Manager.alike_refuse _ _ _).tended).standing
    | none =>
      obtain ⟨hinPlace, hregistered⟩ := hsound.placing hkept hplacing
      cases hwrite : (if request.persist then inPlace.table else none) with
      | none =>
        rw [run_register_unwritten hplacing hwrite]
        exact .inr ⟨inPlace, rfl,
          (inPlace.tended_completeRegistration hinPlace.keyed hregistered).standing⟩
      | some table =>
        cases hask : world.askedToPut inPlace table request with
        | mk asked answer =>
          have halike := world.alike_askedToPut inPlace table request
          rw [hask] at halike
          rw [run_register_written hplacing hwrite hask]
          rcases hsound.standing_finishRegistration hkept hplacing halike answer with hleft | hplaced
          · exact .inl hleft
          · exact .inr ⟨inPlace, rfl, hplaced⟩

theorem standing_run_remove (world : World) (removed : String) :
    (∀ id, (world.run (.remove removed)).1.manager.standing id = world.manager.standing id) ∨
      ∀ id, (world.run (.remove removed)).1.manager.standing id =
        if removed = id then none else world.manager.standing id := by
  obtain ⟨failure, -, hlogged⟩ | ⟨asked, hlogged, -, hforgotten⟩ := world.run_remove_cases removed
  · exact .inl hlogged.alike.standing
  · refine .inr fun id ↦ ?_
    rw [hforgotten, ← hlogged.alike.standing]
    exact asked.standing_forget removed id

theorem standing_runStateChange (hkeyed : world.manager.Keyed) (changed : String) (state expiry : Field)
    (reply : Reply) (id : String) :
    (world.runStateChange changed
      (world.manager.beginStateChange changed state expiry reply)).1.manager.standing id =
        if changed = id then
          (world.manager.standing changed).map (Standing.restated state (Registry.expiryOrNever expiry))
        else world.manager.standing id := by
  have hrestated := world.manager.standing_restate hkeyed changed state (Registry.expiryOrNever expiry)
    world.manager.clock id
  cases hrecord : world.manager.registry.get? changed with
  | none =>
    have hnone : world.manager.standing changed = none := by rw [Manager.standing, hrecord, Option.map_none]
    rw [Manager.beginStateChange_of_absent ((Registry.contains_eq_false_iff _ _).mpr hrecord)]
    split
    · next hsame =>
      rw [hnone, ← hsame]
      exact hnone
    · rfl
  | some record =>
    obtain ⟨note, hbegin⟩ := Manager.exists_beginStateChange_eq hrecord state expiry reply
    rw [hbegin]
    unfold runStateChange
    cases htable : world.manager.table with
    | none => exact hrestated
    | some table =>
      let waiting := world.withManager ((world.manager.restate changed state
        (Registry.expiryOrNever expiry) world.manager.clock).note note)
      let request : TableRequest :=
        .put changed (record.details.withOperational state (Registry.expiryOrNever expiry))
      have halike := waiting.alike_ask table request
      exact ((Manager.standing_settleWrite _ changed _ id).trans (halike.standing id)).trans hrestated

/-! ## Soundness of all operations -/

/-- An operation whose details were admitted keeps a manager sound. -/
theorem sound_run (hsound : world.manager.Sound) {operation : Operation} (hadmitted : operation.Admitted) :
    (world.run operation).1.manager.Sound := by
  cases operation with
  | register request => exact sound_run_register hsound request hadmitted
  | heartbeat details report issuedAt =>
    rw [run_heartbeat]
    exact sound_heartbeat hsound details report issuedAt
  | remove id => exact sound_run_remove hsound id
  | setState id state expiry =>
    rw [run_setState]
    exact sound_runStateChange hsound id state expiry .nothing
  | reconcile id state expiry => exact sound_run_reconcile hsound id state expiry

/-! ## Serving requests -/

theorem serve_register_admitted {offered : Field} {details : Details}
    (h : world.manager.screen offered = (world.manager, .ok details)) (nodeReport : Option NodeReport)
    (pipelineReport : Field) (layout : Option LayoutReport) :
    world.serve (.register offered nodeReport pipelineReport layout) =
      world.run (.register { details, nodeReport, pipelineReport, layout }) := by
  simp only [serve, prepare, h]
  rfl

theorem serve_register_refused {offered : Field} {refused : Manager} {failure : Failure}
    (h : world.manager.screen offered = (refused, .error failure)) (nodeReport : Option NodeReport)
    (pipelineReport : Field) (layout : Option LayoutReport) :
    world.serve (.register offered nodeReport pipelineReport layout) =
      (world.withManager refused, .error failure) := by
  simp only [serve, prepare, h]
  rfl

/-- A registration is refused over its details, about which there is a note at most, or it runs with the form in which
they are kept. -/
theorem serve_register_cases (world : World) (offered : Field) (nodeReport : Option NodeReport) (pipelineReport : Field)
    (layout : Option LayoutReport) :
    (∃ refused failure, world.manager.Noted refused ∧
      world.serve (.register offered nodeReport pipelineReport layout) =
        (world.withManager refused, .error failure)) ∨
    ∃ details, world.manager.screen offered = (world.manager, .ok details) ∧ details.Kept ∧
      world.serve (.register offered nodeReport pipelineReport layout) =
        world.run (.register { details, nodeReport, pipelineReport, layout }) := by
  cases hscreen : world.manager.screen offered with
  | mk screened admitted =>
    cases admitted with
    | error failure =>
      have hnoted := world.manager.noted_screen offered
      rw [hscreen] at hnoted
      exact .inl ⟨screened, failure, hnoted, serve_register_refused hscreen nodeReport pipelineReport layout⟩
    | ok details =>
      obtain ⟨rfl, hkept, -⟩ := Manager.kept_of_screen hscreen
      exact .inr ⟨details, rfl, hkept, serve_register_admitted hscreen nodeReport pipelineReport layout⟩

theorem serve_heartbeat_refused {offered : Field} {failure : Failure}
    (h : Details.ofField offered = .error failure) (report : HeartbeatReport) :
    world.serve (.heartbeat offered report) = (world, .error failure) := by
  simp only [serve, prepare, h]
  rfl

theorem serve_heartbeat_admitted {offered : Field} {details : Details}
    (h : Details.ofField offered = .ok details) (report : HeartbeatReport) :
    world.serve (.heartbeat offered report) = world.run (.heartbeat details report world.clock) := by
  simp only [serve, prepare, h]
  rfl

theorem serve_remove (world : World) (id : String) : world.serve (.remove id) = world.run (.remove id) := rfl

theorem serve_setState (world : World) (id : String) (state expiry : Field) :
    world.serve (.setState id state expiry) = world.run (.setState id state expiry) := rfl

theorem serve_reconcile (world : World) (id : String) (state expiry : Field) :
    world.serve (.reconcile id state expiry) = world.run (.reconcile id state expiry) := rfl

/-- Every request keeps a manager sound, whether it is served or refused. -/
theorem sound_serve (hsound : world.manager.Sound) (request : OperationRequest) :
    (world.serve request).1.manager.Sound := by
  cases request with
  | register offered nodeReport pipelineReport layout =>
    obtain ⟨refused, failure, hnoted, hserved⟩ | ⟨details, -, hkept, hserved⟩ :=
      world.serve_register_cases offered nodeReport pipelineReport layout
    · rw [hserved]
      exact hsound.alike hnoted.alike
    · rw [hserved]
      exact sound_run_register hsound _ hkept
  | heartbeat offered report =>
    cases hdetails : Details.ofField offered with
    | error failure =>
      rw [serve_heartbeat_refused hdetails]
      exact hsound
    | ok details =>
      rw [serve_heartbeat_admitted hdetails]
      exact sound_run hsound trivial
  | remove id => exact sound_run hsound trivial
  | setState id state expiry => exact sound_run hsound trivial
  | reconcile id state expiry => exact sound_run hsound trivial

end World

/-! ## Loading -/

namespace Manager

/-- A load goes on to a registration only with an entry whose details are admitted. -/
theorem takeEntry_register {manager after : Manager} {loaded : Nat} {answer : TableAnswer} {entry : String}
    {operation : Operation}
    (h : manager.takeEntry loaded answer = (after, .register entry operation)) :
    ∃ stored details, answer = .ok (some stored) ∧ stored.id = entry ∧ after = manager ∧
      manager.screen stored.details = (manager, .ok details) ∧
      operation = .register (manager.storedRegistration details) := by
  unfold takeEntry at h
  split at h
  · simp at h
  · simp at h
  · next stored =>
    split at h
    · simp at h
    · next admitted details hadmitted =>
      obtain ⟨hsame, -⟩ := kept_of_screen hadmitted
      simp only [Prod.mk.injEq, LoadStep.register.injEq] at h
      obtain ⟨hafter, hentry, hoperation⟩ := h
      exact ⟨stored, details, rfl, hentry, hafter.symm.trans hsame, hsame ▸ hadmitted,
        hsame ▸ hoperation.symm⟩

end Manager

namespace World

theorem manager_iterate (world : World) (number : Nat) :
    (world.iterate number).1.manager = world.manager := by
  unfold iterate
  split <;> rfl

/-- What holds while an iterator gives entries, and through the registration of each admitted entry that it gave,
holds through a load, entry by entry. -/
theorem loadEntries_induction_given {table iterator : Nat} {P : World → Prop} {Q : World → TableEntry → Prop}
    (hnext : ∀ {world : World}, P world → P (world.ask table (.next iterator)).1)
    (hgiven : ∀ {world : World} {entry : TableEntry}, P world →
      (world.ask table (.next iterator)).2 = .ok (some entry) → Q (world.ask table (.next iterator)).1 entry)
    (hnoted : ∀ {world : World} {after : Manager}, P world → world.manager.Noted after → P (world.withManager after))
    (hregister : ∀ {world : World} {entry : TableEntry} {details : Details}, P world → Q world entry →
      world.manager.screen entry.details = (world.manager, .ok details) →
      P (world.run (.register (world.manager.storedRegistration details))).1)
    {world : World} (h : P world) (bound loaded : Nat) :
    P (loadEntries bound world ⟨table, iterator, loaded⟩).1 := by
  induction bound generalizing world loaded with
  | zero => exact h
  | succ bound ih =>
    have hasked := hnext h
    have hanswered (entry : TableEntry) := @hgiven world entry h
    unfold loadEntries
    cases hanswer : world.ask table (.next iterator) with
    | mk asked answer =>
      rw [hanswer] at hasked hanswered
      simp only
      split
      · next manager htaken =>
        have hclosed := asked.manager.noted_takeEntry loaded answer
        rw [htaken] at hclosed
        exact hnoted hasked hclosed
      · next manager entry operation htaken =>
        obtain ⟨stored, details, hstored, -, rfl, hscreen, rfl⟩ := Manager.takeEntry_register htaken
        have hregistered := hregister hasked (hanswered stored hstored) hscreen
        have hself : asked.withManager asked.manager = asked := rfl
        rw [hself]
        cases hrun : asked.run (.register (asked.manager.storedRegistration details)) with
        | mk registered outcome =>
          rw [hrun] at hregistered
          have hended := registered.manager.noted_takeRegistered entry loaded outcome
          simp only
          split
          · next hfailed =>
            rw [hfailed] at hended
            exact hnoted hregistered hended
          · next hloaded =>
            rw [hloaded] at hended
            exact ih (hnoted hregistered hended) _

section Induction

variable {P : World → Prop}
  (hask : ∀ {world : World} (number : Nat) (request : TableRequest), P world → P (world.ask number request).1)
  (hnoted : ∀ {world : World} {after : Manager}, P world → world.manager.Noted after →
    P (world.withManager after))
  (hregister : ∀ {world : World} {field : Field} {details : Details}, P world →
    world.manager.screen field = (world.manager, .ok details) →
    P (world.run (.register (world.manager.storedRegistration details))).1)

include hask hnoted hregister

/-- What holds through the registration of an admitted row holds through a load, however far it comes. -/
theorem load_induction
    (hiterate : ∀ {world : World} (number : Nat), P world → P (world.iterate number).1)
    {world : World} (h : P world) : P world.load.1 := by
  unfold load
  split
  · exact h
  · next table htable =>
    have hopened := hiterate table h
    split
    · next refused failure hrefused => rwa [hrefused] at hopened
    · next opened iterator hiterator =>
      rw [hiterator] at hopened
      have hended := loadEntries_induction_given (Q := fun _ _ ↦ True)
        (fun hready ↦ hask table (.next iterator) hready) (fun _ _ ↦ trivial) hnoted
        (fun hready _ hscreen ↦ hregister hready hscreen) hopened (opened.entriesLeft table iterator + 1) 0
      have hclosed := hask table (.close iterator) hended
      exact hnoted hclosed (Manager.noted_takeClosed _ _)

end Induction

/-- A load keeps a manager sound, however far it comes. -/
theorem sound_load {world : World} (hsound : world.manager.Sound) : world.load.1.manager.Sound := by
  apply load_induction (P := fun world ↦ world.manager.Sound) _ _ _ _ hsound
  · intro world number request hready
    exact hready.alike (world.alike_ask number request)
  · intro world after hready hnoted
    exact hready.alike hnoted.alike
  · intro world field details hready hscreen
    exact sound_run_register hready _ (Manager.kept_of_screen hscreen).2.1
  · intro world number hready
    rwa [manager_iterate]

end World

end ClusterMembership
