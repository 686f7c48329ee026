import ClusterMembership.Proofs.Durability

/-!
# How operations start and end

Under a lock an operation starts on the memory as it is, and what it finds there decides what it does: it leaves
the membership alone, or it places, restates or forgets its datanode, and it ends at once or asks the table to
write or to delete a row.  `World.Starts` is the list.  When the table has answered, the memory may be another
one, and `Manager.Finishes` lists what the end of an operation then does to it.
-/

namespace ClusterMembership

/-- The datanode that an operation keeps something of while it waits. -/
def Remainder.datanode : Remainder → String
  | .registration placed => placed.request.details.id
  | .removal id | .stateChange id _ => id

theorem Standing.id_renewed (previous : Option Standing) (details : Details) :
    (renewed previous details).details.id = details.id := by
  cases previous with
  | none => rfl
  | some standing => exact details.id_withOperational _ _

/-- A standing that is renewed under its identifier leaves the records under theirs. -/
theorem Manager.Renews.keyed {before after : Manager} {id : String} {standing : Standing}
    (h : before.Renews after id standing) (hid : standing.details.id = id) (hkeyed : before.Keyed) :
    after.Keyed := by
  apply keyed_of_standing
  intro other found hfound
  rw [h.standing] at hfound
  split at hfound
  · next hsame => exact (Option.some.inj hfound ▸ hid).trans hsame
  · obtain ⟨record, hrecord, rfl⟩ := exists_record_of_standing hfound
    exact hkeyed hrecord

theorem Manager.settings_of_placing {manager inPlace : Manager} {request : RegistrationRequest}
    (h : manager.placing request = (inPlace, none)) : inPlace.settings = manager.settings := by
  have hrest := ({ manager with known := manager.known.record request.details } : Manager).sameRest_place
    request.details (request.layout.getD manager.layout.report) manager.clock
  exact (congrArg (fun placed ↦ placed.1.settings) h).symm.trans hrest.settings

/-- What an operation keeps while it waits goes with the memory: the datanode of a registration is registered, and
the record from before fits in its place. -/
def Manager.Awaits (manager : Manager) : Remainder → Prop
  | .registration placed => manager.registry.contains placed.request.details.id = true ∧
      ∀ previous, placed.previous = some previous → previous.standing.Sound placed.request.details.id
  | _ => True

theorem Manager.Awaits.of_standing {manager after : Manager} {remainder : Remainder}
    (h : manager.Awaits remainder)
    (hstanding : after.standing remainder.datanode = manager.standing remainder.datanode) :
    after.Awaits remainder := by
  cases remainder with
  | registration placed =>
    refine ⟨?_, h.2⟩
    rw [contains_eq_isSome_standing, show after.standing placed.request.details.id = _ from hstanding,
      ← contains_eq_isSome_standing]
    exact h.1
  | _ => trivial

namespace World

/-- The start of an operation places a datanode: it is the registration of that datanode, and the topology accepts
it. -/
def Places (world : World) : Operation → String → Prop
  | .register request, id => request.details.id = id ∧ (world.manager.placing request).2 = none
  | _, _ => False

/-- The start of an operation may adopt an operational state that a datanode reports: it is a heartbeat of that
datanode, and the registry takes over what datanodes report. -/
def Adopts (world : World) : Operation → String → Prop
  | .heartbeat details _ _, id => details.id = id ∧ world.manager.authority = .followReported
  | _, _ => False

/-- What the start of an operation can make of the manager, and how far the operation comes with it. -/
inductive Starts (before : World) : Operation → Manager → Progress Remainder → Prop
  /-- It has ended, and the membership is the same. -/
  | stays {operation : Operation} {after : Manager} {outcome : Outcome}
      (hunplaced : ∀ id, ¬ before.Places operation id) (htended : before.manager.Tended after) :
      Starts before operation after (.ended outcome)
  /-- A registration has ended that is not to be written. -/
  | places {request : RegistrationRequest} {inPlace after : Manager} {outcome : Outcome}
      (hplacing : before.manager.placing request = (inPlace, none))
      (hunwritten : request.persist = false ∨ before.manager.table = none) (hcompleted : inPlace.Tended after) :
      Starts before (.register request) after (.ended outcome)
  /-- A registration asks for its row to be written. -/
  | writes {request : RegistrationRequest} {inPlace : Manager} {table : Nat}
      (hplacing : before.manager.placing request = (inPlace, none)) (hpersist : request.persist = true)
      (htable : before.manager.table = some table) :
      Starts before (.register request) inPlace
        (.asking table (.put request.details.id (before.manager.placedBy inPlace request).stored)
          (.registration (before.manager.placedBy inPlace request)))
  /-- A datanode is forgotten without a table. -/
  | forgets {id : String} (htable : before.manager.table = none) :
      Starts before (.remove id) (before.manager.forget id) (.ended (.ok .nothing))
  /-- A removal asks for the row to be deleted. -/
  | deletes {id : String} {table : Nat} (hregistered : before.manager.registry.contains id = true)
      (htable : before.manager.table = some table) :
      Starts before (.remove id) before.manager (.asking table (.delete id) (.removal id))
  /-- A datanode is restated, and that is not to be written. -/
  | restates {operation : Operation} {noted after : Manager} {state expiry : Field} {now : Instant}
      {outcome : Outcome} (hunplaced : ∀ id, ¬ before.Places operation id)
      (hunwritten : before.Adopts operation operation.datanode ∨ before.manager.table = none)
      (hnoted : before.manager.Tended noted)
      (hrestated : (noted.restate operation.datanode state expiry now).Tended after) :
      Starts before operation after (.ended outcome)
  /-- A change of an operational state asks for its row to be written. -/
  | rewrites {operation : Operation} {noted after : Manager} {state expiry : Field} {now : Instant}
      {table : Nat} {standing : Standing} {reply : Reply} (hunplaced : ∀ id, ¬ before.Places operation id)
      (htable : before.manager.table = some table) (hnoted : before.manager.Tended noted)
      (hrestated : (noted.restate operation.datanode state expiry now).Tended after)
      (hstanding : after.standing operation.datanode = some standing) :
      Starts before operation after
        (.asking table (.put operation.datanode standing.details) (.stateChange operation.datanode reply))

variable {world : World}

theorem starts_register (hkeyed : world.manager.Keyed) (request : RegistrationRequest) :
    world.Starts (.register request) (world.start (.register request)).1.manager
      (world.start (.register request)).2 := by
  cases hplacing : world.manager.placing request with
  | mk inPlace refusal =>
    cases refusal with
    | some refusal =>
      rw [start_register_refused hplacing]
      refine .stays ?_ ((Manager.tended_of_placing_refused hplacing).trans (Manager.alike_refuse _ _ _).tended)
      rintro id ⟨-, hnone⟩
      rw [hplacing] at hnone
      simp at hnone
    | none =>
      have hrenews := Manager.renews_of_placing hkeyed hplacing
      have htable : inPlace.table = world.manager.table := congrArg Settings.table hrenews.settings
      cases hwrite : (if request.persist then inPlace.table else none) with
      | none =>
        rw [start_register_unwritten hplacing hwrite]
        have hinPlace : inPlace.Keyed := hrenews.keyed (Standing.id_renewed _ _) hkeyed
        refine .places hplacing ?_ (inPlace.tended_completeRegistration hinPlace hrenews.contains_self)
        cases hpersist : request.persist with
        | false => exact .inl rfl
        | true =>
          rw [hpersist, if_pos rfl, htable] at hwrite
          exact .inr hwrite
      | some table =>
        rw [start_register_written hplacing hwrite]
        cases hpersist : request.persist with
        | false => simp [hpersist] at hwrite
        | true =>
          rw [hpersist, if_pos rfl, htable] at hwrite
          exact .writes hplacing hpersist hwrite

theorem starts_remove (world : World) (id : String) :
    world.Starts (.remove id) (world.start (.remove id)).1.manager (world.start (.remove id)).2 := by
  cases hregistered : world.manager.registry.contains id with
  | false =>
    rw [start_remove_of_absent hregistered]
    exact .stays (fun _ h ↦ h) (.refl world.manager)
  | true =>
    cases htable : world.manager.table with
    | none =>
      rw [start_remove_unwritten hregistered htable]
      exact .forgets htable
    | some table =>
      rw [start_remove_written hregistered htable]
      exact .deletes hregistered htable

/-- A change of an operational state that starts on a manager that has at most logged. -/
theorem starts_stateChange (hkeyed : world.manager.Keyed) {operation : Operation}
    (hunplaced : ∀ id, ¬ world.Places operation id) {noted : Manager} (halike : world.manager.Alike noted)
    (state expiry : Field) (reply : Reply) :
    world.Starts operation (noted.beginStateChange operation.datanode state expiry reply).1
      ((noted.beginStateChange operation.datanode state expiry reply).2.mapKept
        (Remainder.stateChange operation.datanode)) := by
  have hnoted := halike.tended
  have htable : noted.table = world.manager.table := congrArg Settings.table halike.settings
  cases hrecord : noted.registry.get? operation.datanode with
  | none =>
    rw [Manager.beginStateChange_of_absent ((Registry.contains_eq_false_iff _ _).mpr hrecord)]
    exact .stays hunplaced hnoted
  | some record =>
    obtain ⟨note, hbegin⟩ := Manager.exists_beginStateChange_eq hrecord state expiry reply
    have hrestated := Manager.tended_note
      (noted.restate operation.datanode state (Registry.expiryOrNever expiry) noted.clock) note
    rw [hbegin]
    cases hused : noted.table with
    | none => exact .restates hunplaced (.inr (htable ▸ hused)) hnoted hrestated
    | some table =>
      have hstanding : ((noted.restate operation.datanode state (Registry.expiryOrNever expiry) noted.clock).note
          note).standing operation.datanode =
            some (record.standing.restated state (Registry.expiryOrNever expiry)) := by
        rw [hrestated.standing, Manager.standing_restate (hnoted.keyed hkeyed), if_pos rfl,
          Manager.standing_eq_some hrecord, Option.map_some]
      exact .rewrites hunplaced (htable ▸ hused) hnoted hrestated hstanding

/-- The start of an operation is one of those listed. -/
theorem starts (hkeyed : world.manager.Keyed) (operation : Operation) :
    world.Starts operation (world.start operation).1.manager (world.start operation).2 := by
  cases operation with
  | register request => exact starts_register hkeyed request
  | heartbeat details report issuedAt =>
    rcases Service.heartbeat_membership hkeyed details report issuedAt with
      htended | ⟨hfollows, reported, state, expiry, now, hreported, hrestated⟩
    · exact .stays (fun _ h ↦ h) htended
    · exact .restates (fun _ h ↦ h) (.inl ⟨rfl, hfollows⟩) hreported hrestated
  | remove id => exact world.starts_remove id
  | setState id state expiry =>
    have hunplaced (other : String) : ¬ world.Places (.setState id state expiry) other := fun h ↦ h
    exact starts_stateChange hkeyed hunplaced (.refl world.manager) state expiry .nothing
  | reconcile id state expiry =>
    have hunplaced (other : String) : ¬ world.Places (.reconcile id state expiry) other := fun h ↦ h
    have hstart : world.start (.reconcile id state expiry) =
        (world.withManager (Service.beginReconcile world.manager id state expiry).1,
          (Service.beginReconcile world.manager id state expiry).2.mapKept (Remainder.stateChange id)) := rfl
    rw [hstart]
    rcases Manager.beginReconcile_cases world.manager id state expiry with
      ⟨outcome, -, hbegin⟩ | ⟨noted, hlogged, hbegin⟩
    · rw [hbegin]
      exact .stays hunplaced (.refl world.manager)
    · rw [hbegin]
      exact starts_stateChange hkeyed hunplaced hlogged.alike state expiry (.changed true)

theorem Starts.settings {operation : Operation} {after : Manager} {progress : Progress Remainder}
    (h : world.Starts operation after progress) : after.settings = world.manager.settings := by
  cases h with
  | stays _ htended => exact htended.settings
  | places hplacing _ hcompleted => exact hcompleted.settings.trans (Manager.settings_of_placing hplacing)
  | writes hplacing _ _ => exact Manager.settings_of_placing hplacing
  | forgets _ | deletes _ _ => rfl
  | restates _ _ hnoted hrestated | rewrites _ _ hnoted hrestated _ =>
    exact hrestated.settings.trans hnoted.settings

/-- The start of an operation leaves the other datanodes as they stand. -/
theorem Starts.standing_of_ne {operation : Operation} {after : Manager} {progress : Progress Remainder}
    (h : world.Starts operation after progress) (hkeyed : world.manager.Keyed) {other : String}
    (hother : operation.datanode ≠ other) : after.standing other = world.manager.standing other := by
  have hplaced {request : RegistrationRequest} {inPlace : Manager}
      (hplacing : world.manager.placing request = (inPlace, none)) (hdifferent : request.details.id ≠ other) :
      inPlace.standing other = world.manager.standing other :=
    ((Manager.renews_of_placing hkeyed hplacing).standing other).trans (if_neg hdifferent)
  have hrestates {noted : Manager} (hnoted : world.manager.Tended noted) (state expiry : Field) (now : Instant) :
      (noted.restate operation.datanode state expiry now).standing other = world.manager.standing other := by
    rw [Manager.standing_restate (hnoted.keyed hkeyed), if_neg hother]
    exact hnoted.standing other
  cases h with
  | stays _ htended => exact htended.standing other
  | places hplacing _ hcompleted => exact (hcompleted.standing other).trans (hplaced hplacing hother)
  | writes hplacing _ _ => exact hplaced hplacing hother
  | forgets _ => exact (Manager.standing_forget _ _ other).trans (if_neg hother)
  | deletes _ _ => rfl
  | restates _ _ hnoted hrestated | rewrites _ _ hnoted hrestated _ =>
    exact (hrestated.standing other).trans (hrestates hnoted _ _ _)

/-- An operation that waits keeps what goes with the memory, for its own datanode. -/
theorem Starts.awaits {operation : Operation} {after : Manager} {table : Nat} {request : TableRequest}
    {remainder : Remainder} (h : world.Starts operation after (.asking table request remainder))
    (hrecords : ∀ {id standing}, world.manager.standing id = some standing → standing.Sound id) :
    remainder.datanode = operation.datanode ∧ after.Awaits remainder := by
  cases h with
  | writes hplacing _ _ =>
    have hkeyed : world.manager.Keyed := Manager.keyed_of_standing fun hstanding ↦ (hrecords hstanding).identified
    exact ⟨rfl, (Manager.renews_of_placing hkeyed hplacing).contains_self, fun previous hprevious ↦
      hrecords (Manager.standing_eq_some hprevious)⟩
  | deletes _ _ | rewrites _ _ _ _ _ => exact ⟨rfl, trivial⟩

end World

/-! ## The end -/

namespace Manager

/-- What the end of an operation can make of the manager, given the answer of the table. -/
inductive Finishes (before : Manager) : Remainder → TableAnswer → Manager → Prop
  /-- A registration is completed once its write is settled. -/
  | completes {placed : PlacedRegistration} {answer : TableAnswer} {written : Manager}
      (hwritten : before.settleWrite placed.request.details.id answer = (written, .ok ())) :
      Finishes before (.registration placed) answer (written.completeRegistration placed).1
  /-- A registration is undone since its write is given up. -/
  | undoes {placed : PlacedRegistration} {cause : Failure} {failed : Manager}
      (hstrict : before.configuration.isStrict = true) (hfailed : before.Alike failed) :
      Finishes before (.registration placed) (.error cause) (failed.undoPlacement placed)
  /-- A datanode is forgotten once its row is deleted. -/
  | forgets {id : String} {answer : Option TableEntry} :
      Finishes before (.removal id) (.ok answer) (before.forget id)
  /-- A datanode stays since its row does. -/
  | keeps {id : String} {cause : Failure} {after : Manager} (halike : before.Alike after) :
      Finishes before (.removal id) (.error cause) after
  /-- The write of an operational state is settled. -/
  | settles {id : String} {reply : Reply} {answer : TableAnswer} :
      Finishes before (.stateChange id reply) answer (before.settleWrite id answer).1

variable {manager : Manager}

/-- Only the failure of a write under strict durability is given up. -/
theorem exists_failure_of_settleWrite_error {id : String} {answer : TableAnswer} {failed : Manager}
    {failure : Failure} (h : manager.settleWrite id answer = (failed, .error failure)) :
    (∃ cause, answer = .error cause) ∧ manager.configuration.isStrict = true := by
  unfold settleWrite at h
  split at h
  · simp at h
  · simp only at h
    split at h
    · next hstrict => exact ⟨⟨_, rfl⟩, hstrict⟩
    · simp at h

theorem finishes_registration (manager : Manager) (placed : PlacedRegistration) (answer : TableAnswer) :
    manager.Finishes (.registration placed) answer (manager.finishRegistration placed answer).1 := by
  cases hsettled : manager.settleWrite placed.request.details.id answer with
  | mk settled outcome =>
    cases outcome with
    | ok _ =>
      rw [finishRegistration_of_settled hsettled]
      exact .completes hsettled
    | error failure =>
      obtain ⟨⟨cause, rfl⟩, hstrict⟩ := exists_failure_of_settleWrite_error hsettled
      unfold finishRegistration
      rw [hsettled]
      exact .undoes hstrict (alike_of_settleWrite_error hsettled)

/-- A registration whose write is settled is completed on the same registry and tends it. -/
theorem tended_completed {placed : PlacedRegistration} {answer : TableAnswer} {written : Manager}
    (hwritten : manager.settleWrite placed.request.details.id answer = (written, .ok ()))
    (hkeyed : manager.Keyed) (hregistered : manager.registry.contains placed.request.details.id = true) :
    written.registry = manager.registry ∧ written.Tended (written.completeRegistration placed).1 := by
  have hregistry : written.registry = manager.registry := by
    rw [← manager.registry_settleWrite placed.request.details.id answer, hwritten]
  have hstill : written.Keyed := by
    unfold Keyed
    rw [hregistry]
    exact hkeyed
  exact ⟨hregistry, written.tended_completeRegistration hstill (hregistry ▸ hregistered)⟩

/-- The end of an operation leaves the other datanodes as they stand. -/
theorem Finishes.standing_of_ne {remainder : Remainder} {answer : TableAnswer} {after : Manager}
    (h : manager.Finishes remainder answer after) (hkeyed : manager.Keyed) (hawaits : manager.Awaits remainder)
    {other : String} (hother : remainder.datanode ≠ other) : after.standing other = manager.standing other := by
  cases h with
  | completes hwritten =>
    obtain ⟨hregistry, hcompleted⟩ := tended_completed hwritten hkeyed hawaits.1
    refine (hcompleted.standing other).trans ?_
    rw [standing, hregistry]
    rfl
  | @undoes placed cause failed _ hfailed =>
    refine Eq.trans ?_ (hfailed.standing other)
    unfold undoPlacement
    simp only
    split
    · exact (standing_erase failed _ other).trans (if_neg hother)
    · next previous hprevious =>
      have hsame : previous.id = placed.request.details.id := (hawaits.2 previous hprevious).identified
      have hid : previous.id ≠ other := hsame ▸ hother
      have hupserted := (standing_upsert failed previous other).trans (if_neg hid)
      split
      · exact hupserted
      · exact hupserted
  | forgets => exact (standing_forget _ _ other).trans (if_neg hother)
  | keeps halike => exact halike.standing other
  | settles => exact manager.standing_settleWrite _ _ other

theorem Finishes.settings {remainder : Remainder} {answer : TableAnswer} {after : Manager}
    (h : manager.Finishes remainder answer after) (hkeyed : manager.Keyed) (hawaits : manager.Awaits remainder) :
    after.settings = manager.settings := by
  cases h with
  | @completes placed answer written hwritten =>
    obtain ⟨-, hcompleted⟩ := tended_completed hwritten hkeyed hawaits.1
    have hsettled := manager.settings_settleWrite placed.request.details.id answer
    rw [hwritten] at hsettled
    exact hcompleted.settings.trans hsettled
  | undoes _ hfailed =>
    refine Eq.trans ?_ hfailed.settings
    unfold undoPlacement
    simp only
    split
    · rfl
    · split <;> rfl
  | forgets => rfl
  | keeps halike => exact halike.settings
  | settles => exact manager.settings_settleWrite _ _

end Manager

theorem World.finishes (world : World) (remainder : Remainder) (answer : TableAnswer) :
    world.manager.Finishes remainder answer (world.finish remainder answer).1.manager := by
  cases remainder with
  | registration placed => exact world.manager.finishes_registration placed answer
  | removal id =>
    cases answer with
    | ok answer => exact .forgets
    | error cause => exact .keeps (world.manager.alike_note _)
  | stateChange id reply => exact .settles

end ClusterMembership
