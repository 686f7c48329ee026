import ClusterMembership.Proofs.Restart
import ClusterMembership.Proofs.Rollback

/-!
# Descriptors of registered datanodes

The descriptive attributes of a datanode are kept twice, in the index of known datanodes and in the details of its
record.  The index takes those of every attempt to register, before the topology is asked.  An attempt that is undone
puts back what was there, and one that lasts brings the same attributes into the record.  One that the topology refuses
leaves the record as it was, so from then on the index tells what was refused, until a registration lasts.  Nothing
else moves either of the two: the index changes with registrations and removals alone, and a change of the operational
state keeps the other attributes.
-/

namespace ClusterMembership

/-! ## Attempts to register -/

/-- Details that were to be registered, with what came of it. -/
structure Attempt where
  details : Details
  outcome : Outcome
  deriving DecidableEq

namespace Attempt

/-- The topology has refused the datanode its location. -/
def IsRefused (attempt : Attempt) : Prop :=
  ∃ acknowledgement, attempt.outcome = .ok (.acknowledged acknowledgement) ∧ acknowledgement.permitted = false

/-- The row could not be written, and the placement was given up. -/
def IsUndone (attempt : Attempt) : Prop := ∃ error, attempt.outcome = .error (.service error)

/-- Details of a datanode that the topology was the last to refuse, no registration of it having lasted since. -/
def RefusedLast (attempts : List Attempt) (id : String) (details : Details) : Prop :=
  Since (fun _ attempt ↦ attempt.details.id = id ∧ attempt.IsRefused ∧ attempt.details = details)
    (fun _ attempt ↦ attempt.details.id = id ∧ ¬ attempt.IsUndone) attempts

variable {attempts : List Attempt} {attempt : Attempt} {id : String} {details : Details}

theorem IsRefused.not_isUndone (h : attempt.IsRefused) : ¬ attempt.IsUndone := by
  rintro ⟨error, herror⟩
  obtain ⟨acknowledgement, haccepted, -⟩ := h
  rw [herror] at haccepted
  cases haccepted

/-- A refusal of a datanode takes the place of those before. -/
theorem refusedLast_concat_of_isRefused (hid : attempt.details.id = id) (h : attempt.IsRefused) :
    RefusedLast (attempts ++ [attempt]) id details ↔ attempt.details = details := by
  unfold RefusedLast
  rw [since_append_iff]
  simp [hid, h, h.not_isUndone]

/-- An attempt that lasts ends the refusals of its datanode. -/
theorem not_refusedLast_concat (hid : attempt.details.id = id) (hrefused : ¬ attempt.IsRefused)
    (hundone : ¬ attempt.IsUndone) : ¬ RefusedLast (attempts ++ [attempt]) id details := by
  unfold RefusedLast
  rw [since_append_iff]
  simp [hid, hrefused, hundone]

/-- An attempt that is undone, or is about another datanode, counts for nothing. -/
theorem refusedLast_concat_of_isUndone (h : attempt.details.id = id → attempt.IsUndone) :
    RefusedLast (attempts ++ [attempt]) id details ↔ RefusedLast attempts id details := by
  unfold RefusedLast
  rw [since_append_iff]
  constructor
  · rintro (⟨hid, hrefused, -⟩ | ⟨hpast, -⟩)
    · exact absurd (h hid) hrefused.not_isUndone
    · exact hpast
  · exact fun hpast ↦ .inr ⟨hpast, fun ⟨hid, hlasts⟩ ↦ hlasts (h hid)⟩

end Attempt

namespace World

def attempt (world : World) (request : RegistrationRequest) : Attempt :=
  ⟨request.details, (world.run (.register request)).2⟩

/-- The attempts during a load, entry after entry, at most as many as given. -/
def entryAttempts : Nat → World → Loading → List Attempt
  | 0, _, _ => []
  | bound + 1, world, loading =>
    let (asked, answer) := world.ask loading.table (.next loading.iterator)
    match asked.manager.takeEntry loading.loaded answer with
    | (manager, .register entry (.register request)) =>
      let (registered, outcome) := (asked.withManager manager).run (.register request)
      match registered.manager.takeRegistered entry loading.loaded outcome with
      | (_, none) => [⟨request.details, outcome⟩]
      | (manager, some loaded) =>
        ⟨request.details, outcome⟩ ::
          entryAttempts bound (registered.withManager manager) { loading with loaded := loaded }
    | _ => []

def loadAttempts (world : World) : List Attempt :=
  match world.manager.table with
  | none => []
  | some table =>
    match world.iterate table with
    | (_, .error _) => []
    | (opened, .ok iterator) =>
      opened.entryAttempts (opened.entriesLeft table iterator + 1) ⟨table, iterator, 0⟩

/-- The attempt that a request makes, if it is one to register admitted details. -/
def requestAttempts (world : World) (request : OperationRequest) : List Attempt :=
  match request with
  | .register offered nodeReport pipelineReport layout =>
    match world.manager.screen offered with
    | (_, .ok details) => [world.attempt { details, nodeReport, pipelineReport, layout }]
    | (_, .error _) => []
  | _ => []

/-- The attempts to register that a move makes; a load makes one for each admitted entry. -/
def attemptsOf (world : World) : Move → List Attempt
  | .call (.operate request) => world.requestAttempts request
  | .call .load => world.loadAttempts
  | .call (.switch table) => (world.switchTable table).loadAttempts
  | _ => []

def attempts (world : World) : List Move → List Attempt
  | [] => []
  | move :: rest => world.attemptsOf move ++ (world.move move).attempts rest

end World

/-- The operational state is none of the descriptive attributes. -/
@[simp]
theorem Details.descriptor_withOperational (details : Details) (state expiry : Field) :
    (details.withOperational state expiry).descriptor = details.descriptor := by
  have hget {name : String} (hstate : "persistedOpState" ≠ name) (hexpiry : "persistedOpStateExpiryEpochSec" ≠ name) :=
    details.get_withOperational_of_ne state expiry hstate hexpiry
  unfold descriptor hostName ipAddress
  rw [hget (by decide) (by decide), hget (by decide) (by decide), hget (by decide) (by decide),
    hget (by decide) (by decide), hget (by decide) (by decide)]

/-! ## The index -/

namespace Manager

variable (manager : Manager)

variable {manager} in
theorem known_of_addCommand {id : String} {command : Command} {after : Manager}
    (h : manager.addCommand id command = .ok after) : after.known = manager.known := by
  unfold addCommand at h
  split at h
  · rw [← Except.ok.inj h]
  · cases h

theorem known_completeRegistration (placed : PlacedRegistration) :
    (manager.completeRegistration placed).1.known = manager.known := by
  obtain ⟨registry, commands, cluster, trace, hcompleted⟩ := manager.exists_frame_completeRegistration placed
  rw [hcompleted]

theorem known_settleWrite (id : String) (answer : TableAnswer) :
    (manager.settleWrite id answer).1.known = manager.known := by
  obtain ⟨marks, trace, hsettled⟩ := manager.exists_settleWrite_eq id answer
  rw [hsettled]

/-- The topology may refuse a datanode whose attributes the index has taken already. -/
theorem known_placing (request : RegistrationRequest) :
    (manager.placing request).1.known = manager.known.record request.details :=
  (sameRest_place { manager with known := manager.known.record request.details } request.details _ _).known

/-- Undoing a placement puts back what the index had before it. -/
theorem peek_undoPlacement {manager failed : Manager} {placed : PlacedRegistration}
    (hrecorded : failed.known = manager.known.record placed.request.details)
    (hprevious : placed.previousDescriptor = manager.known.peek placed.request.details.id) (id : String) :
    (failed.undoPlacement placed).known.peek id = manager.known.peek id := by
  have hundone : (failed.undoPlacement placed).known =
      failed.known.restore placed.request.details.id placed.previousDescriptor := by
    unfold undoPlacement
    simp only
    split
    · rfl
    · split <;> rfl
  rw [hundone, KnownNodes.peek_restore, hprevious, hrecorded, KnownNodes.peek_record]
  split
  · next hsame => rw [hsame]
  · rfl

/-! ## What keeps the descriptors -/

/-- Datanodes that are registered in the later of two states of a manager are registered in the earlier, with records
that describe them alike. -/
def Portrays (before after : Manager) : Prop :=
  ∀ id standing, after.standing id = some standing →
    ∃ former, before.standing id = some former ∧ former.details.descriptor = standing.details.descriptor

/-- Two states of a manager between which the descriptors of the datanodes that stay registered have not changed,
neither in the index nor in the records. -/
structure DescribesAlike (before after : Manager) : Prop where
  known : ∀ {id}, (after.standing id).isSome = true → after.known.peek id = before.known.peek id
  portrays : before.Portrays after

variable {before middle after : Manager}

theorem Portrays.of_standing (h : ∀ id, after.standing id = before.standing id) : before.Portrays after :=
  fun _ standing hstanding ↦ ⟨standing, (h _).symm.trans hstanding, rfl⟩

theorem Portrays.trans (hfirst : before.Portrays middle) (hsecond : middle.Portrays after) :
    before.Portrays after := by
  intro id standing hstanding
  obtain ⟨between, hbetween, hlast⟩ := hsecond id standing hstanding
  obtain ⟨former, hformer, hsame⟩ := hfirst id between hbetween
  exact ⟨former, hformer, hsame.trans hlast⟩

/-- A change of the operational state is none of the descriptor. -/
theorem portrays_restate (hkeyed : before.Keyed) (id : String) (state expiry : Field) (now : Instant) :
    before.Portrays (before.restate id state expiry now) := by
  intro other standing hother
  rw [standing_restate hkeyed] at hother
  split at hother
  · next hsame =>
    obtain ⟨former, hformer, rfl⟩ := Option.map_eq_some_iff.mp hother
    exact ⟨former, hsame ▸ hformer, (former.details.descriptor_withOperational state expiry).symm⟩
  · exact ⟨standing, hother, rfl⟩

namespace DescribesAlike

protected theorem refl (manager : Manager) : manager.DescribesAlike manager :=
  ⟨fun _ ↦ rfl, .of_standing fun _ ↦ rfl⟩

protected theorem trans (hfirst : before.DescribesAlike middle) (hsecond : middle.DescribesAlike after) :
    before.DescribesAlike after where
  known := fun {id} hregistered ↦ by
    obtain ⟨standing, hstanding⟩ := Option.isSome_iff_exists.mp hregistered
    obtain ⟨between, hbetween, -⟩ := hsecond.portrays id standing hstanding
    exact (hsecond.known hregistered).trans (hfirst.known (Option.isSome_iff_exists.mpr ⟨between, hbetween⟩))
  portrays := hfirst.portrays.trans hsecond.portrays

theorem of_standing (hknown : after.known = before.known) (h : ∀ id, after.standing id = before.standing id) :
    before.DescribesAlike after :=
  ⟨fun _ ↦ by rw [hknown], .of_standing h⟩

end DescribesAlike

theorem Alike.describesAlike (h : before.Alike after) : before.DescribesAlike after :=
  .of_standing h.known h.standing

theorem describesAlike_settleWrite (manager : Manager) (id : String) (answer : TableAnswer) :
    manager.DescribesAlike (manager.settleWrite id answer).1 :=
  .of_standing (manager.known_settleWrite id answer) (manager.standing_settleWrite id answer)

theorem describesAlike_restate (hkeyed : before.Keyed) (id : String) (state expiry : Field) (now : Instant) :
    before.DescribesAlike (before.restate id state expiry now) :=
  ⟨fun _ ↦ rfl, portrays_restate hkeyed id state expiry now⟩

theorem describesAlike_heartbeat (hkeyed : before.Keyed) (details : Details) (report : HeartbeatReport)
    (now : Instant) : before.DescribesAlike (before.heartbeat details report now).1 where
  known _ := by rw [(before.monitored_heartbeat details report now).known]
  portrays := by
    rcases heartbeat_membership hkeyed details report now with
      htended | ⟨-, reported, state, expiry, hreported, hended⟩
    · exact .of_standing htended.standing
    · have hrestated := portrays_restate (hreported.keyed hkeyed) details.id state expiry now
      exact (Portrays.of_standing hreported.standing).trans (hrestated.trans (.of_standing hended.standing))

/-- A datanode that is removed leaves the index with its record. -/
theorem describesAlike_forget (manager : Manager) (id : String) : manager.DescribesAlike (manager.forget id) := by
  have hstanding := manager.standing_forget id
  refine ⟨fun {other} hregistered ↦ ?_, fun other standing hother ↦ ?_⟩
  · rw [hstanding] at hregistered
    split at hregistered
    · cases hregistered
    · next hother => exact (manager.known.peek_erase id other).trans (if_neg hother)
  · rw [hstanding] at hother
    split at hother
    · cases hother
    · exact ⟨standing, hother, rfl⟩

end Manager

/-! ## What attempts do to the descriptors -/

namespace Manager

/-- The index tells of each registered datanode what its record says, or else what the topology was the last to
refuse. -/
def Described (manager : Manager) (attempts : List Attempt) : Prop :=
  ∀ id standing, manager.standing id = some standing →
    (∀ details, Attempt.RefusedLast attempts id details → manager.known.peek id = some details.descriptor) ∧
    ((∀ details, ¬ Attempt.RefusedLast attempts id details) →
      manager.known.peek id = some standing.details.descriptor)

namespace Described

variable {manager after : Manager} {attempts : List Attempt} {attempt : Attempt}

theorem of_describesAlike (h : manager.Described attempts) (halike : manager.DescribesAlike after) :
    after.Described attempts := by
  intro id standing hstanding
  obtain ⟨former, hformer, hsame⟩ := halike.portrays id standing hstanding
  rw [halike.known (Option.isSome_iff_exists.mpr ⟨standing, hstanding⟩), ← hsame]
  exact h id former hformer

theorem refused (h : manager.Described attempts) (hrefused : attempt.IsRefused)
    (hknown : after.known = manager.known.record attempt.details)
    (hstanding : ∀ id, after.standing id = manager.standing id) : after.Described (attempts ++ [attempt]) := by
  intro id standing hid
  rw [hknown, KnownNodes.peek_record]
  split
  · next hsame =>
    have hlast (details : Details) :
        Attempt.RefusedLast (attempts ++ [attempt]) id details ↔ attempt.details = details :=
      Attempt.refusedLast_concat_of_isRefused hsame hrefused
    refine ⟨fun details hdetails ↦ ?_, fun hnone ↦ ?_⟩
    · rw [(hlast details).mp hdetails]
    · exact absurd ((hlast attempt.details).mpr rfl) (hnone attempt.details)
  · next hother =>
    simp only [Attempt.refusedLast_concat_of_isUndone fun hsame ↦ absurd hsame hother]
    exact h id standing ((hstanding id).symm.trans hid)

theorem undone (h : manager.Described attempts) (hundone : attempt.IsUndone)
    (hknown : ∀ id, after.known.peek id = manager.known.peek id)
    (hstanding : ∀ id, after.standing id = manager.standing id) : after.Described (attempts ++ [attempt]) := by
  intro id standing hid
  simp only [hknown, Attempt.refusedLast_concat_of_isUndone fun _ ↦ hundone]
  exact h id standing ((hstanding id).symm.trans hid)

theorem lasting (h : manager.Described attempts) (hrefused : ¬ attempt.IsRefused) (hundone : ¬ attempt.IsUndone)
    (hknown : after.known = manager.known.record attempt.details)
    (hstanding : ∀ id, after.standing id =
      if attempt.details.id = id then some (Standing.renewed (manager.standing attempt.details.id) attempt.details)
      else manager.standing id) : after.Described (attempts ++ [attempt]) := by
  intro id standing hid
  rw [hstanding] at hid
  rw [hknown, KnownNodes.peek_record]
  split
  · next hsame =>
    have hdescriptor (previous : Option Standing) :
        (Standing.renewed previous attempt.details).details.descriptor = attempt.details.descriptor := by
      cases previous with
      | none => rfl
      | some previous => exact attempt.details.descriptor_withOperational _ _
    rw [if_pos hsame] at hid
    refine ⟨fun details hlast ↦ absurd hlast (Attempt.not_refusedLast_concat hsame hrefused hundone), fun _ ↦ ?_⟩
    rw [← Option.some.inj hid, hdescriptor]
  · next hother =>
    rw [if_neg hother] at hid
    simp only [Attempt.refusedLast_concat_of_isUndone fun hsame ↦ absurd hsame hother]
    exact h id standing hid

end Described

/-- A write that is given up is given up with an error of the service. -/
theorem exists_service_of_settleWrite_error {manager failed : Manager} {id : String} {answer : TableAnswer}
    {failure : Failure} (h : manager.settleWrite id answer = (failed, .error failure)) :
    ∃ error, (.error failure : Outcome) = .error (.service error) := by
  unfold settleWrite at h
  split at h
  · cases h
  · simp only at h
    split at h
    · exact ⟨_, congrArg Except.error (Except.error.inj (congrArg Prod.snd h)).symm⟩
    · cases h

/-- A registration that is completed lasts, even when a malformed report keeps it from being acknowledged. -/
theorem completeRegistration_lasts (manager : Manager) (placed : PlacedRegistration) (details : Details) :
    ¬ Attempt.IsRefused ⟨details, (manager.completeRegistration placed).2.map Reply.acknowledged⟩ ∧
      ¬ Attempt.IsUndone ⟨details, (manager.completeRegistration placed).2.map Reply.acknowledged⟩ := by
  unfold completeRegistration
  simp only
  split
  · next failure hfailure =>
    obtain ⟨message, rfl⟩ : ∃ message, failure = .misshapen message := by
      unfold noteUsage NodeReport.usage at hfailure
      split at hfailure
      · cases hfailure
      · split at hfailure
        · cases hfailure
        · exact ⟨_, (Except.error.inj hfailure).symm⟩
    constructor
    · rintro ⟨acknowledgement, haccepted, -⟩
      cases haccepted
    · rintro ⟨error, herror⟩
      cases herror
  · constructor
    · rintro ⟨acknowledgement, haccepted, hpermitted⟩
      obtain rfl := Reply.acknowledged.inj (Except.ok.inj haccepted)
      cases hpermitted
    · rintro ⟨error, herror⟩
      cases herror

variable {manager : Manager} {attempts : List Attempt}

/-- A placed registration that is completed brings its attributes into the record. -/
theorem Described.completed (h : manager.Described attempts) (hsound : manager.Sound)
    {request : RegistrationRequest} (hkept : request.details.Kept) {inPlace written : Manager}
    (hplacing : manager.placing request = (inPlace, none)) (hknown : written.known = inPlace.known)
    (hstanding : ∀ id, written.standing id = inPlace.standing id) {placed : PlacedRegistration}
    (hplaced : placed.request.details = request.details) :
    (written.completeRegistration placed).1.Described (attempts ++
      [⟨request.details, (written.completeRegistration placed).2.map Reply.acknowledged⟩]) := by
  obtain ⟨hrefused, hundone⟩ := written.completeRegistration_lasts placed request.details
  obtain ⟨hinPlace, hregistered⟩ := hsound.placing hkept hplacing
  have hwritten : written.Keyed := keyed_of_standing fun {id standing} hid ↦
    (hinPlace.records ((hstanding id).symm.trans hid)).identified
  have hstill : written.registry.contains placed.request.details.id = true := by
    rwa [hplaced, contains_eq_isSome_standing, hstanding, ← contains_eq_isSome_standing]
  refine h.lasting hrefused hundone ?_ fun id ↦ ?_
  · have hrecorded := manager.known_placing request
    rw [hplacing] at hrecorded
    exact (written.known_completeRegistration placed).trans (hknown.trans hrecorded)
  · have hcompleted := written.tended_completeRegistration hwritten hstill
    exact (hcompleted.standing id).trans ((hstanding id).trans ((renews_of_placing hsound.keyed hplacing).standing id))

/-- A registration whose write is answered lasts, or is undone under strict durability. -/
theorem Described.finished (h : manager.Described attempts) (hsound : manager.Sound)
    {request : RegistrationRequest} (hkept : request.details.Kept) {inPlace asked : Manager}
    (hplacing : manager.placing request = (inPlace, none)) (halike : inPlace.Alike asked) (answer : TableAnswer) :
    (asked.finishRegistration (manager.placedBy inPlace request) answer).1.Described (attempts ++
      [⟨request.details, (asked.finishRegistration (manager.placedBy inPlace request) answer).2⟩]) := by
  have hid : (manager.placedBy inPlace request).request.details.id = request.details.id := rfl
  unfold finishRegistration
  rw [hid]
  split
  · next written hwritten =>
    have hknown := asked.known_settleWrite request.details.id answer
    have hstanding := asked.standing_settleWrite request.details.id answer
    rw [hwritten] at hknown hstanding
    exact h.completed hsound hkept hplacing (hknown.trans halike.known)
      (fun id ↦ (hstanding id).trans (halike.standing id)) rfl
  · next failed failure hfailed =>
    have hsame := halike.trans (alike_of_settleWrite_error hfailed)
    have hrecorded := manager.known_placing request
    rw [hplacing] at hrecorded
    have hundone : manager.Tended (failed.undoPlacement (manager.placedBy inPlace request)) :=
      tended_undoPlacement hsound hkept rfl rfl hplacing hsame
    exact h.undone (exists_service_of_settleWrite_error hfailed)
      (peek_undoPlacement (hsame.known.trans hrecorded) rfl) hundone.standing

end Manager

namespace World

variable {world : World} {attempts : List Attempt}

/-- Whatever comes of an attempt to register, index and records fit the attempts up to it. -/
theorem described_run_register (h : world.manager.Described attempts) (hsound : world.manager.Sound)
    (request : RegistrationRequest) (hkept : request.details.Kept) :
    (world.run (.register request)).1.manager.Described (attempts ++ [world.attempt request]) := by
  unfold attempt
  cases hplacing : world.manager.placing request with
  | mk inPlace refusal =>
    cases refusal with
    | some refusal =>
      rw [run_register_refused hplacing]
      have halike := inPlace.alike_refuse request.details refusal
      have hknown := world.manager.known_placing request
      rw [hplacing] at hknown
      exact h.refused ⟨_, rfl, rfl⟩ (halike.known.trans hknown)
        ((Manager.tended_of_placing_refused hplacing).trans halike.tended).standing
    | none =>
      cases hwrite : (if request.persist then inPlace.table else none) with
      | none =>
        rw [run_register_unwritten hplacing hwrite]
        exact h.completed hsound hkept hplacing rfl (fun _ ↦ rfl) rfl
      | some table =>
        rw [run_register_written hplacing hwrite rfl]
        exact h.finished hsound hkept hplacing (world.alike_askedToPut inPlace table request) _

/-! ## Operations and loads -/

theorem describesAlike_run_heartbeat (hkeyed : world.manager.Keyed) (details : Details) (report : HeartbeatReport)
    (issuedAt : Instant) :
    world.manager.DescribesAlike (world.run (.heartbeat details report issuedAt)).1.manager := by
  rw [run_heartbeat]
  unfold manager Service.heartbeat
  simp only
  split
  · exact Manager.describesAlike_heartbeat hkeyed details report issuedAt
  · next observer _ =>
    unfold Service.observedHeartbeat
    simp only
    split
    · unfold Service.refuseOutdated
      refine .of_standing ?_ fun _ ↦ ?_ <;> cases observer.discards <;> rfl
    · exact Manager.describesAlike_heartbeat hkeyed details report _

theorem describesAlike_run_remove (world : World) (id : String) :
    world.manager.DescribesAlike (world.run (.remove id)).1.manager := by
  obtain ⟨failure, -, hnoted⟩ | ⟨asked, hnoted, -, hforgotten⟩ := world.run_remove_cases id
  · exact hnoted.alike.describesAlike
  · rw [hforgotten]
    exact hnoted.alike.describesAlike.trans (asked.describesAlike_forget id)

theorem describesAlike_runStateChange (hkeyed : world.manager.Keyed) (id : String) (state expiry : Field)
    (reply : Reply) : world.manager.DescribesAlike
      (world.runStateChange id (world.manager.beginStateChange id state expiry reply)).1.manager := by
  cases hrecord : world.manager.registry.get? id with
  | none =>
    rw [Manager.beginStateChange_of_absent ((Registry.contains_eq_false_iff _ _).mpr hrecord)]
    exact .refl world.manager
  | some record =>
    obtain ⟨note, hbegin⟩ := Manager.exists_beginStateChange_eq hrecord state expiry reply
    rw [hbegin]
    let restated := (world.manager.restate id state (Registry.expiryOrNever expiry) world.manager.clock).note note
    have hrestated : world.manager.DescribesAlike restated :=
      (Manager.describesAlike_restate hkeyed id state _ _).trans (Manager.alike_note _ note).describesAlike
    unfold runStateChange
    cases world.manager.table with
    | none => exact hrestated
    | some table =>
      have hasked := ((world.withManager restated).alike_ask table
        (.put id (record.details.withOperational state (Registry.expiryOrNever expiry)))).describesAlike
      exact (hrestated.trans hasked).trans (Manager.describesAlike_settleWrite _ id _)

/-- Operations other than registrations keep the descriptors. -/
theorem describesAlike_serve (hkeyed : world.manager.Keyed) {request : OperationRequest}
    (hrequest : ∀ offered nodeReport pipelineReport layout,
      request ≠ .register offered nodeReport pipelineReport layout) :
    world.manager.DescribesAlike (world.serve request).1.manager := by
  cases request with
  | register offered nodeReport pipelineReport layout => exact absurd rfl (hrequest offered _ _ _)
  | heartbeat offered report =>
    cases hdetails : Details.ofField offered with
    | error failure =>
      rw [serve_heartbeat_refused hdetails]
      exact .refl world.manager
    | ok details =>
      rw [serve_heartbeat_admitted hdetails]
      exact describesAlike_run_heartbeat hkeyed details report world.clock
  | remove id => exact world.describesAlike_run_remove id
  | setState id state expiry =>
    rw [serve_setState, run_setState]
    exact describesAlike_runStateChange hkeyed id state expiry .nothing
  | reconcile id state expiry =>
    rw [serve_reconcile, run_reconcile]
    obtain ⟨outcome, -, hbegin⟩ | ⟨noted, hlogged, hbegin⟩ := world.manager.beginReconcile_cases id state expiry
    · rw [hbegin]
      exact .refl world.manager
    · rw [hbegin]
      have hnoted : (world.withManager noted).manager.Keyed := hlogged.alike.tended.keyed hkeyed
      exact hlogged.alike.describesAlike.trans (describesAlike_runStateChange hnoted id state expiry (.changed true))

/-- Index and records fit the attempts while a table is loaded, entry by entry. -/
theorem described_loadEntries (bound : Nat) {world : World} {attempts : List Attempt}
    (h : world.manager.Described attempts) (hsound : world.manager.Sound) (loading : Loading) :
    (world.loadEntries bound loading).1.manager.Described (attempts ++ world.entryAttempts bound loading) := by
  induction bound generalizing world attempts loading with
  | zero =>
    rw [entryAttempts, List.append_nil]
    exact h
  | succ bound ih =>
    have halike := world.alike_ask loading.table (.next loading.iterator)
    unfold loadEntries entryAttempts
    cases hanswer : world.ask loading.table (.next loading.iterator) with
    | mk asked answer =>
      rw [hanswer] at halike
      have hasked := h.of_describesAlike halike.describesAlike
      have htaking := (asked.manager.noted_takeEntry loading.loaded answer).alike
      simp only
      cases htaken : asked.manager.takeEntry loading.loaded answer with
      | mk manager step =>
        cases step with
        | close =>
          rw [htaken] at htaking
          simp only [List.append_nil]
          exact hasked.of_describesAlike htaking.describesAlike
        | register entry operation =>
          obtain ⟨stored, details, -, -, rfl, hscreen, rfl⟩ := Manager.takeEntry_register htaken
          obtain ⟨-, hkept, -⟩ := Manager.kept_of_screen hscreen
          have hready : asked.manager.Sound := hsound.alike halike
          have hregistered := described_run_register hasked hready (asked.manager.storedRegistration details) hkept
          have hstill := sound_run_register hready (asked.manager.storedRegistration details) hkept
          have hself : asked.withManager asked.manager = asked := rfl
          unfold attempt at hregistered
          simp only [hself]
          cases hrun : asked.run (.register (asked.manager.storedRegistration details)) with
          | mk registered outcome =>
            rw [hrun] at hregistered hstill
            have hended := (registered.manager.noted_takeRegistered entry loading.loaded outcome).alike
            simp only
            cases hloaded : registered.manager.takeRegistered entry loading.loaded outcome with
            | mk ended loaded =>
              rw [hloaded] at hended
              let reached := registered.withManager ended
              have hfit : reached.manager.Described (attempts ++ [⟨details, outcome⟩]) :=
                hregistered.of_describesAlike hended.describesAlike
              have hnext : reached.manager.Sound := hstill.alike hended
              cases loaded with
              | none => exact hfit
              | some loaded =>
                simp only
                rw [← List.singleton_append, ← List.append_assoc]
                exact ih hfit hnext _

theorem described_load (h : world.manager.Described attempts) (hsound : world.manager.Sound) :
    world.load.1.manager.Described (attempts ++ world.loadAttempts) := by
  unfold load loadAttempts
  cases world.manager.table with
  | none =>
    rw [List.append_nil]
    exact h
  | some table =>
    have hopened := world.manager_iterate table
    simp only
    cases hiterate : world.iterate table with
    | mk opened outcome =>
      rw [hiterate] at hopened
      cases outcome with
      | error failure =>
        simp only [List.append_nil]
        rwa [hopened]
      | ok iterator =>
        simp only
        have hready : opened.manager.Described attempts := hopened.symm ▸ h
        have hloaded := described_loadEntries (opened.entriesLeft table iterator + 1) hready
          (hopened.symm ▸ hsound) ⟨table, iterator, 0⟩
        exact hloaded.of_describesAlike (alike_closeIterator _ table iterator).1.describesAlike

/-! ## Runs -/

theorem described_serve (h : world.manager.Described attempts) (hsound : world.manager.Sound)
    (request : OperationRequest) :
    (world.serve request).1.manager.Described (attempts ++ world.requestAttempts request) := by
  unfold requestAttempts
  split
  · next offered nodeReport pipelineReport layout =>
    cases hscreen : world.manager.screen offered with
    | mk after admitted =>
      cases admitted with
      | error failure =>
        have halike := world.manager.alike_screen offered
        rw [hscreen] at halike
        rw [serve_register_refused hscreen]
        simp only [List.append_nil]
        exact h.of_describesAlike halike.describesAlike
      | ok details =>
        obtain ⟨hsame, hkept, -⟩ := Manager.kept_of_screen hscreen
        rw [serve_register_admitted (hsame ▸ hscreen)]
        exact described_run_register h hsound ⟨details, nodeReport, pipelineReport, layout, true⟩ hkept
  · next hother =>
    rw [List.append_nil]
    exact h.of_describesAlike (describesAlike_serve hsound.keyed hother)

theorem describesAlike_onCommand (world : World) (id : String) (command : Command) :
    world.manager.DescribesAlike (world.service.onCommand id command).manager := by
  have hqueued (manager : Manager) : manager.DescribesAlike (manager.onCommand id command) := by
    unfold Manager.onCommand
    split
    · exact .of_standing rfl fun _ ↦ rfl
    · exact (manager.alike_note _).describesAlike
  unfold Service.onCommand
  split
  · exact (Manager.alike_note _ _).describesAlike
  · exact hqueued world.manager

/-- Whatever a move does, index and records fit the attempts up to it. -/
theorem described_move (h : world.manager.Described attempts) (hsound : world.manager.Sound) (move : Move) :
    (world.move move).manager.Described (attempts ++ world.attemptsOf move) := by
  have hkept {after : World} (halike : world.manager.DescribesAlike after.manager) :
      after.manager.Described (attempts ++ []) := by
    rw [List.append_nil]
    exact h.of_describesAlike halike
  cases move with
  | call call =>
    cases call with
    | operate request => exact described_serve h hsound request
    | load => exact described_load h hsound
    | switch table =>
      have hswitched : (world.switchTable table).manager.Described attempts := h
      exact described_load hswitched (sound_switchTable hsound table)
    | queue id command =>
      refine hkept (.of_standing ?_ (world.tended_queue id command).standing)
      unfold World.move World.call
      simp only
      split
      · next queued hqueued => exact Manager.known_of_addCommand hqueued
      · rfl
    | take id command => exact hkept (world.describesAlike_onCommand id command)
    | purge id => exact hkept (.of_standing rfl fun _ ↦ rfl)
    | refreshUsage =>
      refine hkept (.of_standing ?_ fun _ ↦ ?_) <;>
      · unfold World.move World.call Service.refreshUsage
        simp only
        split <;> rfl
    | sweep moment =>
      exact hkept (.of_standing ((Manager.monitored_checkHeartbeats _ _).known)
        (Manager.tended_checkHeartbeats _ hsound.keyed _).standing)
  | tick now => exact hkept (.of_standing rfl fun _ ↦ rfl)
  | finalizeLayout => exact hkept (.of_standing rfl fun _ ↦ rfl)
  | spoil table faults => exact hkept (.refl world.manager)
  | exchange tables => exact hkept (.refl world.manager)

theorem described_after (h : world.manager.Described attempts) (hsound : world.manager.Sound) (moves : List Move) :
    (world.after moves).manager.Described (attempts ++ world.attempts moves) := by
  induction moves generalizing world attempts with
  | nil =>
    rw [World.attempts, List.append_nil]
    exact h
  | cons move rest ih =>
    rw [World.attempts, ← List.append_assoc]
    exact ih (described_move h hsound move) (sound_move hsound move)

end World

/-- A descriptor gives the descriptive members of details. -/
structure Descriptor.Describes (descriptor : Descriptor) (details : Details) : Prop where
  hostName : descriptor.hostName = details.get "hostName"
  ipAddress : descriptor.ipAddress = details.get "ipAddress"
  version : descriptor.version = details.get "version"
  setupTime : descriptor.setupTime = details.get "setupTime"
  revision : descriptor.revision = details.get "revision"

theorem Details.describes_descriptor (details : Details) : details.descriptor.Describes details :=
  ⟨rfl, rfl, rfl, rfl, rfl⟩

namespace World

/-- In every run from empty memory, of a primary or an observer, with refused registrations, failed writes and loads,
the index gives for each registered datanode the descriptive attributes that its record has.  Only when the topology
has refused the datanode in a new registration or an entry of a table, and no registration of it has lasted since, the
index gives what was refused last. -/
theorem descriptors_agree_after (world : World) (hempty : world.manager.HasEmptyMemory) (moves : List Move)
    {id : String} {record : NodeRecord} (hrecord : (world.after moves).manager.registry.get? id = some record) :
    ((∀ details, ¬ Attempt.RefusedLast (world.attempts moves) id details) →
      ((world.after moves).manager.known.get id).Describes record.details) ∧
    ∀ details, Attempt.RefusedLast (world.attempts moves) id details →
      ((world.after moves).manager.known.get id).Describes details := by
  have hstart : world.manager.Described [] := by
    intro id standing hstanding
    rw [Manager.standing, hempty.registry] at hstanding
    cases hstanding
  obtain ⟨hrefused, hagrees⟩ := described_after hstart hempty.sound moves id record.standing
    (Manager.standing_eq_some hrecord)
  rw [List.nil_append] at hrefused hagrees
  refine ⟨fun hnone ↦ ?_, fun details hlast ↦ ?_⟩
  · rw [KnownNodes.get, hagrees hnone]
    exact record.details.describes_descriptor
  · rw [KnownNodes.get, hrefused details hlast]
    exact details.describes_descriptor

end World

/-- Details with which a datanode is to register again, under another name and at another depth. -/
def Details.renamed : Details := ⟨(Details.sample "/row1/rack1").members.set "hostName" (.text "dn9")⟩

/-- Two datanodes register, and one of them again with a location that does not fit the other. -/
def Move.refusedRenaming : List Move :=
  [.sample "/rack1", .call (.operate (.register (some (Details.neighbour "/rack2").toValue) none none none)),
    .call (.operate (.register (some Details.renamed.toValue) none none none))]

namespace World

/-- The record keeps the name from before the refusal, and the index gives the one that was refused. -/
theorem not_descriptors_agree_after_refusal :
    ¬ ∀ (world : World) (moves : List Move) (id : String) (record : NodeRecord), world.manager.HasEmptyMemory →
      (world.after moves).manager.registry.get? id = some record →
      ((world.after moves).manager.known.get id).Describes record.details := by
  intro hagrees
  let reached := (initial Configuration.default).after Move.refusedRenaming
  have hrecorded : (reached.manager.registry.get? (Details.sample "").id).map (fun record ↦ record.details.hostName) =
      some (some (.text "dn1")) := by decide +kernel
  obtain ⟨record, hrecord, hname⟩ := Option.map_eq_some_iff.mp hrecorded
  have hsame := hagrees _ Move.refusedRenaming _ record (hasEmptyMemory_initial Configuration.default) hrecord
  have hindex : (reached.manager.known.get (Details.sample "").id).hostName = some (.text "dn9") := by decide +kernel
  have hrefused : record.details.hostName = some (.text "dn9") := hsame.hostName.symm.trans hindex
  exact absurd (hname.symm.trans hrefused) (by decide)

/-- After the refusal the attributes in the index are those that were refused. -/
theorem descriptors_agree_after_refusal :
    let world := initial Configuration.default
    let reached := world.after Move.refusedRenaming
    world.manager.HasEmptyMemory ∧
      (∃ record, reached.manager.registry.get? (Details.sample "").id = some record) ∧
      (reached.manager.known.get (Details.sample "").id).Describes Details.renamed := by
  intro world reached
  have hempty : world.manager.HasEmptyMemory := hasEmptyMemory_initial _
  obtain ⟨record, hrecord⟩ : ∃ record, reached.manager.registry.get? (Details.sample "").id = some record :=
    (Registry.contains_iff _ _).mp (by decide +kernel)
  have hattempts : world.attempts Move.refusedRenaming = (world.attempts Move.refusedRenaming).take 2 ++
      [⟨Details.renamed, .ok (.acknowledged ⟨false, Details.renamed, "CID-local"⟩)⟩] := by decide +kernel
  have hlast : Attempt.RefusedLast (world.attempts Move.refusedRenaming) (Details.sample "").id Details.renamed := by
    rw [hattempts]
    exact (Attempt.refusedLast_concat_of_isRefused (by decide +kernel) ⟨_, rfl, rfl⟩).mpr rfl
  exact ⟨hempty, ⟨record, hrecord⟩, (descriptors_agree_after world hempty _ hrecord).2 _ hlast⟩

end World

end ClusterMembership
