import ClusterMembership.Proofs.Logging
import ClusterMembership.Proofs.Vitals

/-!
# What a datanode reports of its operational state

A primary under whose authority operational states stand gives the state that a registered datanode reports no
weight: registering again, the datanode gets the state of its record, and a heartbeat with another state brings
a command that leaves with the reply.  `Details.Rephrases` relates details that differ in nothing but the
values of the operational state and its expiry.  Registering again with the one or the other leads to the same
world, and a heartbeat with the one or the other to worlds that are the same but for the log.
-/

namespace ClusterMembership

namespace Details

/-! ## Details but for their operational state -/

/-- Details with the values of the operational state and its expiry blanked, where they are given. -/
def blanked (details : Details) : Details :=
  details.withOperational (details.operational.map fun _ ↦ .null) (details.expiry.map fun _ ↦ .null)

/-- Details that are the same but for the values of the operational state and its expiry. -/
def Rephrases (details other : Details) : Prop := details.blanked = other.blanked

variable {details other : Details}

/-- Blanked values are replaced as the values themselves would be. -/
theorem withOperational_blanked (details : Details) (state expiry : Field) :
    details.blanked.withOperational state expiry = details.withOperational state expiry := by
  have hblank {field : Field} (hnone : field.map (fun _ ↦ Value.null) = none) : field = none :=
    Option.map_eq_none_iff.mp hnone
  let stated := details.members.setField "persistedOpState" (details.operational.map fun _ ↦ .null)
  let restated := details.members.setField "persistedOpState" state
  have hstated : stated.get "persistedOpStateExpiryEpochSec" = details.expiry :=
    Members.get_setField details.members _ _ _
  have hrestated : restated.get "persistedOpStateExpiryEpochSec" = details.expiry :=
    Members.get_setField details.members _ _ _
  have hstate : stated.setField "persistedOpState" state = restated :=
    Members.setField_setField hblank state
  have hplaces : (stated.setField "persistedOpState" state).setField "persistedOpStateExpiryEpochSec"
      (details.expiry.map fun _ ↦ .null) =
        (stated.setField "persistedOpStateExpiryEpochSec" (details.expiry.map fun _ ↦ .null)).setField
          "persistedOpState" state :=
    Members.setField_comm (by decide)
      (fun hnone ↦ congrArg (Option.map fun _ ↦ Value.null) (hstated.symm.trans hnone)) state
  have hexpiry : (restated.setField "persistedOpStateExpiryEpochSec"
      (details.expiry.map fun _ ↦ .null)).setField "persistedOpStateExpiryEpochSec" expiry =
        restated.setField "persistedOpStateExpiryEpochSec" expiry :=
    Members.setField_setField (fun hnone ↦ hrestated.trans (hblank hnone)) expiry
  rw [hstate] at hplaces
  unfold blanked withOperational
  rw [← hplaces, hexpiry]

theorem get_blanked_of_ne (details : Details) {name : String} (hstate : "persistedOpState" ≠ name)
    (hexpiry : "persistedOpStateExpiryEpochSec" ≠ name) : details.blanked.get name = details.get name :=
  details.get_withOperational_of_ne _ _ hstate hexpiry

namespace Rephrases

theorem withOperational (h : details.Rephrases other) (state expiry : Field) :
    details.withOperational state expiry = other.withOperational state expiry := by
  rw [← withOperational_blanked, ← other.withOperational_blanked, h]

theorem get_of_ne (h : details.Rephrases other) {name : String} (hstate : "persistedOpState" ≠ name)
    (hexpiry : "persistedOpStateExpiryEpochSec" ≠ name) : details.get name = other.get name := by
  rw [← details.get_blanked_of_ne hstate hexpiry, ← other.get_blanked_of_ne hstate hexpiry, h]

theorem identity (h : details.Rephrases other) : details.identity = other.identity :=
  h.get_of_ne (by decide) (by decide)

theorem id (h : details.Rephrases other) : details.id = other.id := by
  unfold Details.id
  rw [h.identity]

theorem hostName (h : details.Rephrases other) : details.hostName = other.hostName :=
  h.get_of_ne (by decide) (by decide)

theorem networkLocation (h : details.Rephrases other) : details.networkLocation = other.networkLocation :=
  h.get_of_ne (by decide) (by decide)

theorem location (h : details.Rephrases other) : details.location = other.location := by
  unfold Details.location
  rw [h.networkLocation]

theorem descriptor (h : details.Rephrases other) : details.descriptor = other.descriptor := by
  have hget {name : String} (hstate : "persistedOpState" ≠ name)
      (hexpiry : "persistedOpStateExpiryEpochSec" ≠ name) : details.get name = other.get name :=
    h.get_of_ne hstate hexpiry
  unfold Details.descriptor Details.hostName Details.ipAddress
  rw [hget (by decide) (by decide), hget (by decide) (by decide), hget (by decide) (by decide),
    hget (by decide) (by decide), hget (by decide) (by decide)]

end Rephrases

/-! ## Admission -/

theorem blanked_set (details : Details) {name : String} (hstate : "persistedOpState" ≠ name)
    (hexpiry : "persistedOpStateExpiryEpochSec" ≠ name) (value : Value) :
    (⟨details.members.set name value⟩ : Details).blanked = ⟨details.blanked.members.set name value⟩ := by
  let changed : Details := ⟨details.members.set name value⟩
  let stated := details.members.setField "persistedOpState" (details.operational.map fun _ ↦ .null)
  have hoperational : changed.operational = details.operational :=
    (Members.get_set details.members _ _ value).trans (if_neg (Ne.symm hstate))
  have hlapses : changed.expiry = details.expiry :=
    (Members.get_set details.members _ _ value).trans (if_neg (Ne.symm hexpiry))
  have hstated : stated.get "persistedOpStateExpiryEpochSec" = details.expiry :=
    Members.get_setField details.members _ _ _
  have hfirst : (details.members.set name value).setField "persistedOpState"
      (details.operational.map fun _ ↦ .null) = stated.set name value :=
    Members.setField_comm hstate (fun hnone ↦ congrArg (Option.map fun _ ↦ Value.null) hnone) (some value)
  have hsecond : (stated.set name value).setField "persistedOpStateExpiryEpochSec"
      (details.expiry.map fun _ ↦ .null) =
        (stated.setField "persistedOpStateExpiryEpochSec" (details.expiry.map fun _ ↦ .null)).set name value :=
    Members.setField_comm hexpiry
      (fun hnone ↦ congrArg (Option.map fun _ ↦ Value.null) (hstated.symm.trans hnone)) (some value)
  change changed.withOperational (changed.operational.map fun _ ↦ .null) (changed.expiry.map fun _ ↦ .null) = _
  rw [hoperational, hlapses]
  exact congrArg Details.mk ((congrArg (Members.setField · _ _) hfirst).trans hsecond)

/-- Blanking the operational state and normalizing may change places. -/
theorem map_blanked_normalize (details : Details) :
    details.normalize.map blanked = details.blanked.normalize := by
  have hports : details.blanked.ports = details.ports := details.get_blanked_of_ne (by decide) (by decide)
  have hlocation : details.blanked.networkLocation = details.networkLocation :=
    details.get_blanked_of_ne (by decide) (by decide)
  unfold normalize
  rw [hports, hlocation]
  cases copyPorts details.ports with
  | error failure => rfl
  | ok copied =>
    let listed : Details := ⟨details.members.set "ports" (.list copied)⟩
    have hlisted : listed.blanked = ⟨details.blanked.members.set "ports" (.list copied)⟩ :=
      details.blanked_set (by decide) (by decide) _
    have hlocated :
        (⟨listed.members.set "networkLocation" (keptLocation details.networkLocation)⟩ : Details).blanked =
          ⟨listed.blanked.members.set "networkLocation" (keptLocation details.networkLocation)⟩ :=
      listed.blanked_set (by decide) (by decide) _
    rw [hlisted] at hlocated
    exact congrArg Except.ok hlocated

/-- Details that differ in their operational state only are normalized alike. -/
theorem Rephrases.normalize (h : details.Rephrases other) :
    (∃ failure, details.normalize = .error failure ∧ other.normalize = .error failure) ∨
      ∃ kept rephrased, details.normalize = .ok kept ∧ other.normalize = .ok rephrased ∧
        kept.Rephrases rephrased := by
  have hblanked : details.normalize.map blanked = other.normalize.map blanked := by
    rw [map_blanked_normalize, map_blanked_normalize, h]
  cases hkept : details.normalize with
  | error failure =>
    cases hrephrased : other.normalize with
    | error cause =>
      rw [hkept, hrephrased] at hblanked
      exact .inl ⟨failure, rfl, congrArg Except.error (Except.error.inj hblanked).symm⟩
    | ok rephrased => simp [hkept, hrephrased, Except.map] at hblanked
  | ok kept =>
    cases hrephrased : other.normalize with
    | error cause => simp [hkept, hrephrased, Except.map] at hblanked
    | ok rephrased =>
      rw [hkept, hrephrased] at hblanked
      exact .inr ⟨kept, rephrased, rfl, rfl, Except.ok.inj hblanked⟩

/-- Details that differ in valid operational states are found to have the same flaws. -/
theorem Rephrases.check (h : details.Rephrases other)
    (hdetails : Validation.StateValid details.operational details.expiry)
    (hother : Validation.StateValid other.operational other.expiry) :
    Validation.check (some details.toValue) = Validation.check (some other.toValue) := by
  have hget {name : String} (hstate : "persistedOpState" ≠ name)
      (hexpiry : "persistedOpStateExpiryEpochSec" ≠ name) :
      Members.get details.members name = Members.get other.members name := h.get_of_ne hstate hexpiry
  unfold toValue Validation.check
  simp only
  have hstate : Validation.operational Validation.operationalField
      (Members.get details.members "persistedOpState") = none := hdetails.state
  have hexpiry : Validation.nonNegativeInteger "persistedOpStateExpiryEpochSec"
      (Members.get details.members "persistedOpStateExpiryEpochSec") = none := hdetails.expiry
  have hstate' : Validation.operational Validation.operationalField
      (Members.get other.members "persistedOpState") = none := hother.state
  have hexpiry' : Validation.nonNegativeInteger "persistedOpStateExpiryEpochSec"
      (Members.get other.members "persistedOpStateExpiryEpochSec") = none := hother.expiry
  rw [hstate, hexpiry, hstate', hexpiry', @hget "uuid" (by decide) (by decide),
    @hget "hostName" (by decide) (by decide), @hget "ipAddress" (by decide) (by decide),
    @hget "ports" (by decide) (by decide), @hget "networkLocation" (by decide) (by decide),
    @hget "setupTime" (by decide) (by decide)]

end Details

/-- What is kept of a registration, had it come with other details. -/
def PlacedRegistration.rephrase (placed : PlacedRegistration) (other : Details) : PlacedRegistration :=
  { placed with request := { placed.request with details := other } }

namespace Manager

variable {manager : Manager} {details other : Details}

/-- Details that differ in valid operational states are both refused or both admitted. -/
theorem screen_rephrased (manager : Manager) (h : details.Rephrases other)
    (hdetails : Validation.StateValid details.operational details.expiry)
    (hother : Validation.StateValid other.operational other.expiry) :
    (∃ refused failure, manager.screen (some details.toValue) = (refused, .error failure) ∧
      manager.screen (some other.toValue) = (refused, .error failure)) ∨
      ∃ kept rephrased, manager.screen (some details.toValue) = (manager, .ok kept) ∧
        manager.screen (some other.toValue) = (manager, .ok rephrased) ∧ kept.id = details.id ∧
        kept.Rephrases rephrased := by
  have hflaws := h.check hdetails hother
  have hread (details : Details) : Details.ofField (some details.toValue) = .ok details := rfl
  unfold screen
  rw [hflaws, hread, hread]
  rcases Validation.check (some other.toValue) with failure | ⟨_ | ⟨flaw, flaws⟩⟩
  · exact .inl ⟨manager, failure, rfl, rfl⟩
  · obtain ⟨failure, hfailed, hfailed'⟩ | ⟨kept, rephrased, hkept, hkept', hrephrases⟩ := h.normalize
    · exact .inl ⟨manager, failure, congrArg (Prod.mk manager) hfailed, congrArg (Prod.mk manager) hfailed'⟩
    · exact .inr ⟨kept, rephrased, congrArg (Prod.mk manager) hkept, congrArg (Prod.mk manager) hkept',
        Details.id_of_normalize hkept, hrephrases⟩
  · simp only [h.identity]
    exact .inl ⟨_, _, rfl, rfl⟩

/-! ## Registering again -/

/-- A registered datanode is placed with the operational state of its record. -/
theorem place_rephrased (h : details.Rephrases other) (hregistered : manager.registry.contains details.id = true)
    (layout : LayoutReport) (now : Instant) :
    manager.place details layout now = manager.place other layout now := by
  have hdetailed : Registry.detailed details now = Registry.detailed other now := by
    funext record
    unfold Registry.detailed
    rw [h.withOperational]
  have hregistered' : manager.registry.contains other.id = true := h.id ▸ hregistered
  unfold place
  simp only [hregistered', if_true, hdetailed, h.id, h.location]

theorem placing_rephrased {request : RegistrationRequest} (h : request.details.Rephrases other)
    (hregistered : manager.registry.contains request.details.id = true) :
    manager.placing request = manager.placing { request with details := other } := by
  have hrecord : manager.known.record request.details = manager.known.record other := by
    unfold KnownNodes.record
    rw [h.id, h.descriptor]
  have hregistered' : ({ manager with known := manager.known.record other } : Manager).registry.contains
      request.details.id = true := hregistered
  unfold placing
  simp only
  rw [hrecord, place_rephrased h hregistered']

/-- The details that are kept are those of the record, not those of the registration. -/
theorem placedBy_rephrased (manager : Manager) {request : RegistrationRequest} (h : request.details.Rephrases other)
    {inPlace : Manager} (hregistered : inPlace.registry.contains request.details.id = true) :
    manager.placedBy inPlace { request with details := other } =
      (manager.placedBy inPlace request).rephrase other := by
  obtain ⟨record, hrecord⟩ := (Registry.contains_iff _ _).mp hregistered
  unfold placedBy PlacedRegistration.rephrase
  simp only [← h.id, hrecord]
  rfl

theorem announce_rephrased (manager : Manager) {placed : PlacedRegistration}
    (h : placed.request.details.Rephrases other) :
    manager.announce (placed.rephrase other) = manager.announce placed := by
  unfold announce PlacedRegistration.rephrase
  simp only [h.id, h.identity, h.hostName, h.networkLocation]

theorem completeRegistration_rephrased (manager : Manager) {placed : PlacedRegistration}
    (h : placed.request.details.Rephrases other) :
    (manager.completeRegistration (placed.rephrase other)).1 = (manager.completeRegistration placed).1 := by
  have hannounce (manager : Manager) := announce_rephrased manager h
  unfold completeRegistration
  simp only [hannounce]
  unfold PlacedRegistration.rephrase
  simp only [← h.id]
  split <;> rfl

theorem finishRegistration_rephrased (manager : Manager) {placed : PlacedRegistration}
    (h : placed.request.details.Rephrases other) (answer : TableAnswer) :
    (manager.finishRegistration (placed.rephrase other) answer).1 =
      (manager.finishRegistration placed answer).1 := by
  have hid : (placed.rephrase other).request.details.id = placed.request.details.id := h.id.symm
  unfold finishRegistration
  rw [hid]
  cases manager.settleWrite placed.request.details.id answer with
  | mk written settled =>
    cases settled with
    | ok _ => exact completeRegistration_rephrased written h
    | error failure =>
      have hundone : written.undoPlacement (placed.rephrase other) = written.undoPlacement placed := by
        unfold undoPlacement
        rw [hid]
        rfl
      exact hundone

/-! ## Heartbeats -/

/-- The command that corrects a reported operational state leaves with the other commands. -/
theorem exists_drainCommands_settleState (henforced : manager.authority = .enforce) (details : Details)
    (now : Instant) :
    ∃ entries, ((manager.settleState details now).drainCommands details.id).1 =
      (manager.drainCommands details.id).1.relog entries := by
  unfold settleState
  simp only
  split
  · exact ⟨manager.trace.entries, rfl⟩
  · split
    · exact ⟨manager.trace.entries, rfl⟩
    · rw [henforced]
      simp only
      unfold drainCommands
      simp only [CommandQueue.drain_add]
      exact ⟨_, rfl⟩

/-- What a heartbeat reports of the operational state shows in the log at most. -/
theorem exists_heartbeat_rephrased (henforced : manager.authority = .enforce) (h : details.Rephrases other)
    (report : HeartbeatReport) (now : Instant) :
    ∃ entries, (manager.heartbeat other report now).1 =
      (manager.heartbeat details report now).1.relog entries := by
  unfold heartbeat
  simp only
  rw [h.id, h.identity, h.hostName]
  split
  · exact ⟨_, rfl⟩
  · next record _ =>
    have hheard := manager.spares_hear other.id record.status.health report.layout now
    split
    · exact ⟨_, rfl⟩
    · next reported htaken =>
      have hauthority : reported.authority = .enforce :=
        (hheard.trans (spares_of_takeReports htaken)).authority.trans henforced
      obtain ⟨entries, hdrained⟩ := exists_drainCommands_settleState hauthority details now
      obtain ⟨rest, hdrained'⟩ := exists_drainCommands_settleState hauthority other now
      rw [h.id] at hdrained
      refine ⟨rest, ?_⟩
      rw [hdrained, hdrained']
      rfl

end Manager

namespace World

variable {world : World} {details other : Details}

/-- A registered datanode that registers again with another operational state leads to the same world. -/
theorem run_register_rephrased (hsound : world.manager.Sound) {request : RegistrationRequest}
    (hkept : request.details.Kept) (hregistered : world.manager.registry.contains request.details.id = true)
    (h : request.details.Rephrases other) :
    (world.run (.register { request with details := other })).1 = (world.run (.register request)).1 := by
  have hplacing := Manager.placing_rephrased h hregistered
  cases hplaced : world.manager.placing request with
  | mk inPlace refusal =>
    have hplaced' := hplacing.symm.trans hplaced
    cases refusal with
    | some refusal =>
      have hrefuse : (inPlace.refuse other refusal).1 = (inPlace.refuse request.details refusal).1 := by
        unfold Manager.refuse
        simp only [h.id, h.identity, h.networkLocation, h.location]
      rw [run_register_refused hplaced, run_register_refused hplaced', hrefuse]
    | none =>
      obtain ⟨-, hinPlace⟩ := hsound.placing hkept hplaced
      have hkeeps := world.manager.placedBy_rephrased h hinPlace
      have hid : other.id = request.details.id := h.id.symm
      cases hwrite : (if request.persist then inPlace.table else none) with
      | none =>
        rw [run_register_unwritten hplaced hwrite, run_register_unwritten hplaced' hwrite, hkeeps,
          inPlace.completeRegistration_rephrased h]
      | some table =>
        have hasked : world.askedToPut inPlace table { request with details := other } =
            world.askedToPut inPlace table request := by
          unfold askedToPut
          rw [hkeeps, ← hid]
          rfl
        cases hask : world.askedToPut inPlace table request with
        | mk asked answer =>
          rw [hask] at hasked
          rw [run_register_written hplaced hwrite hask, run_register_written hplaced' hwrite hasked, hkeeps,
            asked.manager.finishRegistration_rephrased h]

/-- Heartbeats of a datanode with different operational states lead to worlds that are the same but for the
log. -/
theorem run_heartbeat_rephrased (hprimary : world.service.IsPrimary)
    (henforced : world.manager.authority = .enforce) (h : details.Rephrases other) (report : HeartbeatReport)
    (issuedAt : Instant) :
    (world.run (.heartbeat details report issuedAt)).1.SameButLog
      (world.run (.heartbeat other report issuedAt)).1 := by
  obtain ⟨entries, hheard⟩ := Manager.exists_heartbeat_rephrased henforced h report issuedAt
  rw [run_heartbeat, run_heartbeat, hprimary.heartbeat_eq, hprimary.heartbeat_eq]
  exact ⟨entries, congrArg world.withManager hheard⟩

end World

end ClusterMembership
