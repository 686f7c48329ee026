import ClusterMembership.Proofs.Clock
import ClusterMembership.Proofs.Frame
import ClusterMembership.Proofs.Interleaving
import ClusterMembership.Proofs.Starting

/-!
# Heartbeats in line

A heartbeat that is issued takes the present time with it and joins the line of its datanode at the end.  No step of
a task brings another one into a line or takes any time, so the heartbeats that wait for a lock stand in the order
in which they were issued, and the first of them is the earliest.
-/

namespace ClusterMembership

/-! ## Time, durability and role -/

namespace World

def bearing (world : World) : Instant × Configuration × Bool :=
  (world.clock, world.manager.configuration, world.service.observer.isSome)

theorem bearing_eq {before after : World} (hclock : after.clock = before.clock)
    (hsettings : after.manager.settings = before.manager.settings)
    (hrole : after.service.observer.isSome = before.service.observer.isSome) : after.bearing = before.bearing := by
  have hconfiguration : after.manager.configuration = before.manager.configuration :=
    congrArg Settings.configuration hsettings
  unfold bearing
  rw [hclock, hconfiguration, hrole]

variable {world : World}

theorem bearing_withManager {after : Manager} (hnoted : world.manager.Noted after) :
    (world.withManager after).bearing = world.bearing := by
  obtain ⟨cluster, entries, rfl⟩ := hnoted
  rfl

theorem bearing_ask (world : World) (number : Nat) (request : TableRequest) :
    (world.ask number request).1.bearing = world.bearing :=
  bearing_eq (world.clock_ask number request) (world.alike_ask number request).settings
    (congrArg Option.isSome (world.observer_ask number request))

theorem bearing_iterate (world : World) (number : Nat) : (world.iterate number).1.bearing = world.bearing := by
  unfold iterate
  split <;> rfl

theorem bearing_prepare (world : World) (request : OperationRequest) :
    (world.prepare request).1.bearing = world.bearing := by
  cases request with
  | register offered _ _ _ => exact bearing_withManager (world.manager.noted_screen offered)
  | _ => rfl

theorem bearing_start (hkeyed : world.manager.Keyed) (operation : Operation) :
    (world.start operation).1.bearing = world.bearing := by
  refine bearing_eq (world.clock_start operation) (starts hkeyed operation).settings ?_
  cases operation with
  | heartbeat details report issuedAt =>
    change (world.service.heartbeat details report issuedAt).1.observer.isSome = _
    unfold Service.heartbeat
    split
    · rfl
    · next observer hobserver =>
      rw [hobserver]
      unfold Service.observedHeartbeat
      simp only
      split <;> rfl
  | remove id =>
    unfold start Service.start Service.started
    simp only
    split
    · next removed outcome hended =>
      rw [← (Prod.mk.inj hended).1]
      cases outcome with
      | ok _ => exact Option.isSome_map
      | error _ => rfl
    · next waiting progress _ hwaiting =>
      rw [← (Prod.mk.inj hwaiting).1]
      rfl
  | _ => rfl

theorem bearing_finish (remainder : Remainder) (answer : TableAnswer) :
    (world.finish remainder answer).1.bearing = world.bearing := by
  cases remainder with
  | registration placed =>
    exact bearing_eq (world.clock_finish _ answer) (world.manager.settings_finishRegistration placed answer) rfl
  | stateChange id reply =>
    exact bearing_eq (world.clock_finish _ answer) (world.manager.settings_settleWrite id answer) rfl
  | removal id =>
    refine bearing_eq (world.clock_finish _ answer) ?_ ?_
    · cases answer <;> rfl
    · cases answer with
      | ok _ => exact Option.isSome_map
      | error _ => rfl

end World

/-! ## Heartbeats in line -/

/-- The time at which a heartbeat that claims a lock was issued. -/
def Claim.pulse? : Claim → Option Instant
  | .operate (.heartbeat _ _ issuedAt) => some issuedAt
  | _ => none

/-- The time at which the heartbeat was issued that a task has yet to start. -/
def Work.pulse? : Work → Option Instant
  | .waiting claim | .granted claim => claim.pulse?
  | _ => none

theorem Work.pulse?_started (id : String) (progress : Progress Remainder) : (started id progress).pulse? = none := by
  cases progress <;> rfl

/-- A function that gives less than another picks out a part of what the other does. -/
theorem sublist_filterMap {α β : Type} {fewer more : α → Option β} {items : List α}
    (h : ∀ item ∈ items, ∀ found, fewer item = some found → more item = some found) :
    (items.filterMap fewer).Sublist (items.filterMap more) := by
  induction items with
  | nil => exact .slnil
  | cons item items ih =>
    have hrest := ih fun other hmem ↦ h other (List.mem_cons_of_mem _ hmem)
    cases hfound : fewer item with
    | none =>
      rw [List.filterMap_cons_none hfound]
      exact hrest.trans ((List.sublist_cons_self item items).filterMap more)
    | some found =>
      rw [List.filterMap_cons_some hfound, List.filterMap_cons_some (h item List.mem_cons_self found hfound)]
      exact hrest.cons_cons found

namespace Overlap

/-- The heartbeat that a task has yet to start: its number, with the time at which the heartbeat was issued. -/
def pulse? (overlap : Overlap) (number : Nat) : Option (Nat × Instant) :=
  ((overlap.work? number).bind Work.pulse?).map (number, ·)

/-- The heartbeats in the line of a lock that have yet to start. -/
def pulses (overlap : Overlap) (id : String) : List (Nat × Instant) :=
  (overlap.locks.line id).filterMap overlap.pulse?

/-- Time stands still, and no heartbeat joins a line. -/
structure Dwindles (before after : Overlap) : Prop where
  bearing : after.world.bearing = before.world.bearing
  pulses : ∀ id, (after.pulses id).Sublist (before.pulses id)

namespace Dwindles

variable {before middle after : Overlap}

protected theorem refl (overlap : Overlap) : overlap.Dwindles overlap := ⟨rfl, fun _ ↦ .refl _⟩

protected theorem trans (hfirst : before.Dwindles middle) (hsecond : middle.Dwindles after) :
    before.Dwindles after :=
  ⟨hsecond.bearing.trans hfirst.bearing, fun id ↦ (hsecond.pulses id).trans (hfirst.pulses id)⟩

end Dwindles

variable {overlap : Overlap}

theorem pulse?_eq_some_iff {number : Nat} {pulse : Nat × Instant} :
    overlap.pulse? number = some pulse ↔
      pulse.1 = number ∧ ∃ work, overlap.work? number = some work ∧ work.pulse? = some pulse.2 := by
  unfold pulse?
  rw [Option.map_eq_some_iff]
  constructor
  · rintro ⟨issuedAt, hissued, rfl⟩
    exact ⟨rfl, Option.bind_eq_some_iff.mp hissued⟩
  · rintro ⟨rfl, hissued⟩
    exact ⟨pulse.2, Option.bind_eq_some_iff.mpr hissued, rfl⟩

theorem dwindles_withWorld {world : World} (h : world.bearing = overlap.world.bearing) :
    overlap.Dwindles (overlap.withWorld world) := ⟨h, fun _ ↦ .refl _⟩

/-- What a task has yet to start, after it has changed what it does. -/
theorem pulse?_of_setTask {number : Nat} {old : Work} (hold : overlap.work? number = some old) {task : Task}
    (hpulse : task.work.pulse? = none ∨ task.work.pulse? = old.pulse?) {other : Nat} {pulse : Nat × Instant}
    (h : (overlap.setTask number task).pulse? other = some pulse) : overlap.pulse? other = some pulse := by
  obtain ⟨hnumber, work, hwork, hissued⟩ := pulse?_eq_some_iff.mp h
  rw [work?_setTask hold] at hwork
  split at hwork
  · next hsame =>
    obtain rfl : task.work = work := Option.some.inj hwork
    obtain hnone | hkept := hpulse
    · simp [hnone] at hissued
    · exact pulse?_eq_some_iff.mpr ⟨hnumber, old, hsame ▸ hold, hkept.symm.trans hissued⟩
  · exact pulse?_eq_some_iff.mpr ⟨hnumber, work, hwork, hissued⟩

/-- A task may change what it does, as long as it does not come to claim its lock for a heartbeat. -/
theorem dwindles_setTask {number : Nat} {old : Work} (hold : overlap.work? number = some old) {task : Task}
    (hpulse : task.work.pulse? = none ∨ task.work.pulse? = old.pulse?) :
    overlap.Dwindles (overlap.setTask number task) where
  bearing := rfl
  pulses _ := sublist_filterMap fun _ _ _ h ↦ pulse?_of_setTask hold hpulse h

theorem dwindles_addTask {work : Work} (hpulse : work.pulse? = none) :
    overlap.Dwindles (overlap.addTask work).1 where
  bearing := rfl
  pulses id := by
    refine sublist_filterMap fun number _ pulse h ↦ ?_
    obtain ⟨hnumber, found, hwork, hissued⟩ := pulse?_eq_some_iff.mp h
    rw [work?_addTask] at hwork
    split at hwork
    · obtain rfl : work = found := Option.some.inj hwork
      simp [hpulse] at hissued
    · exact pulse?_eq_some_iff.mpr ⟨hnumber, found, hwork, hissued⟩

theorem pulse?_claim {number : Nat} {old : Work} (hold : overlap.work? number = some old)
    (load : Option SuspendedLoad) (claim : Claim) (other : Nat) :
    (overlap.claim number load claim).pulse? other =
      if number = other then claim.pulse?.map (number, ·) else overlap.pulse? other := by
  let work : Work := if overlap.locks.isLocked claim.datanode then .waiting claim else .granted claim
  have hpulse : work.pulse? = claim.pulse? := by
    unfold work
    split <;> rfl
  have hwork : (overlap.claim number load claim).work? other =
      if number = other then some work else overlap.work? other := work?_setTask hold ⟨load, work⟩ other
  unfold pulse?
  rw [hwork]
  split
  · next hsame => rw [Option.bind_some, hpulse, hsame]
  · rfl

/-- A task that joins a line joins it at the end, with its heartbeat if it claims the lock for one. -/
theorem pulses_claim {number : Nat} {old : Work} (hold : overlap.work? number = some old)
    (load : Option SuspendedLoad) {claim : Claim}
    (hnew : claim.pulse? = none ∨ ∀ id, number ∉ overlap.locks.line id) (id : String) :
    ((overlap.claim number load claim).pulses id).Sublist
      (overlap.pulses id ++ (claim.pulse?.map (number, ·)).toList) := by
  have hpulse := pulse?_claim hold load claim
  have hline : (overlap.claim number load claim).locks.line id =
      if claim.datanode = id then overlap.locks.line id ++ [number] else overlap.locks.line id :=
    LockLines.line_join _ _ _ _
  have hkept : ((overlap.locks.line id).filterMap (overlap.claim number load claim).pulse?).Sublist
      (overlap.pulses id) := by
    refine sublist_filterMap fun other hmem pulse hfound ↦ ?_
    rw [hpulse] at hfound
    split at hfound
    · next hsame =>
      obtain hnone | habsent := hnew
      · simp [hnone] at hfound
      · exact absurd (hsame ▸ hmem) (habsent id)
    · exact hfound
  have hlast : [number].filterMap (overlap.claim number load claim).pulse? =
      (claim.pulse?.map (number, ·)).toList := by
    rw [List.filterMap_cons, List.filterMap_nil, hpulse, if_pos rfl]
    cases claim.pulse? <;> rfl
  unfold pulses at hkept ⊢
  rw [hline]
  split
  · rw [List.filterMap_append, hlast]
    exact hkept.append (.refl _)
  · exact hkept.trans (List.sublist_append_left _ _)

/-- A task may join a line for anything but a heartbeat. -/
theorem dwindles_claim {number : Nat} {old : Work} (hold : overlap.work? number = some old)
    (load : Option SuspendedLoad) {claim : Claim} (hclaim : claim.pulse? = none) :
    overlap.Dwindles (overlap.claim number load claim) where
  bearing := rfl
  pulses id := by
    have hjoined := pulses_claim hold load (.inl hclaim) id
    rwa [hclaim, Option.map_none, Option.toList_none, List.append_nil] at hjoined

/-! ## Steps -/

theorem dwindles_grantNext (id : String) : overlap.Dwindles (overlap.grantNext id) := by
  unfold grantNext
  split
  · exact .refl overlap
  · next number _ =>
    split
    · next load claim htask =>
      have hold : overlap.work? number = some (.waiting claim) := by rw [work?, htask, Option.map_some]
      exact dwindles_setTask hold (.inr rfl)
    · exact .refl overlap

theorem dwindles_leaveLock {number : Nat} {old : Work} (hold : overlap.work? number = some old)
    (load : Option SuspendedLoad) (id : String) (outcome : Outcome) :
    overlap.Dwindles (overlap.leaveLock number load id outcome) := by
  let left : Overlap := { overlap with locks := overlap.locks.leave id }
  have hleft : overlap.Dwindles left := by
    refine ⟨rfl, fun other ↦ ?_⟩
    have hline : (left.locks.line other).Sublist (overlap.locks.line other) := by
      rw [show left.locks = overlap.locks.leave id from rfl, LockLines.line_leave]
      split
      · exact List.tail_sublist _
      · exact .refl _
    exact hline.filterMap _
  have hheld : left.work? number = some old := hold
  have hset : left.Dwindles (left.setTask number
      ⟨load, if load.isSome then .resuming outcome else .settled outcome⟩) := by
    refine dwindles_setTask hheld (.inl ?_)
    simp only
    split <;> rfl
  exact (hleft.trans hset).trans (dwindles_grantNext id)

theorem dwindles_startClaim (hkeyed : overlap.world.manager.Keyed) {number : Nat} {old : Work}
    (hold : overlap.work? number = some old) (load : Option SuspendedLoad) (claim : Claim) :
    overlap.Dwindles (overlap.startClaim number load claim) := by
  cases claim with
  | keep id told =>
    cases told with
    | none => exact dwindles_setTask hold (.inl rfl)
    | some outcome => exact dwindles_setTask hold (.inl rfl)
  | operate operation =>
    rw [startClaim_operate]
    have hheld : (overlap.withWorld (overlap.world.start operation).1).work? number = some old := hold
    exact (dwindles_withWorld (World.bearing_start hkeyed operation)).trans
      (dwindles_setTask hheld (.inl (Work.pulse?_started _ _)))

theorem dwindles_continueLoad {number : Nat} {old : Work} (hold : overlap.work? number = some old)
    (loading : Loading) {step : LoadStep}
    (hstep : ∀ entry operation, step = .register entry operation → (Claim.operate operation).pulse? = none) :
    overlap.Dwindles (overlap.continueLoad number loading step) := by
  cases step with
  | register entry operation => exact dwindles_claim hold _ (hstep entry operation rfl)
  | close => exact dwindles_setTask hold (.inl rfl)

theorem dwindles_takeAnswer {number : Nat} {old : Work} (hold : overlap.work? number = some old)
    (load : Option SuspendedLoad) (answer : TableAnswer) (continuation : Continuation) :
    overlap.Dwindles (overlap.takeAnswer number load answer continuation) := by
  have hheld (world : World) : (overlap.withWorld world).work? number = some old := hold
  have hreads {task : Task} (hpulse : task.work.pulse? = none) {world : World}
      (hworld : world.bearing = overlap.world.bearing) :
      overlap.Dwindles ((overlap.withWorld world).setTask number task) :=
    (dwindles_withWorld hworld).trans (dwindles_setTask (hheld world) (.inl hpulse))
  have hclosed : (overlap.world.mapManager fun manager ↦ manager.takeClosed answer).bearing = overlap.world.bearing :=
    World.bearing_withManager (Manager.noted_takeClosed _ answer)
  cases continuation with
  | operation id remainder => exact hreads rfl (World.bearing_finish remainder answer)
  | nextEntry loading =>
    have hnoted := overlap.world.manager.noted_takeEntry loading.loaded answer
    refine (dwindles_withWorld (World.bearing_withManager hnoted)).trans
      (dwindles_continueLoad (hheld _) loading fun entry operation hstep ↦ ?_)
    obtain ⟨_, _, -, -, -, -, rfl⟩ := Manager.takeEntry_register (Prod.ext rfl hstep)
    rfl
  | closedAfterLoad loaded => exact hreads rfl hclosed
  | closedAfterCount outcome => exact hreads rfl hclosed
  | countEntry counting =>
    unfold takeAnswer
    simp only
    split <;> exact dwindles_setTask hold (.inl rfl)

theorem dwindles_resumeLoad {number : Nat} {old : Work} (hold : overlap.work? number = some old)
    (load : SuspendedLoad) (outcome : Outcome) : overlap.Dwindles (overlap.resumeLoad number load outcome) := by
  have hheld (world : World) : (overlap.withWorld world).work? number = some old := hold
  have hnoted := overlap.world.manager.noted_takeRegistered load.entry load.loading.loaded outcome
  unfold resumeLoad
  simp only
  split
  · next manager htaken =>
    rw [htaken] at hnoted
    exact (dwindles_withWorld (World.bearing_withManager hnoted)).trans
      (dwindles_continueLoad (hheld _) load.loading fun _ _ hstep ↦ by simp at hstep)
  · next manager loaded htaken =>
    rw [htaken] at hnoted
    exact (dwindles_withWorld (World.bearing_withManager hnoted)).trans (dwindles_setTask (hheld _) (.inl rfl))

/-- A step of a task takes no time and brings no heartbeat into a line. -/
theorem dwindles_advance (hkeyed : overlap.world.manager.Keyed) (number : Nat) :
    overlap.Dwindles (overlap.advance number) := by
  unfold advance
  cases htask : overlap.tasks[number]? with
  | none => exact .refl overlap
  | some task =>
    obtain ⟨load, work⟩ := task
    have hold : overlap.work? number = some work := by rw [work?, htask, Option.map_some]
    cases work with
    | waiting _ | keeping _ | settled _ => exact .refl overlap
    | granted claim => exact dwindles_startClaim hkeyed hold load claim
    | asking table request continuation =>
      have hheld : (overlap.withWorld (overlap.world.ask table request).1).work? number =
          some (.asking table request continuation) := hold
      exact (dwindles_withWorld (overlap.world.bearing_ask table request)).trans (dwindles_setTask hheld (.inl rfl))
    | answered answer continuation => exact dwindles_takeAnswer hold load answer continuation
    | leaving id outcome => exact dwindles_leaveLock hold load id outcome
    | resuming outcome =>
      cases load with
      | some load => exact dwindles_resumeLoad hold load outcome
      | none => exact dwindles_setTask hold (.inl rfl)

/-! ## Requests and whatever else comes in -/

theorem pulse?_of_prepare {world ready : World} {request : OperationRequest} {operation : Operation}
    (h : world.prepare request = (ready, .ok operation)) {issuedAt : Instant}
    (hissued : (Claim.operate operation).pulse? = some issuedAt) : issuedAt = world.clock := by
  cases request with
  | heartbeat offered report =>
    unfold World.prepare at h
    cases hgiven : Details.ofField offered with
    | error failure => simp [hgiven, Except.map] at h
    | ok details =>
      obtain ⟨-, rfl⟩ : _ ∧ _ = operation := by simpa [hgiven, Except.map] using h
      exact (Option.some.inj hissued).symm
  | register offered nodeReport pipelineReport layout =>
    unfold World.prepare at h
    cases hadmitted : (world.manager.screen offered).2 with
    | error failure => simp [hadmitted, Except.map] at h
    | ok details =>
      obtain ⟨-, rfl⟩ : _ ∧ _ = operation := by simpa [hadmitted, Except.map] using h
      simp [Claim.pulse?] at hissued
  | remove _ | setState _ _ _ | reconcile _ _ _ =>
    obtain ⟨-, rfl⟩ : _ ∧ _ = operation := by simpa [World.prepare] using h
    simp [Claim.pulse?] at hissued

/-- A heartbeat that is issued joins its line at the end, with the present time. -/
theorem pulses_addClaim (h : overlap.Guarded) {claim : Claim}
    (hissued : ∀ issuedAt, claim.pulse? = some issuedAt → issuedAt = overlap.world.clock) (id : String) :
    ((overlap.addClaim claim).1.pulses id).Sublist
      (overlap.pulses id ++ [(overlap.tasks.length, overlap.world.clock)]) := by
  let added : Overlap := (overlap.addTask (.settled (.ok .nothing))).1
  have hadded : overlap.Dwindles added := dwindles_addTask rfl
  have hwork : added.work? overlap.tasks.length = some (.settled (.ok .nothing)) := by
    rw [work?_addTask, if_pos rfl]
  have habsent (other : String) : overlap.tasks.length ∉ added.locks.line other := by
    intro hmem
    obtain ⟨work, hfound, -⟩ := h.listed hmem
    simp [work?] at hfound
  rw [addClaim_eq]
  refine (pulses_claim hwork none (.inr habsent) id).trans ((hadded.pulses id).append ?_)
  cases hpulse : claim.pulse? with
  | none => exact List.nil_sublist _
  | some issuedAt =>
    rw [hissued issuedAt hpulse]
    exact .refl _

theorem dwindles_submitLoad : overlap.Dwindles overlap.submitLoad.1 := by
  unfold submitLoad submitReading
  split
  · exact dwindles_addTask rfl
  · next table _ =>
    have hopened := overlap.world.bearing_iterate table
    split
    · next opened failure hiterate =>
      rw [hiterate] at hopened
      exact (dwindles_withWorld hopened).trans (dwindles_addTask rfl)
    · next opened iterator hiterate =>
      rw [hiterate] at hopened
      exact (dwindles_withWorld hopened).trans (dwindles_addTask rfl)

/-- At most one heartbeat joins a line, at the end of it and with the present time. -/
def JoinsLast (before after : Overlap) : Prop :=
  ∀ id, ∃ number, (after.pulses id).Sublist (before.pulses id ++ [(number, before.world.clock)])

theorem Dwindles.joinsLast {world : World} {after : Overlap} (h : (overlap.withWorld world).Dwindles after) :
    overlap.JoinsLast after := fun id ↦ ⟨0, (h.pulses id).trans (List.sublist_append_left _ _)⟩

theorem joinsLast_submit (h : overlap.Guarded) (request : OperationRequest) :
    (overlap.submit request).1.world.bearing = overlap.world.bearing ∧
      overlap.JoinsLast (overlap.submit request).1 := by
  have hprepared := overlap.world.bearing_prepare request
  unfold submit
  cases hprepare : overlap.world.prepare request with
  | mk world outcome =>
    rw [hprepare] at hprepared
    cases outcome with
    | error failure =>
      have hadded : (overlap.withWorld world).Dwindles
          ((overlap.withWorld world).addTask (.settled (.error failure))).1 := dwindles_addTask rfl
      exact ⟨hprepared, hadded.joinsLast⟩
    | ok operation =>
      have hclock : world.clock = overlap.world.clock := congrArg Prod.fst hprepared
      refine ⟨hprepared, fun id ↦ ⟨overlap.tasks.length, ?_⟩⟩
      rw [← hclock]
      exact pulses_addClaim (h.withWorld world)
        (fun issuedAt hissued ↦ (pulse?_of_prepare hprepare hissued).trans hclock.symm) id

/-- What happens besides the steps of tasks takes the time that it says, and at most one heartbeat joins a line. -/
theorem joinsLast_meet (h : overlap.Guarded) {occurrence : Occurrence} (hstep : ∀ number, occurrence ≠ .step number) :
    (overlap.meet occurrence).world.bearing = (overlap.world.affected occurrence).bearing ∧
      overlap.JoinsLast (overlap.meet occurrence) := by
  have hwith (world : World) : (overlap.withWorld world).world.bearing = world.bearing ∧
      overlap.JoinsLast (overlap.withWorld world) := ⟨rfl, (Dwindles.refl _).joinsLast⟩
  have hload (world : World) : (overlap.withWorld world).submitLoad.1.world.bearing = world.bearing ∧
      overlap.JoinsLast (overlap.withWorld world).submitLoad.1 :=
    ⟨dwindles_submitLoad.bearing, dwindles_submitLoad.joinsLast⟩
  cases occurrence with
  | step number => exact absurd rfl (hstep number)
  | issue request => exact joinsLast_submit h request
  | load => exact hload overlap.world
  | switch table => exact hload _
  | queue id command => exact hwith _
  | take id command => exact hwith _
  | tick now => exact hwith _
  | spoil table faults => exact hwith _

/-! ## Heartbeats that start -/

theorem exists_work?_of_part? {occurrence : Occurrence} {operation : Operation}
    (h : overlap.part? occurrence = some (.start operation)) :
    ∃ number, occurrence = .step number ∧ overlap.work? number = some (.granted (.operate operation)) := by
  unfold part? at h
  split at h
  · next number =>
    obtain ⟨work, hwork, hpart⟩ := Option.bind_eq_some_iff.mp h
    refine ⟨number, rfl, hwork.trans ?_⟩
    unfold Work.part? at hpart
    split at hpart
    · rw [Operation.Part.start.inj (Option.some.inj hpart)]
    · simp at hpart
    · simp at hpart
    · simp at hpart
  · simp at h

/-- A task that is let in for an operation starts it. -/
theorem world_advance_of_granted {number : Nat} {operation : Operation}
    (hwork : overlap.work? number = some (.granted (.operate operation))) :
    (overlap.advance number).world = (overlap.world.start operation).1 := by
  obtain ⟨⟨load, work⟩, htask, rfl⟩ := Option.map_eq_some_iff.mp hwork
  have hadvance : overlap.advance number = overlap.startClaim number load (.operate operation) := by
    unfold advance
    rw [htask]
  rw [hadvance, startClaim_operate]
  rfl

/-- A heartbeat that starts is the first in its line. -/
theorem Guarded.exists_pulses_eq (h : overlap.Guarded) {number : Nat} {details : Details} {report : HeartbeatReport}
    {issuedAt : Instant}
    (hwork : overlap.work? number = some (.granted (.operate (.heartbeat details report issuedAt)))) :
    ∃ others, overlap.pulses details.id = (number, issuedAt) :: others := by
  have hholder : overlap.locks.holder? details.id = some number := h.first hwork rfl fun hwaiting ↦ hwaiting
  obtain ⟨rest, hline⟩ := List.head?_eq_some_iff.mp hholder
  have hpulse : overlap.pulse? number = some (number, issuedAt) := pulse?_eq_some_iff.mpr ⟨rfl, _, hwork, rfl⟩
  exact ⟨_, by rw [pulses, hline, List.filterMap_cons_some hpulse]⟩

end Overlap

end ClusterMembership
