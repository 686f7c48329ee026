import ClusterMembership.Proofs.HeartbeatLine
import ClusterMembership.Proofs.LastHeard
import ClusterMembership.Proofs.Rollback

/-!
# Heartbeats that are overtaken

A heartbeat of a primary brings the time at which it was issued, and may wait for the lock of its datanode while
others that came before it go on.  Heartbeats of one datanode start in the order in which they were issued, so none
of them turns the time of the last heartbeat back.  A registration takes the time at which it starts: when it does so
while a heartbeat is in line behind it, the heartbeat brings an earlier time.  Under best-effort durability, while the
clock is never set back, that is the only way for the time of a last heartbeat to fall.
-/

namespace ClusterMembership

/-! ## The clock -/

/-- The time to which the clock is set. -/
def Occurrence.tick? : Occurrence → Option Instant
  | .tick now => some now
  | _ => none

namespace World

/-- The clock is never set back. -/
def TimePasses (world : World) (occurrences : List Occurrence) : Prop :=
  (world.clock :: occurrences.filterMap Occurrence.tick?).Pairwise (· ≤ ·)

instance (world : World) (occurrences : List Occurrence) : Decidable (world.TimePasses occurrences) :=
  inferInstanceAs (Decidable (List.Pairwise _ _))

/-- Besides the steps of tasks nothing changes a record, and only a tick changes the time. -/
theorem bearing_affected (world : World) (occurrence : Occurrence) :
    (world.affected occurrence).manager.registry = world.manager.registry ∧
      (world.affected occurrence).bearing =
        (occurrence.tick?.getD world.clock, world.manager.configuration, world.service.observer.isSome) := by
  cases occurrence with
  | queue id command =>
    unfold affected move call Manager.addCommand
    simp only
    split
    · next queued hqueued =>
      split at hqueued
      · rw [← Except.ok.inj hqueued]
        exact ⟨rfl, rfl⟩
      · simp at hqueued
    · exact ⟨rfl, rfl⟩
  | take id command =>
    have hqueued (manager : Manager) : (manager.onCommand id command).registry = manager.registry ∧
        (world.withManager (manager.onCommand id command)).bearing =
          (manager.clock, manager.configuration, world.service.observer.isSome) := by
      unfold Manager.onCommand
      split <;> exact ⟨rfl, rfl⟩
    unfold affected move call Service.onCommand
    simp only
    split
    · exact ⟨rfl, rfl⟩
    · exact hqueued world.manager
  | _ => exact ⟨rfl, rfl⟩

theorem keyed_undergo (world : World) (hempty : world.manager.HasEmptyMemory) (occurrences : List Occurrence) :
    (world.undergo occurrences).world.manager.Keyed := (world.orderly_undergo hempty occurrences).housed.keyed

/-- Whatever happens, only ticks change the time, and nothing changes the configuration and the role. -/
theorem bearing_undergo_append (world : World) (hempty : world.manager.HasEmptyMemory) (past : List Occurrence)
    (occurrence : Occurrence) :
    (world.undergo (past ++ [occurrence])).world.bearing =
      (occurrence.tick?.getD (world.undergo past).world.clock, (world.undergo past).world.manager.configuration,
        (world.undergo past).world.service.observer.isSome) := by
  rw [undergo_append]
  by_cases hstepping : ∃ number, occurrence = .step number
  · obtain ⟨number, rfl⟩ := hstepping
    exact (Overlap.dwindles_advance (world.keyed_undergo hempty past) number).bearing
  · have hstep (number : Nat) : occurrence ≠ .step number := fun hsame ↦ hstepping ⟨number, hsame⟩
    exact (Overlap.joinsLast_meet (world.guarded_undergo past) hstep).1.trans (bearing_affected _ occurrence).2

/-- Nothing changes the durability and the role of a service. -/
theorem settled_undergo (world : World) (hempty : world.manager.HasEmptyMemory) (occurrences : List Occurrence) :
    (world.undergo occurrences).world.manager.configuration = world.manager.configuration ∧
      ((world.undergo occurrences).world.service.observer = none ↔ world.service.observer = none) := by
  induction occurrences using List.reverseRecOn with
  | nil => exact ⟨rfl, Iff.rfl⟩
  | append_singleton past occurrence ih =>
    have hbearing := world.bearing_undergo_append hempty past occurrence
    have hrole : (world.undergo (past ++ [occurrence])).world.service.observer.isSome =
        (world.undergo past).world.service.observer.isSome := congrArg (·.2.2) hbearing
    refine ⟨(congrArg (·.2.1) hbearing).trans ih.1, Iff.trans ?_ ih.2⟩
    rw [← Option.not_isSome_iff_eq_none, hrole, Option.not_isSome_iff_eq_none]

/-- The time is one that was set, or the first. -/
theorem clock_undergo_mem (world : World) (hempty : world.manager.HasEmptyMemory) (occurrences : List Occurrence) :
    (world.undergo occurrences).world.clock ∈ world.clock :: occurrences.filterMap Occurrence.tick? := by
  induction occurrences using List.reverseRecOn with
  | nil => exact List.mem_cons_self
  | append_singleton past occurrence ih =>
    have hclock : (world.undergo (past ++ [occurrence])).world.clock =
        occurrence.tick?.getD (world.undergo past).world.clock :=
      congrArg Prod.fst (world.bearing_undergo_append hempty past occurrence)
    rw [hclock, List.filterMap_append, ← List.cons_append]
    cases htick : occurrence.tick? with
    | none => exact List.mem_append_left _ ih
    | some now => simp [htick]

/-- Unless it is set back, the clock never decreases. -/
theorem TimePasses.clock_le {world : World} {past : List Occurrence} {occurrence : Occurrence}
    (h : world.TimePasses (past ++ [occurrence])) (hempty : world.manager.HasEmptyMemory) :
    world.TimePasses past ∧
      (world.undergo past).world.clock ≤ (world.undergo (past ++ [occurrence])).world.clock := by
  have hclock : (world.undergo (past ++ [occurrence])).world.clock =
      occurrence.tick?.getD (world.undergo past).world.clock :=
    congrArg Prod.fst (world.bearing_undergo_append hempty past occurrence)
  unfold TimePasses at h
  rw [List.filterMap_append, ← List.cons_append] at h
  obtain ⟨hpast, -, hlast⟩ := List.pairwise_append.mp h
  refine ⟨hpast, hclock ▸ ?_⟩
  cases htick : occurrence.tick? with
  | none => exact Int.le_refl _
  | some now => exact hlast _ (world.clock_undergo_mem hempty past) now (by simp [htick])

end World

/-! ## Heartbeats and registrations in order -/

namespace World

variable {world : World}

theorem joinsLast_undergo (hempty : world.manager.HasEmptyMemory) (past : List Occurrence) (occurrence : Occurrence) :
    (world.undergo past).JoinsLast (world.undergo (past ++ [occurrence])) := by
  rw [undergo_append]
  by_cases hstepping : ∃ number, occurrence = .step number
  · obtain ⟨number, rfl⟩ := hstepping
    have hdwindles : ((world.undergo past).withWorld (world.undergo past).world).Dwindles
        ((world.undergo past).advance number) := Overlap.dwindles_advance (world.keyed_undergo hempty past) number
    exact hdwindles.joinsLast
  · exact (Overlap.joinsLast_meet (world.guarded_undergo past) fun number hsame ↦ hstepping ⟨number, hsame⟩).2

/-- The time of a last heartbeat is the one from before, or the one that the start of an operation gives. -/
theorem heardAt?_undergo (hempty : world.manager.HasEmptyMemory)
    (heffort : world.manager.configuration.isStrict = false) (past : List Occurrence) (occurrence : Occurrence)
    {id : String} {time : Instant}
    (h : (world.undergo (past ++ [occurrence])).world.manager.heardAt? id = some time) :
    (world.undergo past).world.manager.heardAt? id = some time ∨ ∃ operation,
      (world.undergo past).part? occurrence = some (.start operation) ∧
        (world.undergo past).world.Dates operation id time := by
  have hkeyed : (world.undergo past).world.manager.Keyed := world.keyed_undergo hempty past
  have hguarded := world.guarded_undergo past
  have hremembers {after : Manager} (hafter : (world.undergo past).world.manager.Remembers after)
      (htime : after.heardAt? id = some time) : (world.undergo past).world.manager.heardAt? id = some time :=
    (hafter.heardAt? id).symm.trans htime
  rw [undergo_append] at h
  by_cases hstepping : ∃ number, occurrence = .step number
  · obtain ⟨number, rfl⟩ := hstepping
    change ((world.undergo past).advance number).world.manager.heardAt? id = some time at h
    cases (hguarded.advance number).2 with
    | passes _ hworld _ => exact .inl (hremembers ((hworld 0).alike.remembers hkeyed) h)
    | asks _ _ hworld _ =>
      rw [hworld] at h
      exact .inl (hremembers ((alike_ask _ _ _).remembers hkeyed) h)
    | ends _ _ hworld _ =>
      have hconfiguration := (world.settled_undergo hempty past).1
      rw [hworld] at h
      exact .inl (heardAt?_finish hkeyed (hconfiguration ▸ heffort) _ _ h)
    | starts hpart _ _ hworld _ =>
      rw [hworld] at h
      exact (heardAt?_start hkeyed _ h).imp_right fun hdates ↦ ⟨_, hpart, hdates⟩
  · have hworld := (hguarded.meet fun number hsame ↦ hstepping ⟨number, hsame⟩).2.1 0
    have hregistry := hworld.alike.registry.trans ((world.undergo past).world.bearing_affected occurrence).1
    exact .inl (hremembers (.of_registry hkeyed hregistry) h)

/-- A heartbeat was overtaken: a registration of its datanode started at a time while the heartbeat was in line. -/
def Overtaken (world : World) (past : List Occurrence) (id : String) (pulse : Nat × Instant) (time : Instant) : Prop :=
  ∃ earlier number rest request, past = earlier ++ .step number :: rest ∧
    (world.undergo earlier).part? (.step number) = some (.start (.register request)) ∧ request.details.id = id ∧
    (world.undergo earlier).world.clock = time ∧ pulse ∈ (world.undergo earlier).pulses id

theorem Overtaken.append {past : List Occurrence} {id : String} {pulse : Nat × Instant} {time : Instant}
    (h : world.Overtaken past id pulse time) (occurrence : Occurrence) :
    world.Overtaken (past ++ [occurrence]) id pulse time := by
  obtain ⟨earlier, number, rest, request, rfl, hrest⟩ := h
  exact ⟨earlier, number, rest ++ [occurrence], request, by simp, hrest⟩

/-- Nobody was last heard of later than now, and the heartbeats in line were issued one after another.  A heartbeat
that brings a primary an earlier time than that of the last heartbeat was overtaken. -/
structure Timely (world : World) (past : List Occurrence) : Prop where
  heard : ∀ {id time}, (world.undergo past).world.manager.heardAt? id = some time →
    time ≤ (world.undergo past).world.clock
  issued : ∀ {id pulse}, pulse ∈ (world.undergo past).pulses id → pulse.2 ≤ (world.undergo past).world.clock
  ordered : ∀ id, ((world.undergo past).pulses id).Pairwise fun earlier later ↦ earlier.2 ≤ later.2
  overtaken : world.service.observer = none → ∀ {id time pulse},
    (world.undergo past).world.manager.heardAt? id = some time → pulse ∈ (world.undergo past).pulses id →
      pulse.2 < time → world.Overtaken past id pulse time

namespace Timely

variable {past : List Occurrence}

/-- A heartbeat that may start is the earliest in its line. -/
theorem issued_le (h : world.Timely past) {occurrence : Occurrence} {details : Details} {report : HeartbeatReport}
    {issuedAt : Instant}
    (hpart : (world.undergo past).part? occurrence = some (.start (.heartbeat details report issuedAt))) :
    issuedAt ≤ (world.undergo past).world.clock ∧
      ∀ pulse ∈ (world.undergo past).pulses details.id, issuedAt ≤ pulse.2 := by
  obtain ⟨number, -, hwork⟩ := Overlap.exists_work?_of_part? hpart
  obtain ⟨others, hpulses⟩ := (world.guarded_undergo past).exists_pulses_eq hwork
  have hordered := h.ordered details.id
  have hmem : (number, issuedAt) ∈ (world.undergo past).pulses details.id := hpulses ▸ List.mem_cons_self
  refine ⟨h.issued hmem, fun pulse hpulse ↦ ?_⟩
  rw [hpulses] at hordered hpulse
  obtain rfl | hother := List.mem_cons.mp hpulse
  · exact Int.le_refl _
  · exact (List.pairwise_cons.mp hordered).1 pulse hother

theorem time_le (h : world.Timely past) {occurrence : Occurrence} {operation : Operation}
    (hpart : (world.undergo past).part? occurrence = some (.start operation)) {id : String} {time : Instant}
    (hdates : (world.undergo past).world.Dates operation id time) : time ≤ (world.undergo past).world.clock := by
  cases hdates with
  | registers _ | observes _ _ _ _ => exact Int.le_refl _
  | brings _ details report _ => exact (h.issued_le hpart).1

/-- A heartbeat that brings an earlier time than that of the last heartbeat is overtaken, or has been before. -/
theorem overtaken_append (h : world.Timely past) (hempty : world.manager.HasEmptyMemory)
    (heffort : world.manager.configuration.isStrict = false) {occurrence : Occurrence}
    (hprimary : world.service.observer = none) {id : String} {time : Instant} {pulse : Nat × Instant}
    (htime : (world.undergo (past ++ [occurrence])).world.manager.heardAt? id = some time)
    (hpulse : pulse ∈ (world.undergo past).pulses id) (hless : pulse.2 < time) :
    world.Overtaken (past ++ [occurrence]) id pulse time := by
  obtain hbefore | ⟨operation, hpart, hdates⟩ := world.heardAt?_undergo hempty heffort past occurrence htime
  · exact (h.overtaken hprimary hbefore hpulse hless).append occurrence
  · cases hdates with
    | registers request =>
      obtain ⟨number, rfl, -⟩ := Overlap.exists_work?_of_part? hpart
      exact ⟨past, number, [], request, rfl, hpart, rfl, rfl, hpulse⟩
    | brings _ details report _ => exact absurd hless (Int.not_lt.mpr ((h.issued_le hpart).2 pulse hpulse))
    | observes hobserver _ _ _ =>
      have hnone := (world.settled_undergo hempty past).2.mpr hprimary
      simp [hobserver] at hnone

/-- The times stay in order, whatever happens next. -/
theorem append (h : world.Timely past) (hempty : world.manager.HasEmptyMemory)
    (heffort : world.manager.configuration.isStrict = false) {occurrence : Occurrence}
    (hclock : (world.undergo past).world.clock ≤ (world.undergo (past ++ [occurrence])).world.clock) :
    world.Timely (past ++ [occurrence]) := by
  have hjoins := world.joinsLast_undergo hempty past occurrence
  have hheard {id : String} {time : Instant}
      (htime : (world.undergo (past ++ [occurrence])).world.manager.heardAt? id = some time) :
      time ≤ (world.undergo past).world.clock := by
    obtain hbefore | ⟨operation, hpart, hdates⟩ := world.heardAt?_undergo hempty heffort past occurrence htime
    · exact h.heard hbefore
    · exact h.time_le hpart hdates
  -- A heartbeat was in line before, or it joins the line now.
  have hpulses {id : String} {pulse : Nat × Instant}
      (hpulse : pulse ∈ (world.undergo (past ++ [occurrence])).pulses id) :
      pulse ∈ (world.undergo past).pulses id ∨ pulse.2 = (world.undergo past).world.clock := by
    obtain ⟨number, hsublist⟩ := hjoins id
    refine (List.mem_append.mp (hsublist.subset hpulse)).imp_right fun hnew ↦ ?_
    rw [List.mem_singleton.mp hnew]
  constructor
  · intro id time htime
    exact Int.le_trans (hheard htime) hclock
  · intro id pulse hpulse
    obtain hold | hnew := hpulses hpulse
    · exact Int.le_trans (h.issued hold) hclock
    · exact hnew ▸ hclock
  · intro id
    obtain ⟨number, hsublist⟩ := hjoins id
    refine List.Pairwise.sublist hsublist (List.pairwise_append.mpr ⟨h.ordered id, List.pairwise_singleton _ _, ?_⟩)
    intro pulse hpulse new hnew
    rw [List.mem_singleton.mp hnew]
    exact h.issued hpulse
  · intro hprimary id time pulse htime hpulse hless
    obtain hold | hnew := hpulses hpulse
    · exact h.overtaken_append hempty heffort hprimary htime hold hless
    · exact absurd hless (Int.not_lt.mpr (hnew ▸ hheard htime))

end Timely

/-- While the clock is never set back and no registration is undone, the times are in order throughout. -/
theorem timely_undergo (hempty : world.manager.HasEmptyMemory)
    (heffort : world.manager.configuration.isStrict = false) (occurrences : List Occurrence)
    (hpasses : world.TimePasses occurrences) : world.Timely occurrences := by
  induction occurrences using List.reverseRecOn with
  | nil =>
    have hpulses (id : String) : (world.undergo []).pulses id = [] := rfl
    constructor
    · intro id time htime
      simp [undergo, Manager.heardAt?, hempty.registry] at htime
    · intro id pulse hpulse
      simp [hpulses] at hpulse
    · intro id
      simp [hpulses]
    · intro _ id time pulse _ hpulse _
      simp [hpulses] at hpulse
  | append_singleton past occurrence ih =>
    obtain ⟨hpast, hclock⟩ := hpasses.clock_le hempty
    exact (ih hpast).append hempty heffort hclock

/-- While the clock is never set back and no registration is undone, the time of a last heartbeat falls exactly when
a primary starts a heartbeat that was issued before it: a registration of the datanode has overtaken that heartbeat. -/
theorem lastHeartbeat_falls_iff (world : World) (hempty : world.manager.HasEmptyMemory)
    (heffort : world.manager.configuration.isStrict = false) (past : List Occurrence) (occurrence : Occurrence)
    (hpasses : world.TimePasses (past ++ [occurrence])) {id : String} {before after : NodeRecord}
    (hbefore : (world.undergo past).world.manager.registry.get? id = some before)
    (hafter : (world.undergo (past ++ [occurrence])).world.manager.registry.get? id = some after) :
    after.lastHeartbeat < before.lastHeartbeat ↔
      world.service.observer = none ∧ ∃ number details report issuedAt, occurrence = .step number ∧
        (world.undergo past).work? number = some (.granted (.operate (.heartbeat details report issuedAt))) ∧
        details.id = id ∧ issuedAt < before.lastHeartbeat ∧
        world.Overtaken past id (number, issuedAt) before.lastHeartbeat := by
  have htimely := timely_undergo hempty heffort past (hpasses.clock_le hempty).1
  have hrole := (world.settled_undergo hempty past).2
  have hheard : (world.undergo past).world.manager.heardAt? id = some before.lastHeartbeat := by
    rw [Manager.heardAt?, hbefore, Option.map_some]
  have hstill : (world.undergo (past ++ [occurrence])).world.manager.heardAt? id = some after.lastHeartbeat := by
    rw [Manager.heardAt?, hafter, Option.map_some]
  generalize after.lastHeartbeat = time at hstill ⊢
  constructor
  · intro hless
    obtain hsame | ⟨operation, hpart, hdates⟩ := heardAt?_undergo hempty heffort past occurrence hstill
    · obtain rfl : before.lastHeartbeat = time := Option.some.inj (hheard.symm.trans hsame)
      exact absurd hless (Int.lt_irrefl _)
    · obtain ⟨number, rfl, hwork⟩ := Overlap.exists_work?_of_part? hpart
      cases hdates with
      | registers _ | observes _ _ _ _ => exact absurd hless (Int.not_lt.mpr (htimely.heard hheard))
      | brings hprimary details report _ =>
        have hnone := hrole.mp hprimary
        obtain ⟨others, hpulses⟩ := (world.guarded_undergo past).exists_pulses_eq hwork
        exact ⟨hnone, number, details, report, time, rfl, hwork, rfl, hless,
          htimely.overtaken hnone hheard (hpulses ▸ List.mem_cons_self) hless⟩
  · rintro ⟨hnone, number, details, report, issuedAt, rfl, hwork, rfl, hless, -⟩
    have hkeyed : (world.undergo past).world.manager.Keyed := world.keyed_undergo hempty past
    have hstarted := heardAt?_start_heartbeat hkeyed (hrole.mpr hnone) details report issuedAt details.id
    rw [if_pos rfl, hheard, Option.map_some] at hstarted
    rw [undergo_append] at hstill
    change ((world.undergo past).advance number).world.manager.heardAt? details.id = some time at hstill
    rw [Overlap.world_advance_of_granted hwork, hstarted] at hstill
    exact Option.some.inj hstill ▸ hless

end World

/-- A datanode registers.  While a change of its operational state is being written it registers again and sends a
heartbeat, and time passes before that registration starts. -/
def overtakenHeartbeat : List Occurrence :=
  let details : Field := some (Details.sample "/rack1").toValue
  let state : Field := some (.text OperationalState.decommissioning.name)
  [.issue (.register details none none none), .step 0, .step 0, .step 0, .step 0, .tick 5,
    .issue (.setState (Details.sample "").id state none), .step 1,
    .issue (.register details none none none), .issue (.heartbeat details {}), .tick 9,
    .step 1, .step 1, .step 1, .step 2, .step 2, .step 2, .step 2]

namespace World

/-- The heartbeat starts once the registration has ended, and turns the time of the last heartbeat back. -/
theorem lastHeartbeat_falls_after_overtakenHeartbeat :
    let world := initial Configuration.default
    let id := (Details.sample "").id
    world.manager.HasEmptyMemory ∧ world.manager.configuration.isStrict = false ∧
      world.TimePasses (overtakenHeartbeat ++ [.step 3]) ∧
      ∃ before after, (world.undergo overtakenHeartbeat).world.manager.registry.get? id = some before ∧
        (world.undergo (overtakenHeartbeat ++ [.step 3])).world.manager.registry.get? id = some after ∧
        before.lastHeartbeat = 9 ∧ after.lastHeartbeat = 5 ∧
        ∃ issuedAt < 9, world.Overtaken overtakenHeartbeat id (3, issuedAt) 9 := by
  intro world id
  have hempty : world.manager.HasEmptyMemory := hasEmptyMemory_initial _
  have heffort : world.manager.configuration.isStrict = false := by decide +kernel
  have hpasses : world.TimePasses (overtakenHeartbeat ++ [.step 3]) := by decide +kernel
  have hnine : ((world.undergo overtakenHeartbeat).world.manager.registry.get? id).map NodeRecord.lastHeartbeat =
      some 9 := by decide +kernel
  have hfive : ((world.undergo (overtakenHeartbeat ++ [.step 3])).world.manager.registry.get? id).map
      NodeRecord.lastHeartbeat = some 5 := by decide +kernel
  obtain ⟨before, hbefore, htime⟩ := Option.map_eq_some_iff.mp hnine
  obtain ⟨after, hafter, hfallen⟩ := Option.map_eq_some_iff.mp hfive
  have hless : after.lastHeartbeat < before.lastHeartbeat := by
    rw [htime, hfallen]
    decide
  obtain ⟨-, number, details, report, issuedAt, hstep, -, -, hissued, hovertaken⟩ :=
    (lastHeartbeat_falls_iff world hempty heffort overtakenHeartbeat (.step 3) hpasses hbefore hafter).mp hless
  obtain rfl := Occurrence.step.inj hstep
  rw [htime] at hissued hovertaken
  exact ⟨hempty, heffort, hpasses, before, after, hbefore, hafter, htime, hfallen, issuedAt, hissued, hovertaken⟩

end World

end ClusterMembership
