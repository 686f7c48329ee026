import ClusterMembership.Proofs.Authority
import ClusterMembership.Proofs.LastHeard
import ClusterMembership.Proofs.RegistryFrame

/-!
# What makes the health of a datanode better

A registration and a heartbeat make their datanode healthy, and give it the present time.  A sweep compares the health
that is due only for being another one than the datanode is in, not for being a worse one.  It leaves a datanode alone
that is due to be healthy, so what is left is a dead datanode that is due to be stale: it is taken for stale again.
That takes a sweep as of a time at which the datanode had not been silent for long enough to be dead, so it does not
happen as long as no sweep looks at an earlier time than one before it.
-/

namespace ClusterMembership

namespace Manager

/-! ## Better health -/

/-- A datanode is registered before and after, and it is in better health after. -/
def Improves (before after : Manager) (id : String) : Prop :=
  ∃ former latter, before.health? id = some former ∧ after.health? id = some latter ∧ latter.rank < former.rank

variable {manager before after : Manager} {id : String} {now : Instant} {record : NodeRecord}

theorem health?_eq_map_vitals? (manager : Manager) (id : String) :
    manager.health? id = (manager.vitals? id).map Prod.fst := by
  unfold health? vitals?
  rw [Option.map_map]
  rfl

theorem not_improves_of_vitals? (h : after.vitals? id = before.vitals? id) : ¬ before.Improves after id := by
  rintro ⟨former, latter, hformer, hlatter, hless⟩
  rw [health?_eq_map_vitals?, h, ← health?_eq_map_vitals?, hformer] at hlatter
  rw [Option.some.inj hlatter] at hless
  exact Nat.lt_irrefl _ hless

theorem not_improves_of_gone (h : after.vitals? id = none) : ¬ before.Improves after id := by
  rintro ⟨-, latter, -, hlatter, -⟩
  rw [health?_eq_map_vitals?, h] at hlatter
  cases hlatter

/-! ## Sweeps -/

theorem rank_lt_iff {due held : Health} (hworse : due ≠ .healthy) :
    due.rank < held.rank ↔ held = .dead ∧ due = .stale := by
  revert hworse
  cases due <;> cases held <;> decide

/-- A sweep improves a record only from dead to stale, and does so whenever stale is what the silence means. -/
theorem rank_swept_lt_iff {configuration : Configuration} :
    (record.swept configuration now).status.health.rank < record.status.health.rank ↔
      record.status.health = .dead ∧ record.dueHealth configuration now = .stale := by
  unfold NodeRecord.swept
  split
  · next hhealthy =>
    rw [hhealthy]
    exact iff_of_false (Nat.lt_irrefl _) fun h ↦ Health.noConfusion h.2
  · next hworse =>
    rw [← rank_lt_iff hworse]
    unfold Registry.classified
    split
    · next hsame => rw [hsame]
    · rfl

/-- What the sweep of a registry as of a time can make better, with the intervals in milliseconds. -/
structure SweepsBack (manager : Manager) (now : Instant) (stale dead : Rat) : Prop where
  /-- A datanode that gets better was dead, and its silence means that it is stale. -/
  improves_iff : ∀ id, manager.Improves (manager.checkHeartbeats now).1 id ↔
    ∃ record, manager.registry.get? id = some record ∧ record.status.health = .dead ∧
      stale ≤ ((now - record.lastHeartbeat : Int) : Rat) ∧ ((now - record.lastHeartbeat : Int) : Rat) < dead
  /-- It is stale then: no sweep makes a datanode healthy. -/
  improved : ∀ id, manager.Improves (manager.checkHeartbeats now).1 id →
    (manager.checkHeartbeats now).1.health? id = some .stale
  /-- Every other datanode keeps its health or gets worse. -/
  kept : ∀ id, ¬ manager.Improves (manager.checkHeartbeats now).1 id → ∀ former,
    manager.health? id = some former → ∃ latter, (manager.checkHeartbeats now).1.health? id = some latter ∧
      former.rank ≤ latter.rank

theorem improves_checkHeartbeats_iff (hkeyed : manager.Keyed) (now : Instant) (id : String) :
    manager.Improves (manager.checkHeartbeats now).1 id ↔
      ∃ record, manager.registry.get? id = some record ∧ record.status.health = .dead ∧
        record.dueHealth manager.configuration now = .stale := by
  unfold Improves health?
  rw [get?_checkHeartbeats hkeyed]
  cases manager.registry.get? id with
  | none => simp
  | some record => simp [rank_swept_lt_iff]

theorem health_swept_of_dead {configuration : Configuration} (hdead : record.status.health = .dead)
    (hdue : record.dueHealth configuration now = .stale) :
    (record.swept configuration now).status.health = .stale := by
  rw [NodeRecord.swept, hdue, if_neg Health.noConfusion, Registry.classified, hdead, if_neg Health.noConfusion]

theorem sweepsBack_of_keyed (hkeyed : manager.Keyed) {stale dead : Rat}
    (hstale : manager.configuration.staleInterval = .finite stale)
    (hdead : manager.configuration.deadInterval = .finite dead) (hless : stale < dead) (now : Instant) :
    manager.SweepsBack now stale dead where
  improves_iff id := by
    rw [improves_checkHeartbeats_iff hkeyed]
    refine exists_congr fun record ↦ and_congr_right fun _ ↦ and_congr_right fun _ ↦ ?_
    exact healthFor_eq_stale_iff hstale hdead hless _
  improved id himproves := by
    obtain ⟨record, hrecord, hhealth, hdue⟩ := (improves_checkHeartbeats_iff hkeyed now id).mp himproves
    rw [health?, get?_checkHeartbeats hkeyed, hrecord, Option.map_some, Option.map_some,
      health_swept_of_dead hhealth hdue]
  kept id hkept former hformer := by
    have hafter := get?_checkHeartbeats hkeyed now id
    obtain ⟨record, hrecord, rfl⟩ := Option.map_eq_some_iff.mp hformer
    rw [hrecord, Option.map_some] at hafter
    have hlatter : (manager.checkHeartbeats now).1.health? id =
        some (record.swept manager.configuration now).status.health := by rw [health?, hafter, Option.map_some]
    exact ⟨_, hlatter, Nat.le_of_not_lt fun hbetter ↦ hkept ⟨_, _, hformer, hlatter, hbetter⟩⟩

/-- A sweep over datanodes of which none is in too bad a health makes none better. -/
theorem not_improves_of_lenient (hkeyed : manager.Keyed) (hlenient : manager.Lenient now) :
    ¬ manager.Improves (manager.checkHeartbeats now).1 id := by
  intro himproves
  obtain ⟨record, hrecord, hhealth, hdue⟩ := (improves_checkHeartbeats_iff hkeyed now id).mp himproves
  have hbound := hlenient record ((OrderedMap.mem_values_iff _ _).mpr ⟨id, hrecord⟩)
  rw [hhealth, hdue] at hbound
  exact absurd hbound (by decide)

/-! ## Undone registrations -/

/-- A placement that is undone leaves the registry as it was. -/
theorem registry_undoPlacement (hkeyed : manager.Keyed) {request : RegistrationRequest} {inPlace failed : Manager}
    (hplacing : manager.placing request = (inPlace, none)) (halike : inPlace.Alike failed) :
    (failed.undoPlacement (manager.placedBy inPlace request)).registry = manager.registry := by
  obtain ⟨topology, entries, hundone⟩ := failed.exists_undoPlacement_eq (manager.placedBy inPlace request)
    fun record hprevious ↦ hkeyed hprevious
  have hregistry : failed.registry = _ := halike.registry.trans (registry_of_place hplacing)
  rw [hundone]
  change (⟨failed.registry.records.restore request.details.id (manager.registry.get? request.details.id)⟩ :
    Registry) = manager.registry
  rw [hregistry]
  exact congrArg Registry.mk (OrderedMap.restore_insert manager.registry.records request.details.id _)

/-- Once a registration is placed, its datanode alone has other vitals. -/
theorem vitals?_of_placed {request : RegistrationRequest} {inPlace : Manager}
    (hplacing : manager.placing request = (inPlace, none)) (hafter : inPlace.Remembers after) (id : String) :
    after.vitals? id = manager.vitals? id ∨
      request.details.id = id ∧ after.vitals? id = some (.healthy, manager.clock) := by
  rw [hafter.vitals?, vitals?_placing hplacing]
  by_cases hid : request.details.id = id
  · exact .inr ⟨hid, if_pos hid⟩
  · exact .inl (if_neg hid)

theorem vitals?_finishRegistration (hsound : manager.Sound) {request : RegistrationRequest}
    (hkept : request.details.Kept) {inPlace asked : Manager} (hplacing : manager.placing request = (inPlace, none))
    (halike : inPlace.Alike asked) (answer : TableAnswer) (id : String) :
    (asked.finishRegistration (manager.placedBy inPlace request) answer).1.vitals? id = manager.vitals? id ∨
      request.details.id = id ∧
        (asked.finishRegistration (manager.placedBy inPlace request) answer).1.vitals? id =
          some (.healthy, manager.clock) := by
  have hinPlace : inPlace.Keyed := (hsound.placing hkept hplacing).1.keyed
  have hsettled := asked.registry_settleWrite request.details.id answer
  unfold finishRegistration
  split
  · next written hwritten =>
    have hregistry : written.registry = asked.registry :=
      (congrArg (fun settled ↦ settled.1.registry) hwritten).symm.trans hsettled
    have hremembers : inPlace.Remembers written := .of_registry hinPlace (hregistry.trans halike.registry)
    exact vitals?_of_placed hplacing (hremembers.trans (remembers_completeRegistration hremembers.keyed _)) id
  · next failed failure hfailed =>
    have hundone := registry_undoPlacement hsound.keyed hplacing (halike.trans (alike_of_settleWrite_error hfailed))
    left
    rw [vitals?, hundone, vitals?]

end Manager

namespace World

variable {world : World} {id : String}

/-! ## Operations -/

/-- After a registration every datanode is as healthy as it was, except the one that is registered. -/
theorem vitals?_run_register (hsound : world.manager.Sound) {request : RegistrationRequest}
    (hkept : request.details.Kept) (id : String) :
    (world.run (.register request)).1.manager.vitals? id = world.manager.vitals? id ∨
      request.details.id = id ∧
        (world.run (.register request)).1.manager.vitals? id = some (.healthy, world.clock) := by
  cases hplacing : world.manager.placing request with
  | mk inPlace refusal =>
    cases refusal with
    | some refusal =>
      have hregistry := (inPlace.alike_refuse request.details refusal).registry.trans
        (Manager.registry_of_placing_refused hplacing)
      rw [run_register_refused hplacing]
      exact .inl ((Manager.Remembers.of_registry hsound.keyed hregistry).vitals? id)
    | none =>
      have hinPlace : inPlace.Keyed := (hsound.placing hkept hplacing).1.keyed
      cases hwrite : (if request.persist then inPlace.table else none) with
      | none =>
        rw [run_register_unwritten hplacing hwrite]
        exact Manager.vitals?_of_placed hplacing (Manager.remembers_completeRegistration hinPlace _) id
      | some table =>
        rw [run_register_written hplacing hwrite rfl]
        exact Manager.vitals?_finishRegistration hsound hkept hplacing
          (world.alike_askedToPut inPlace table request) _ id

/-- After a heartbeat every datanode is as healthy as it was, except the one that it comes from. -/
theorem vitals?_run_heartbeat (hkeyed : world.manager.Keyed) (details : Details) (report : HeartbeatReport)
    (id : String) :
    (world.run (.heartbeat details report world.clock)).1.manager.vitals? id = world.manager.vitals? id ∨
      details.id = id ∧ (world.run (.heartbeat details report world.clock)).1.manager.vitals? id =
        some (.healthy, world.clock) := by
  have hheard : (world.manager.heartbeat details report world.clock).1.vitals? id = world.manager.vitals? id ∨
      details.id = id ∧
        (world.manager.heartbeat details report world.clock).1.vitals? id = some (.healthy, world.clock) := by
    have hvitals := Manager.vitals?_heartbeat hkeyed details report world.clock id
    split at hvitals
    · next hid =>
      cases hbefore : world.manager.vitals? details.id with
      | none =>
        rw [hbefore] at hvitals
        exact .inl (hvitals.trans (hid ▸ hbefore.symm))
      | some former =>
        rw [hbefore] at hvitals
        exact .inr ⟨hid, hvitals⟩
    · exact .inl hvitals
  change (world.service.heartbeat details report world.clock).1.manager.vitals? id = _ ∨
    _ ∧ (world.service.heartbeat details report world.clock).1.manager.vitals? id = _
  unfold Service.heartbeat
  split
  · exact hheard
  · next observer _ =>
    unfold Service.observedHeartbeat
    simp only
    split
    · left
      unfold Service.refuseOutdated
      cases observer.discards <;> rfl
    · exact hheard

theorem remembers_runStateChange (hkeyed : world.manager.Keyed) (changed : String) (state expiry : Field)
    (reply : Reply) : world.manager.Remembers
      (world.runStateChange changed (world.manager.beginStateChange changed state expiry reply)).1.manager := by
  have hbegun := Manager.remembers_beginStateChange hkeyed changed state expiry reply
  unfold runStateChange
  split
  · next ended outcome hended => rwa [hended] at hbegun
  · next waiting table request reply hwaiting =>
    rw [hwaiting] at hbegun
    have hasked := ((world.withManager waiting).alike_ask table request).remembers hbegun.keyed
    refine (hbegun.trans hasked).trans (.of_registry hasked.keyed ?_)
    exact Manager.registry_settleWrite _ changed _

theorem vitals?_run_remove (world : World) (removed id : String) :
    (world.run (.remove removed)).1.manager.vitals? id = world.manager.vitals? id ∨
      (world.run (.remove removed)).1.manager.vitals? id = none := by
  have hnoted {after : Manager} (h : world.manager.Noted after) : after.vitals? id = world.manager.vitals? id := by
    rw [Manager.vitals?, h.alike.registry, Manager.vitals?]
  obtain ⟨failure, -, hlogged⟩ | ⟨asked, hlogged, -, hforgotten⟩ := world.run_remove_cases removed
  · exact .inl (hnoted hlogged)
  · rw [hforgotten, Manager.vitals?_forget]
    split
    · exact .inr rfl
    · exact .inl (hnoted hlogged)

/-- A load makes a datanode healthy that it registers, and leaves every other as healthy as it was. -/
theorem vitals?_load (hsound : world.manager.Sound) (id : String) :
    world.load.1.manager.vitals? id = world.manager.vitals? id ∨
      world.load.1.manager.vitals? id = some (.healthy, world.clock) := by
  have hload : world.load.1.manager.Sound ∧ world.load.1.clock = world.clock ∧
      (world.load.1.manager.vitals? id = world.manager.vitals? id ∨
        world.load.1.manager.vitals? id = some (.healthy, world.clock)) := by
    apply load_induction (P := fun reached ↦ reached.manager.Sound ∧ reached.clock = world.clock ∧
      (reached.manager.vitals? id = world.manager.vitals? id ∨
        reached.manager.vitals? id = some (.healthy, world.clock))) _ _ _ _ ⟨hsound, rfl, .inl rfl⟩
    · intro reached number request ⟨hready, hclock, hvitals⟩
      have halike := reached.alike_ask number request
      have hsame := (halike.remembers hready.keyed).vitals? id
      exact ⟨hready.alike halike, (reached.clock_ask number request).trans hclock, hsame ▸ hvitals⟩
    · intro reached after ⟨hready, hclock, hvitals⟩ hnoted
      have hsame := (hnoted.alike.remembers hready.keyed).vitals? id
      refine ⟨hready.alike hnoted.alike, ?_, hsame ▸ hvitals⟩
      obtain ⟨cluster, entries, rfl⟩ := hnoted
      exact hclock
    · intro reached field details ⟨hready, hclock, hvitals⟩ hscreen
      have hkept : (reached.manager.storedRegistration details).details.Kept :=
        (Manager.kept_of_screen hscreen).2.1
      refine ⟨sound_run_register hready _ hkept, (reached.clock_run _).trans hclock, ?_⟩
      obtain hsame | ⟨-, hfresh⟩ := vitals?_run_register hready hkept id
      · exact hsame ▸ hvitals
      · exact .inr (hclock ▸ hfresh)
    · intro reached number ⟨hready, hclock, hvitals⟩
      rw [manager_iterate]
      refine ⟨hready, ?_, hvitals⟩
      exact (congrArg Manager.clock (reached.manager_iterate number)).trans hclock
  exact hload.2.2

end World

/-! ## Moves -/

def Move.Reports (move : Move) (id : String) : Prop :=
  ∃ offered report details, move = .call (.operate (.heartbeat offered report)) ∧
    Details.ofField offered = .ok details ∧ details.id = id

namespace World

variable {world : World} {id : String}

/-- What a move that does not sweep can mean for the health of a datanode and the time of its last heartbeat. -/
inductive Treats (world : World) (move : Move) (id : String) : Prop
  | kept (h : (world.move move).manager.vitals? id = world.manager.vitals? id)
  | gone (h : (world.move move).manager.vitals? id = none)
  | renewed (hcause : move.Registers id ∨ move.Reports id)
      (h : (world.move move).manager.vitals? id = some (.healthy, world.clock))

theorem Treats.of_registry {move : Move}
    (h : (world.move move).manager.registry = world.manager.registry) : world.Treats move id :=
  .kept (by rw [Manager.vitals?, h, Manager.vitals?])

theorem treats_register (hsound : world.manager.Sound) (offered : Field) (nodeReport : Option NodeReport)
    (pipelineReport : Field) (layout : Option LayoutReport) (id : String) :
    world.Treats (.call (.operate (.register offered nodeReport pipelineReport layout))) id := by
  have hmove : world.move (.call (.operate (.register offered nodeReport pipelineReport layout))) =
      (world.serve (.register offered nodeReport pipelineReport layout)).1 := rfl
  obtain ⟨refused, failure, hnoted, hserved⟩ | ⟨details, hscreen, hkept, hserved⟩ :=
    world.serve_register_cases offered nodeReport pipelineReport layout
  · apply Treats.of_registry
    rw [hmove, hserved]
    exact hnoted.alike.registry
  · obtain ⟨given, hgiven, hid⟩ := Manager.exists_offered_of_screen hscreen
    let request : RegistrationRequest := { details, nodeReport, pipelineReport, layout }
    have hadmitted : request.details.Kept := hkept
    have hrun := vitals?_run_register hsound hadmitted id
    rw [← hserved] at hrun
    obtain hsame | ⟨hself, hfresh⟩ := hrun
    · exact .kept hsame
    · exact .renewed (.inl ⟨given, hgiven, hid.trans hself⟩) hfresh

theorem treats_heartbeat (hsound : world.manager.Sound) (offered : Field) (report : HeartbeatReport) (id : String) :
    world.Treats (.call (.operate (.heartbeat offered report))) id := by
  have hmove : world.move (.call (.operate (.heartbeat offered report))) =
      (world.serve (.heartbeat offered report)).1 := rfl
  cases hdetails : Details.ofField offered with
  | error failure =>
    apply Treats.of_registry
    rw [hmove, serve_heartbeat_refused hdetails]
  | ok details =>
    have hrun := vitals?_run_heartbeat hsound.keyed details report id
    rw [← serve_heartbeat_admitted hdetails] at hrun
    obtain hsame | ⟨hself, hfresh⟩ := hrun
    · exact .kept hsame
    · exact .renewed (.inr ⟨offered, report, details, rfl, hdetails, hself⟩) hfresh

theorem treats_operate (hsound : world.manager.Sound) (request : OperationRequest) (id : String) :
    world.Treats (.call (.operate request)) id := by
  cases request with
  | register offered nodeReport pipelineReport layout =>
    exact treats_register hsound offered nodeReport pipelineReport layout id
  | heartbeat offered report => exact treats_heartbeat hsound offered report id
  | remove removed =>
    obtain hkept | hgone := world.vitals?_run_remove removed id
    · exact .kept hkept
    · exact .gone hgone
  | setState changed state expiry =>
    refine .kept ?_
    change (world.run (.setState changed state expiry)).1.manager.vitals? id = _
    rw [run_setState]
    exact (remembers_runStateChange hsound.keyed changed state expiry .nothing).vitals? id
  | reconcile changed state expiry =>
    refine .kept ?_
    change (world.run (.reconcile changed state expiry)).1.manager.vitals? id = _
    rw [run_reconcile]
    obtain ⟨outcome, -, hbegin⟩ | ⟨noted, hlogged, hbegin⟩ := world.manager.beginReconcile_cases changed state expiry
    · rw [hbegin]
      rfl
    · rw [hbegin]
      have hnoted := hlogged.alike.remembers hsound.keyed
      have hready : (world.withManager noted).manager.Keyed := hnoted.keyed
      have hchanged := remembers_runStateChange hready changed state expiry (.changed true)
      exact (hnoted.trans hchanged).vitals? id

/-- Every move but a sweep leaves the health of a datanode, takes the datanode out, or registers or hears it. -/
theorem treats_move (hsound : world.manager.Sound) {move : Move} (hsweep : world.sweepTime? move = none)
    (id : String) : world.Treats move id := by
  cases move with
  | call call =>
    cases call with
    | operate request => exact treats_operate hsound request id
    | queue target command =>
      apply Treats.of_registry
      unfold World.move World.call
      simp only
      split
      · next queued hqueued =>
        unfold Manager.addCommand at hqueued
        split at hqueued
        · rw [← Except.ok.inj hqueued]
          rfl
        · cases hqueued
      · rfl
    | take target command =>
      apply Treats.of_registry
      change (world.service.onCommand target command).manager.registry = world.service.manager.registry
      unfold Service.onCommand
      split
      · rfl
      · change (world.service.manager.onCommand target command).registry = world.service.manager.registry
        unfold Manager.onCommand
        split <;> rfl
    | purge target => exact .of_registry rfl
    | refreshUsage =>
      apply Treats.of_registry
      change world.service.refreshUsage.1.manager.registry = world.service.manager.registry
      unfold Service.refreshUsage
      split <;> rfl
    | sweep moment => cases hsweep
    | load =>
      obtain hkept | hfresh := vitals?_load hsound id
      · exact .kept hkept
      · exact .renewed (.inl trivial) hfresh
    | switch table =>
      obtain hkept | hfresh := vitals?_load (sound_switchTable hsound table) id
      · exact .kept hkept
      · exact .renewed (.inl trivial) hfresh
  | _ => exact .of_registry rfl

/-! ## Runs -/

/-- Why a move makes the health of a datanode better, with the intervals in milliseconds. -/
inductive Betters (world : World) (move : Move) (id : String) (stale dead : Rat) : Prop
  /-- It is registered: it is healthy then, and was last heard of now. -/
  | registers (h : move.Registers id)
      (hfresh : (world.move move).manager.vitals? id = some (.healthy, world.clock))
  /-- A heartbeat comes from it, with the same effect. -/
  | hears (h : move.Reports id) (hfresh : (world.move move).manager.vitals? id = some (.healthy, world.clock))
  /-- It was dead, and a sweep looks at a time at which its silence means that it is stale. -/
  | sweepsBack {time : Instant} {record : NodeRecord} (hsweep : world.sweepTime? move = some time)
      (hrecord : world.manager.registry.get? id = some record) (hdead : record.status.health = .dead)
      (hreached : stale ≤ ((time - record.lastHeartbeat : Int) : Rat))
      (hbefore : ((time - record.lastHeartbeat : Int) : Rat) < dead)

theorem betters_of_improves (hsound : world.manager.Sound) {stale dead : Rat}
    (hstale : world.manager.configuration.staleInterval = .finite stale)
    (hdead : world.manager.configuration.deadInterval = .finite dead) (hless : stale < dead) {move : Move}
    (himproves : world.manager.Improves (world.move move).manager id) : world.Betters move id stale dead := by
  cases hsweep : world.sweepTime? move with
  | none =>
    cases treats_move hsound hsweep id with
    | kept hkept => exact absurd himproves (Manager.not_improves_of_vitals? hkept)
    | gone hgone => exact absurd himproves (Manager.not_improves_of_gone hgone)
    | renewed hcause hfresh => exact hcause.elim (.registers · hfresh) (.hears · hfresh)
  | some time =>
    obtain ⟨moment, rfl, rfl⟩ := exists_sweep hsweep
    have hsweeps := Manager.sweepsBack_of_keyed hsound.keyed hstale hdead hless (moment.getD world.clock)
    obtain ⟨record, hrecord, hhealth, hreached, hbefore⟩ := (hsweeps.improves_iff id).mp himproves
    exact .sweepsBack hsweep hrecord hhealth hreached hbefore

/-- As long as no sweep looks at an earlier time than one before it, a sweep makes no health better. -/
theorem renewed_of_improves (hempty : world.manager.HasEmptyMemory) {moves : List Move} {move : Move}
    (htimes : (world.sweepTimes moves ++ ((world.after moves).sweepTime? move).toList).Pairwise (· ≤ ·))
    (himproves : (world.after moves).manager.Improves ((world.after moves).move move).manager id) :
    move.Registers id ∨ move.Reports id := by
  have hsound := sound_after hempty.sound moves
  cases hsweep : (world.after moves).sweepTime? move with
  | none =>
    cases treats_move hsound hsweep id with
    | kept hkept => exact absurd himproves (Manager.not_improves_of_vitals? hkept)
    | gone hgone => exact absurd himproves (Manager.not_improves_of_gone hgone)
    | renewed hcause _ => exact hcause
  | some time =>
    rw [hsweep, Option.toList_some] at htimes
    obtain ⟨moment, rfl, rfl⟩ := exists_sweep hsweep
    have hlenient := lenient_after hempty.sound htimes fun time _ record hrecord ↦ by
      rw [hempty.registry] at hrecord
      cases hrecord
    exact absurd himproves (Manager.not_improves_of_lenient hsound.keyed hlenient)

/-- With a dead interval that is longer than the stale one, the sweep of any registry as of any time makes exactly
those datanodes better that are dead and whose silence means that they are stale; these become stale, and every other
datanode keeps its health or gets worse.  In every run a datanode gets better only by its registration or by its
heartbeat, which make it healthy, or by such a sweep; and by no sweep as long as none looks at an earlier time than one
before it. -/
theorem health_gains_after {stale dead : Rat} (hless : stale < dead) :
    (∀ (manager : Manager) (actions : List Registry.Action) (now : Instant),
      manager.registry = Registry.empty.after actions →
      manager.configuration.staleInterval = .finite stale → manager.configuration.deadInterval = .finite dead →
      manager.SweepsBack now stale dead) ∧
    ∀ (world : World) (moves : List Move) (move : Move) (id : String), world.manager.HasEmptyMemory →
      world.manager.configuration.staleInterval = .finite stale →
      world.manager.configuration.deadInterval = .finite dead →
      (world.after moves).manager.Improves ((world.after moves).move move).manager id →
      (world.after moves).Betters move id stale dead ∧
        ((world.sweepTimes moves ++ ((world.after moves).sweepTime? move).toList).Pairwise (· ≤ ·) →
          move.Registers id ∨ move.Reports id) := by
  refine ⟨fun manager actions now hreached hstale hdead ↦ ?_, ?_⟩
  · have hkeyed : manager.Keyed := fun hrecord ↦ Registry.isFiled_empty.after actions (hreached ▸ hrecord)
    exact Manager.sweepsBack_of_keyed hkeyed hstale hdead hless now
  · intro world moves move id hempty hstale hdead himproves
    have hsound := sound_after hempty.sound moves
    rw [← configuration_after world moves] at hstale hdead
    exact ⟨betters_of_improves hsound hstale hdead hless himproves,
      fun htimes ↦ renewed_of_improves hempty htimes himproves⟩

/-- A datanode that a sweep has found dead is stale again after a sweep as of an earlier time. -/
theorem health_gains_after_earlier_sweep :
    let world := initial .default
    let moves := [Move.sample "/rack1", .call (.sweep (some (world.clock + 600000)))]
    let back : Move := .call (.sweep (some (world.clock + 300000)))
    (300000 : Rat) < 600000 ∧ world.manager.HasEmptyMemory ∧
      (world.after moves).manager.health? (Details.sample "").id = some .dead ∧
      ((world.after moves).move back).manager.health? (Details.sample "").id = some .stale ∧
      (world.after moves).Betters back (Details.sample "").id 300000 600000 ∧
      (world.after moves).manager.SweepsBack (world.clock + 300000) 300000 600000 := by
  intro world moves back
  have hless : (300000 : Rat) < 600000 := by decide
  have hempty : world.manager.HasEmptyMemory := hasEmptyMemory_initial .default
  have hdead : (world.after moves).manager.health? (Details.sample "").id = some .dead := by decide +kernel
  have hstale : ((world.after moves).move back).manager.health? (Details.sample "").id = some .stale := by
    decide +kernel
  obtain ⟨hsweeps, hmoves⟩ := health_gains_after hless
  have himproves : (world.after moves).manager.Improves ((world.after moves).move back).manager
      (Details.sample "").id := ⟨_, _, hdead, hstale, by decide⟩
  obtain ⟨hbetters, -⟩ := hmoves world moves back _ hempty (by decide +kernel) (by decide +kernel) himproves
  have hregistry : (world.after moves).manager.registry =
      Registry.empty.after ((world.after moves).manager.registry.records.values.map .upsert) := by decide +kernel
  exact ⟨hless, hempty, hdead, hstale, hbetters,
    hsweeps _ _ _ hregistry (by decide +kernel) (by decide +kernel)⟩

end World

end ClusterMembership
