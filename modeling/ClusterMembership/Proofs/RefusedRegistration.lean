import ClusterMembership.Proofs.ClusterCondition
import ClusterMembership.Proofs.LastHeard

/-!
# Refused registrations

A registration with admissible details is refused exactly when another datanode lies at another depth than the one that
is asked for, and the topology never makes it fail.  A refusal is an answer: it leaves behind the attributes that were
offered, and the condition of the cluster, and nothing else.
-/

namespace ClusterMembership

namespace Manager

variable {manager : Manager} {given : Details}

/-! ## Collisions -/

/-- Another datanode is placed at a location with a different number of segments. -/
def Collides (manager : Manager) (given : Details) : Prop :=
  ∃ other there, other ≠ given.id ∧ manager.topology.location? other = some there ∧
    (Location.segments there.toList).length ≠ given.segmentCount

/-- Where the details are admissible, a datanode fits if it collides with no other. -/
theorem not_collides_iff_fits (hgiven : given.Admissible) :
    ¬ manager.Collides given ↔ manager.topology.Fits given.id given.located.location := by
  constructor
  · intro hfree
    have hformed := hgiven.kept_located.isWellFormed_location
    refine ⟨Location.isAbsolute_iff.mp (Location.isAbsolute_of_isWellFormed hformed),
      List.length_pos_iff.mpr (Location.segments_ne_nil_of_isWellFormed hformed), fun {other there} hother hthere ↦ ?_⟩
    by_contra hlevel
    exact hfree ⟨other, there, hother, hthere, hlevel⟩
  · rintro hfits ⟨other, there, hother, hthere, hlevel⟩
    exact hlevel (hfits.level hother hthere)

theorem collides_of_not_fits (hgiven : given.Admissible)
    (h : ¬ manager.topology.Fits given.id given.located.location) : manager.Collides given :=
  Classical.not_not.mp fun hfree ↦ h ((not_collides_iff_fits hgiven).mp hfree)

/-- Two states of a manager between which a registration was refused by the topology. -/
structure TurnsAway (before : Manager) (request : RegistrationRequest) (after : Manager) : Prop where
  registry : after.registry = before.registry
  location? : ∀ other, after.topology.location? other = before.topology.location? other
  known : after.known = before.known.record request.details
  unsynced : after.unsynced = before.unsynced
  commands : after.commands = before.commands
  cluster : after.cluster = (before.cluster.setHealthy false).addError ClusterContext.invalidTopology
  events : after.trace.events = before.trace.events
  settings : after.settings = before.settings
  clock : after.clock = before.clock

/-! ## Completing -/

/-- A registration is completed, unless it came with a report whose volumes are not listed. -/
theorem completeRegistration_snd (manager : Manager) (placed : PlacedRegistration) :
    (∃ acknowledgement, (manager.completeRegistration placed).2 = .ok acknowledgement ∧
        acknowledgement.permitted = true) ∨
      ∃ failure, (manager.completeRegistration placed).2 = .error failure ∧
        ∃ report ∈ placed.request.nodeReport, report.usage = .error failure := by
  unfold completeRegistration noteUsage
  cases hreport : placed.request.nodeReport with
  | none => exact .inl ⟨_, rfl, rfl⟩
  | some report =>
    cases husage : report.usage with
    | error failure =>
      simp only [husage, Except.map]
      exact .inr ⟨failure, rfl, report, rfl, husage⟩
    | ok usage =>
      simp only [husage, Except.map]
      exact .inl ⟨_, rfl, rfl⟩

/-- Once the table has answered, a registration is completed, or under strict durability it fails with the table. -/
theorem finishRegistration_snd (manager : Manager) (placed : PlacedRegistration) (answer : TableAnswer) :
    (∃ written : Manager, (manager.finishRegistration placed answer).2 =
        (written.completeRegistration placed).2.map Reply.acknowledged) ∨
      manager.configuration.isStrict = true ∧ ∃ cause, answer = .error cause ∧
        (manager.finishRegistration placed answer).2 =
          .error (.service (cause.wrapPersistence "put" (some placed.request.details.id))) := by
  cases answer with
  | ok given => exact .inl ⟨manager.markSynced placed.request.details.id, rfl⟩
  | error cause =>
    cases hstrict : manager.configuration.isStrict with
    | true =>
      obtain ⟨entries, hfinished⟩ := exists_finishRegistration_error hstrict placed cause
      exact .inr ⟨rfl, cause, rfl, congrArg Prod.snd hfinished⟩
    | false =>
      unfold finishRegistration settleWrite
      simp only [hstrict, Bool.false_eq_true, if_false]
      exact .inl ⟨_, rfl⟩

end Manager

namespace World

variable {world : World}

/-! ## Refusals -/

/-- Two worlds between which a registration of a datanode was refused.  The index of known datanodes may show what was
offered; the condition of the cluster tells of the refusal; all else is the same. -/
structure Refuses (before : World) (id : String) (after : World) : Prop where
  registry : after.manager.registry = before.manager.registry
  location? : ∀ other, after.manager.topology.location? other = before.manager.topology.location? other
  commands : after.manager.commands = before.manager.commands
  unsynced : after.manager.unsynced = before.manager.unsynced
  known : ∀ other ≠ id, after.manager.known.peek other = before.manager.known.peek other
  events : after.manager.trace.events = before.manager.trace.events
  settings : after.manager.settings = before.manager.settings
  clock : after.clock = before.clock
  observer : after.service.observer = before.service.observer
  tables : after.tables = before.tables
  told : after.manager.cluster.Tells true

/-- What the topology refuses is answered with a refusal and not written. -/
theorem exists_run_register_of_refusal {request : RegistrationRequest} {refused : Manager} {refusal : Refusal}
    (hplacing : world.manager.placing request = (refused, some refusal)) :
    ∃ after, world.run (.register request) =
        (after, .ok (.acknowledged ⟨false, request.details, world.manager.cluster.id⟩)) ∧
      world.manager.TurnsAway request after.manager ∧ after.tables = world.tables ∧
      after.service.observer = world.service.observer := by
  obtain ⟨registry, topology, hplace⟩ :=
    ({ world.manager with known := world.manager.known.record request.details } : Manager).exists_place_eq
      request.details (request.layout.getD world.manager.layout.report) world.manager.clock
  have hrefused : { world.manager with known := world.manager.known.record request.details, registry, topology } =
    refused := hplace.symm.trans (congrArg Prod.fst hplacing)
  have hcluster : refused.cluster = world.manager.cluster := hrefused ▸ rfl
  have hregistry : refused.registry = world.manager.registry := Manager.registry_of_placing_refused hplacing
  have hlocation := (Manager.tended_of_placing_refused hplacing).placed
  have hanswer : (refused.refuse request.details refusal).2 = ⟨false, request.details, world.manager.cluster.id⟩ := by
    have hid := (refused.cluster.setHealthy false).id_addError ClusterContext.invalidTopology
    rw [← hcluster]
    exact congrArg (Acknowledgement.mk false request.details) hid
  have hrun := run_register_refused hplacing
  rw [hanswer] at hrun
  refine ⟨_, hrun, ?_, rfl, rfl⟩
  exact
    { registry := hregistry
      location? := hlocation
      known := hrefused ▸ rfl
      unsynced := hrefused ▸ rfl
      commands := hrefused ▸ rfl
      cluster := hrefused ▸ rfl
      events := hrefused ▸ rfl
      settings := hrefused ▸ rfl
      clock := hrefused ▸ rfl }

theorem run_register_of_refusal {request : RegistrationRequest} {refused : Manager} {refusal : Refusal}
    (hplacing : world.manager.placing request = (refused, some refusal)) :
    ∃ after acknowledgement, world.run (.register request) = (after, .ok (.acknowledged acknowledgement)) ∧
      acknowledgement.permitted = false ∧ world.Refuses request.details.id after := by
  obtain ⟨after, hrun, hturned, htables, hobserver⟩ := exists_run_register_of_refusal hplacing
  refine ⟨after, _, hrun, rfl, ?_⟩
  exact
    { registry := hturned.registry
      location? := hturned.location?
      commands := hturned.commands
      unsynced := hturned.unsynced
      known := fun other hother ↦ by rw [hturned.known, KnownNodes.peek_record, if_neg hother.symm]
      events := hturned.events
      settings := hturned.settings
      clock := hturned.clock
      observer := hobserver
      tables := htables
      told := hturned.cluster ▸ ClusterContext.tells_refused _ }

/-- Under strict durability a failure to write the details is raised. -/
def FailsToWrite (world : World) (given : Details) (failure : Failure) : Prop :=
  world.manager.configuration.isStrict = true ∧ ∃ number cause, world.manager.table = some number ∧
    (world.ask number (.put given.id (world.toWrite given))).2 = .error cause ∧
    failure = .service (cause.wrapPersistence "put" (some given.id))

/-- Whether the table is asked before or after a placement, it answers the same. -/
theorem ask_withManager_snd (world : World) {manager : Manager} (hclock : manager.clock = world.clock) (number : Nat)
    (request : TableRequest) : ((world.withManager manager).ask number request).2 = (world.ask number request).2 := by
  have htables : (world.withManager manager).tables = world.tables := rfl
  have hnow : (world.withManager manager).clock = world.clock := hclock
  unfold ask
  rw [htables, hnow]
  cases world.tables[number]? <;> rfl

/-- Nothing but the table and the report that came with it can make a registration fail whose datanode is placed. -/
theorem serve_register_of_fits (hsound : world.manager.Sound) {given : Details} (hgiven : given.Admissible)
    (hfits : world.manager.topology.Fits given.id given.located.location) (nodeReport : Option NodeReport)
    (pipelineReport : Field) (layout : Option LayoutReport) :
    let outcome := (world.serve (.register (some given.toValue) nodeReport pipelineReport layout)).2
    (∃ acknowledgement, outcome = .ok (.acknowledged acknowledgement) ∧ acknowledgement.permitted = true) ∨
      ∃ failure, outcome = .error failure ∧
        (world.FailsToWrite given failure ∨ ∃ report ∈ nodeReport, report.usage = .error failure) := by
  intro outcome
  let request : RegistrationRequest := { details := given.located, nodeReport, pipelineReport, layout }
  have hkept : request.details.Kept := hgiven.kept_located
  have hid : request.details.id = given.id := given.id_located
  have houtcome : outcome = (world.run (.register request)).2 := congrArg Prod.snd
    (serve_register_admitted (world.manager.screen_of_admissible hgiven) nodeReport pipelineReport layout)
  rw [houtcome]
  -- What completing the registration says is what the registration is answered.
  have hcompleted (completed : Manager) (placed : PlacedRegistration) (hreport : placed.request.nodeReport = nodeReport)
      (houtcome : (world.run (.register request)).2 =
        (completed.completeRegistration placed).2.map Reply.acknowledged) :
      (∃ acknowledgement, (world.run (.register request)).2 = .ok (.acknowledged acknowledgement) ∧
          acknowledgement.permitted = true) ∨
        ∃ failure, (world.run (.register request)).2 = .error failure ∧
          (world.FailsToWrite given failure ∨ ∃ report ∈ nodeReport, report.usage = .error failure) := by
    rw [houtcome]
    obtain ⟨acknowledgement, hanswer, hpermitted⟩ | ⟨failure, hfailed, hunread⟩ :=
      completed.completeRegistration_snd placed
    · rw [hanswer]
      exact .inl ⟨acknowledgement, rfl, hpermitted⟩
    · rw [hfailed]
      exact .inr ⟨failure, rfl, .inr (hreport ▸ hunread)⟩
  cases hplacing : world.manager.placing request with
  | mk inPlace refusal =>
    obtain rfl : refusal = none := by
      have hnone := (hsound.placing_snd_eq_none_iff hkept).mpr (hid.symm ▸ hfits)
      rwa [hplacing] at hnone
    cases hwrite : (if request.persist then inPlace.table else none) with
    | none =>
      exact hcompleted inPlace (world.manager.placedBy inPlace request) rfl
        (congrArg Prod.snd (run_register_unwritten hplacing hwrite))
    | some number =>
      cases hasked : world.askedToPut inPlace number request with
      | mk asked answer =>
        have hrenews := Manager.renews_of_placing hsound.keyed hplacing
        have hasks := world.alike_askedToPut inPlace number request
        have hstored : (world.manager.placedBy inPlace request).stored = world.toWrite given := by
          rw [Manager.stored_placedBy hrenews, hid]
          rfl
        have hclock : inPlace.clock = world.clock := by
          have hkeeps := Manager.clock_place
            ({ world.manager with known := world.manager.known.record request.details }) request.details
            (request.layout.getD world.manager.layout.report) world.manager.clock
          exact (congrArg (Manager.clock ∘ Prod.fst) hplacing).symm.trans hkeeps
        rw [hasked] at hasks
        have hrun := congrArg Prod.snd (run_register_written hplacing hwrite hasked)
        obtain ⟨written, hwritten⟩ | ⟨hstrict, cause, rfl, hfailed⟩ :=
          asked.manager.finishRegistration_snd (world.manager.placedBy inPlace request) answer
        · exact hcompleted written (world.manager.placedBy inPlace request) rfl (hrun.trans hwritten)
        · refine .inr ⟨_, hrun.trans hfailed, .inl ⟨?_, number, cause, ?_, ?_, ?_⟩⟩
          · have hsettings := hasks.settings.trans hrenews.settings
            exact (congrArg (fun settings ↦ settings.configuration.isStrict) hsettings).symm.trans hstrict
          · exact (congrArg Settings.table hrenews.settings).symm.trans hwrite
          · rw [← world.ask_withManager_snd hclock, ← hstored, ← hid]
            exact congrArg Prod.snd hasked
          · rw [← hid]
            rfl

/-- A registration with admissible details that collides with another datanode is refused. -/
theorem serve_register_of_collides (hsound : world.manager.Sound) {given : Details} (hgiven : given.Admissible)
    (hcollides : world.manager.Collides given) (nodeReport : Option NodeReport) (pipelineReport : Field)
    (layout : Option LayoutReport) :
    ∃ after acknowledgement, world.serve (.register (some given.toValue) nodeReport pipelineReport layout) =
        (after, .ok (.acknowledged acknowledgement)) ∧
      acknowledgement.permitted = false ∧ world.Refuses given.id after := by
  let request : RegistrationRequest := { details := given.located, nodeReport, pipelineReport, layout }
  have hid : request.details.id = given.id := given.id_located
  rw [serve_register_admitted (world.manager.screen_of_admissible hgiven), ← hid]
  cases hplacing : world.manager.placing request with
  | mk inPlace refusal =>
    cases refusal with
    | none =>
      have hplaced := (hsound.placing_snd_eq_none_iff hgiven.kept_located).mp (congrArg Prod.snd hplacing)
      exact absurd hcollides ((Manager.not_collides_iff_fits hgiven).mpr (hid ▸ hplaced))
    | some refusal => exact run_register_of_refusal hplacing

/-! ## Runs -/

/-- Whatever a service has done since it was made, its cluster is healthy exactly when the code of a refused
registration is absent, and a registration that succeeds makes it so.  A registration with admissible details is
refused exactly when it collides with another datanode, and then nothing has changed but the condition of the cluster
and what the index knows of the datanode.  Otherwise it succeeds, unless its report cannot be read or, under strict
durability, the table fails to write it. -/
theorem registration_refused_iff_collides_after {start : World} (hfresh : start.manager.IsFresh) (moves : List Move) :
    let world := start.after moves
    (world.manager.cluster.healthy = true ↔
      world.manager.cluster.hasError ClusterContext.invalidTopology = false) ∧
    ∀ nodeReport pipelineReport layout,
      (∀ offered acknowledgement,
        let served := world.serve (.register offered nodeReport pipelineReport layout)
        served.2 = .ok (.acknowledged acknowledgement) → acknowledgement.permitted = true →
          served.1.manager.cluster.healthy = true ∧
            served.1.manager.cluster.hasError ClusterContext.invalidTopology = false) ∧
      ∀ given : Details, given.Admissible →
        let served := world.serve (.register (some given.toValue) nodeReport pipelineReport layout)
        ((∃ acknowledgement, served.2 = .ok (.acknowledged acknowledgement) ∧ acknowledgement.permitted = false) ↔
          world.manager.Collides given) ∧
        (world.manager.Collides given → world.Refuses given.id served.1) ∧
        (¬ world.manager.Collides given →
          (∃ acknowledgement, served.2 = .ok (.acknowledged acknowledgement) ∧ acknowledgement.permitted = true) ∨
          ∃ failure, served.2 = .error failure ∧
            (world.FailsToWrite given failure ∨ ∃ report ∈ nodeReport, report.usage = .error failure)) := by
  intro world
  have hsound : world.manager.Sound := sound_after hfresh.memory.sound moves
  refine ⟨(inStep_after hfresh.tells.inStep moves).healthy_iff, fun nodeReport pipelineReport layout ↦ ⟨?_, ?_⟩⟩
  · intro offered acknowledgement served hanswer hpermitted
    have hfollows : world.manager.cluster.Follows served.2 served.1.manager.cluster :=
      world.follows_serve_register offered nodeReport pipelineReport layout
    rw [hanswer] at hfollows
    cases hfollows with
    | answered htells =>
      rw [hpermitted] at htells
      exact ⟨htells.healthy, htells.code⟩
  · intro given hgiven served
    have hrefused (hcollides : world.manager.Collides given) := serve_register_of_collides hsound hgiven hcollides
      nodeReport pipelineReport layout
    have hserved (hfree : ¬ world.manager.Collides given) := serve_register_of_fits hsound hgiven
      ((Manager.not_collides_iff_fits hgiven).mp hfree) nodeReport pipelineReport layout
    refine ⟨⟨?_, fun hcollides ↦ ?_⟩, fun hcollides ↦ ?_, hserved⟩
    · rintro ⟨acknowledgement, hanswer, hrefusal⟩
      by_contra hfree
      obtain ⟨other, hother, hpermitted⟩ | ⟨failure, hfailed, -⟩ := hserved hfree
      · rw [hanswer] at hother
        obtain rfl : acknowledgement = other := by simpa using hother
        rw [hrefusal] at hpermitted
        cases hpermitted
      · rw [hanswer] at hfailed
        cases hfailed
    · obtain ⟨after, acknowledgement, hanswer, hrefusal, -⟩ := hrefused hcollides
      exact ⟨acknowledgement, congrArg Prod.snd hanswer, hrefusal⟩
    · obtain ⟨after, acknowledgement, hanswer, -, hrefuses⟩ := hrefused hcollides
      rw [show served = _ from hanswer]
      exact hrefuses

/-- While a datanode is two levels deep, another that is to lie one level deep is refused.  Once the first has moved up,
the cluster is healthy again. -/
theorem registration_refused_beside_deeper :
    let start := initial .default
    let other := Details.whole "0f8fad5b-d9cb-469f-a165-70867728950e"
    let refused : Move := .call (.operate (.register (some other.toValue) none none none))
    let world := start.after [Move.sample "/row1/rack1"]
    let served := world.serve (.register (some other.toValue) none none none)
    start.manager.IsFresh ∧ other.Admissible ∧ world.manager.Collides other ∧
      (∃ acknowledgement, served.2 = .ok (.acknowledged acknowledgement) ∧ acknowledgement.permitted = false) ∧
      world.Refuses other.id served.1 ∧
      (start.after [Move.sample "/row1/rack1", refused, Move.sample "/rack1"]).manager.cluster.healthy = true := by
  intro start other refused world served
  have hfresh : start.manager.IsFresh := Service.isFresh_make _ _
  have hother : other.Admissible := ⟨by decide +kernel, _, rfl⟩
  have hplaced : world.manager.topology.location? (Details.sample "").id = some "/row1/rack1" := by decide +kernel
  have hcollides : world.manager.Collides other :=
    ⟨(Details.sample "").id, "/row1/rack1", by decide +kernel, hplaced, by decide +kernel⟩
  obtain ⟨hrefused, hrefuses, -⟩ :=
    ((registration_refused_iff_collides_after hfresh [Move.sample "/row1/rack1"]).2 none none none).2 other hother
  refine ⟨hfresh, hother, hcollides, hrefused.mpr hcollides, hrefuses hcollides, ?_⟩
  refine (registration_refused_iff_collides_after hfresh
    [Move.sample "/row1/rack1", refused, Move.sample "/rack1"]).1.mpr ?_
  decide +kernel

end World

end ClusterMembership
