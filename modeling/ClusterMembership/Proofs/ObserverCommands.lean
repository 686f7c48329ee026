import ClusterMembership.Proofs.Outdated

/-!
# What an observer sends

An observer only ever tells datanodes to register again.  Its manager issues no command of its own: it logs a
layout that lies behind and follows the operational states that are reported, it is asked for no refresh, and of
the commands that come in it takes only those to register again.  `World.Observes` says so of every state, so that
the filter on the replies has nothing to drop, and a heartbeat that is passed on and whose reports can be read
brings the registry to the operational state that the datanode reports.
-/

namespace ClusterMembership

/-- Values that are the same to the service are equal. -/
theorem Value.eq_of_same {a b : Value} (h : a.same b = true) : a = b := by
  unfold Value.same at h
  split at h
  · rfl
  · exact congrArg Value.bool (of_decide_eq_true h)
  · next a b =>
    refine congrArg Value.number ?_
    unfold Number.equal at h
    split at h
    · cases h
    · exact of_decide_eq_true h
  · exact congrArg Value.text (of_decide_eq_true h)
  · cases h

theorem Field.eq_of_same {a b : Field} (h : a.same b = true) : a = b := by
  unfold Field.same at h
  split at h
  · rfl
  · exact congrArg some (Value.eq_of_same h)
  · cases h

/-- Where a layout that lies behind is only logged, no datanode is told to finalize. -/
theorem Layout.commandFor_of_logOnly {layout : Layout} (h : layout.mode = .logOnly) (reported : LayoutReport)
    (now : Instant) : layout.commandFor reported now = none := by
  unfold commandFor sendsFinalize
  simp [h]

theorem Observer.allows_iff (command : Command) : allows command = true ↔ command.kind = .reregister := by
  unfold allows allowedKinds
  simp

theorem Registry.expiryOrNever_expiryOrNever (expiry : Field) :
    expiryOrNever (expiryOrNever expiry) = expiryOrNever expiry := by
  cases expiry <;> rfl

/-- A report whose volumes, if it has any, are listed. -/
def HeartbeatReport.IsReadable (report : HeartbeatReport) : Prop :=
  ∀ given, report.nodeReport = some given → given.volumes ≠ none

/-- A move that an observer can make: only a primary is told to queue commands of any kind. -/
def Move.SuitsObserver : Move → Prop
  | .call (.queue _ _) => False
  | _ => True

namespace Manager

/-- A manager that sends no command to finalize and no operational state. -/
structure Watches (manager : Manager) : Prop where
  logs : manager.layout.mode = .logOnly
  follows : manager.authority = .followReported

variable {manager : Manager}

theorem Watches.of_settings (h : manager.Watches) {after : Manager} (hsettings : after.settings = manager.settings) :
    after.Watches where
  logs := (congrArg (fun settings : Settings ↦ settings.layout.mode) hsettings).trans h.logs
  follows := (congrArg Settings.authority hsettings).trans h.follows

theorem Watches.queuedByRegistration_eq (h : manager.Watches) (layout : Option LayoutReport) (outcome : Outcome)
    (id : String) : manager.queuedByRegistration layout outcome id = [] := by
  unfold queuedByRegistration
  split
  · rw [Layout.commandFor_of_logOnly h.logs]
    simp
  · rfl

theorem Watches.queuedByHeartbeat_eq (h : manager.Watches) (details : Details) (report : HeartbeatReport)
    (now : Instant) : manager.queuedByHeartbeat details report now = [] := by
  have hcorrection : manager.correction details now = [] := by
    unfold correction
    split
    · exact if_neg fun henforced ↦ StateAuthority.noConfusion (h.follows.symm.trans henforced.1)
    · rfl
  have hfinalize : (report.layout.bind fun reported ↦ manager.layout.commandFor reported now) = none := by
    cases report.layout with
    | none => rfl
    | some reported => exact Layout.commandFor_of_logOnly h.logs reported now
  rw [queuedByHeartbeat, hfinalize, hcorrection]
  rfl

/-- What waits after a heartbeat waited before it. -/
theorem mem_waiting_of_heartbeat (hkeyed : manager.Keyed) {details : Details}
    {report : HeartbeatReport} {now : Instant} {id : String} {command : Command}
    (hmem : command ∈ (manager.heartbeat details report now).1.waiting id) : command ∈ manager.waiting id := by
  cases hregistered : manager.registry.contains details.id with
  | false =>
    obtain ⟨note, hheartbeat⟩ := exists_heartbeat_of_absent hregistered report now
    rw [hheartbeat] at hmem
    exact hmem
  | true =>
    obtain ⟨-, hquiet⟩ | ⟨-, hwaiting⟩ := manager.heartbeat_cases hkeyed details report now hregistered
    · exact hquiet.waiting id ▸ hmem
    · rw [hwaiting] at hmem
      split at hmem
      · exact absurd hmem List.not_mem_nil
      · exact hmem

/-- The reply of a watching manager is what waited, or the command to register. -/
theorem Watches.heartbeat_eq_ok (h : manager.Watches) (hkeyed : manager.Keyed) {details : Details}
    {report : HeartbeatReport} {now : Instant} {commands : List Command}
    (hreply : (manager.heartbeat details report now).2 = .ok commands) :
    commands = if manager.registry.contains details.id = true then manager.waiting details.id
      else [Command.reregister now] := by
  cases hregistered : manager.registry.contains details.id with
  | false =>
    obtain ⟨note, hheartbeat⟩ := exists_heartbeat_of_absent hregistered report now
    rw [hheartbeat] at hreply
    exact (Except.ok.inj hreply).symm
  | true =>
    obtain ⟨⟨failure, hfailed⟩, -⟩ | ⟨hwaited, -⟩ :=
      manager.heartbeat_cases hkeyed details report now hregistered
    · rw [hfailed] at hreply
      cases hreply
    · rw [hwaited, h.queuedByHeartbeat_eq, List.append_nil] at hreply
      exact (Except.ok.inj hreply).symm

/-- Reports that can be read are taken. -/
theorem exists_takeReports_eq (manager : Manager) (id : String) (details : Details) {report : HeartbeatReport}
    (hreadable : report.IsReadable) (now : Instant) :
    ∃ reported, manager.takeReports id details report now = .ok reported := by
  obtain ⟨stocked, hstocked⟩ := manager.exists_noteUsage_eq id hreadable now
  rw [takeReports, hstocked]
  exact ⟨_, rfl⟩

/-- The registry holds the operational state that a datanode reports; a missing expiry counts as zero. -/
def HoldsReported (manager : Manager) (details : Details) : Prop :=
  ∃ record, manager.registry.get? details.id = some record ∧ record.status.operational = details.operational ∧
    Registry.expiryOrNever record.status.expiry = Registry.expiryOrNever details.expiry

/-- A difference is settled by following what is reported. -/
theorem Watches.holdsReported_settleState (h : manager.Watches) (hkeyed : manager.Keyed) {details : Details}
    (hregistered : manager.registry.contains details.id = true) (now : Instant) :
    (manager.settleState details now).HoldsReported details := by
  obtain ⟨record, hrecord⟩ := (Registry.contains_iff _ _).mp hregistered
  unfold settleState
  simp only [hrecord, h.follows]
  split
  · next hreports =>
    obtain ⟨hoperational, hexpiry⟩ := Bool.and_eq_true_iff.mp hreports
    exact ⟨record, hrecord, (Field.eq_of_same hoperational).symm,
      congrArg Registry.expiryOrNever (Field.eq_of_same hexpiry).symm⟩
  · let expiry := Registry.expiryOrNever details.expiry
    have hadopted : (manager.registry.amend details.id (Registry.restated details.operational expiry now)).get?
        details.id = some (Registry.restated details.operational expiry now record) := by
      rw [Registry.get?_amend, if_pos rfl, hrecord, Option.map_some]
      intro former hformer
      exact (former.details.id_withOperational details.operational expiry).trans (hkeyed hformer)
    exact ⟨_, hadopted, rfl, Registry.expiryOrNever_expiryOrNever details.expiry⟩

/-- A heartbeat of a registered datanode whose reports can be read is answered, and the registry holds the
operational state that it reports. -/
theorem Watches.follows_heartbeat (h : manager.Watches) (hkeyed : manager.Keyed) {details : Details}
    (hregistered : manager.registry.contains details.id = true) {report : HeartbeatReport}
    (hreadable : report.IsReadable) (now : Instant) :
    (∃ commands, (manager.heartbeat details report now).2 = .ok commands) ∧
      (manager.heartbeat details report now).1.HoldsReported details := by
  obtain ⟨record, hrecord⟩ := (Registry.contains_iff _ _).mp hregistered
  obtain ⟨reported, htaken⟩ := exists_takeReports_eq
    (manager.hear details.id record.status.health report.layout now) details.id record.details hreadable now
  have htended := tended_hear_takeReports hkeyed hregistered htaken
  have hsettled := (h.of_settings htended.settings).holdsReported_settleState (htended.keyed hkeyed)
    ((htended.contains details.id).trans hregistered) now
  unfold heartbeat
  simp only [hrecord, htaken]
  exact ⟨⟨_, rfl⟩, hsettled⟩

end Manager

namespace World

/-- An observer for which only commands to register again wait. -/
structure Observes (world : World) : Prop where
  sound : world.manager.Sound
  observer : world.service.observer.isSome = true
  watches : world.manager.Watches
  reregisters : ∀ {id command}, command ∈ world.manager.waiting id → command.kind = .reregister

variable {world : World}

/-! ## One move -/

theorem isSome_observer_move (h : world.service.observer.isSome = true) (move : Move) :
    (world.move move).service.observer.isSome = true := by
  obtain ⟨observer, hobserver⟩ := Option.isSome_iff_exists.mp h
  obtain ⟨tracker, hmoved, -⟩ := exists_sees_move hobserver move
  rw [hmoved]
  rfl

/-- A move keeps a manager watching. -/
theorem watches_move (hkeyed : world.manager.Keyed) (h : world.manager.Watches) (move : Move) :
    (world.move move).manager.Watches := by
  cases move with
  | call call =>
    by_cases hswitch : ∃ table, call = .switch table
    · obtain ⟨table, rfl⟩ := hswitch
      have hswitched : (world.switchTable table).manager.Watches := ⟨h.logs, h.follows⟩
      exact hswitched.of_settings (world.switchTable table).settings_load
    · exact h.of_settings (settings_call hkeyed fun table hcall ↦ hswitch ⟨table, hcall⟩)
  | finalizeLayout => exact ⟨h.logs, h.follows⟩
  | _ => exact h.of_settings rfl

namespace Observes

theorem mem_waiting_serve (h : world.Observes) {request : OperationRequest} {id : String} {command : Command}
    (hmem : command ∈ (world.serve request).1.manager.waiting id) : command ∈ world.manager.waiting id := by
  cases request with
  | register offered nodeReport pipelineReport layout =>
    obtain ⟨refused, failure, hnoted, hserved⟩ | ⟨details, -, -, hserved⟩ :=
      world.serve_register_cases offered nodeReport pipelineReport layout
    · rw [hserved] at hmem
      exact hnoted.alike.quiet.waiting id ▸ hmem
    · rw [hserved, waiting_run_register, h.watches.queuedByRegistration_eq, List.append_nil] at hmem
      exact hmem
  | heartbeat offered report =>
    cases hdetails : Details.ofField offered with
    | error failure =>
      rw [serve_heartbeat_refused hdetails] at hmem
      exact hmem
    | ok details =>
      obtain ⟨observer, hobserver⟩ := Option.isSome_iff_exists.mp h.observer
      by_cases hreached : Configuration.isReached observer.threshold
          (world.clock - observer.tracker.get details.id) = true
      · obtain ⟨note, hmanager⟩ := (turnsAway_of_reached hobserver hdetails report hreached).manager
        rw [hmanager] at hmem
        split at hmem
        · have hwaiting := world.manager.waiting_purgeCommands details.id id
          change command ∈ (world.manager.purgeCommands details.id).1.waiting id at hmem
          rw [hwaiting] at hmem
          split at hmem
          · exact absurd hmem List.not_mem_nil
          · exact hmem
        · exact hmem
      · have hpassed := passesOn_of_not_reached hobserver hdetails report hreached
        rw [hpassed.manager] at hmem
        exact Manager.mem_waiting_of_heartbeat h.sound.keyed hmem
  | remove removed =>
    rw [serve_remove] at hmem
    obtain ⟨-, hwaiting⟩ | ⟨-, hwaiting⟩ := world.waiting_run_remove removed
    · rw [hwaiting] at hmem
      split at hmem
      · exact absurd hmem List.not_mem_nil
      · exact hmem
    · exact hwaiting id ▸ hmem
  | setState changed state expiry =>
    rw [serve_setState, run_setState, waiting_runStateChange] at hmem
    exact hmem
  | reconcile changed state expiry =>
    rw [serve_reconcile, waiting_run_reconcile] at hmem
    exact hmem

/-- What waits after a move waited before, or it is a command to register again that came in. -/
theorem mem_waiting_move (h : world.Observes) {move : Move} (hsuits : move.SuitsObserver) {id : String}
    {command : Command} (hmem : command ∈ (world.move move).manager.waiting id) :
    command ∈ world.manager.waiting id ∨ command.kind = .reregister := by
  cases move with
  | call call =>
    cases call with
    | operate request => exact .inl (h.mem_waiting_serve hmem)
    | queue target command => exact hsuits.elim
    | take target taken =>
      unfold World.move World.call Service.onCommand at hmem
      simp only at hmem
      split at hmem
      · exact .inl hmem
      · next hallowed =>
        have htaken : taken.kind = .reregister := by
          rw [h.observer, Bool.true_and, Bool.not_eq_true', Bool.not_eq_false] at hallowed
          exact (Observer.allows_iff taken).mp hallowed
        change command ∈ (world.manager.onCommand target taken).waiting id at hmem
        rw [Manager.waiting_onCommand, List.mem_append] at hmem
        refine hmem.imp_right fun hadded ↦ ?_
        split at hadded
        · unfold Command.addressed at hadded
          split at hadded
          · exact List.mem_singleton.mp hadded ▸ htaken
          · exact absurd hadded List.not_mem_nil
        · exact absurd hadded List.not_mem_nil
    | purge purged =>
      change command ∈ (world.manager.purgeCommands purged).1.waiting id at hmem
      rw [Manager.waiting_purgeCommands] at hmem
      split at hmem
      · exact absurd hmem List.not_mem_nil
      · exact .inl hmem
    | refreshUsage =>
      obtain ⟨observer, hobserver⟩ := Option.isSome_iff_exists.mp h.observer
      unfold World.move World.call Service.refreshUsage at hmem
      simp only [hobserver] at hmem
      exact .inl hmem
    | sweep moment =>
      obtain hwaiting | ⟨hnothing, -⟩ := world.manager.swept_checkHeartbeats h.sound.keyed (moment.getD world.clock) id
      · exact .inl (hwaiting ▸ hmem)
      · change command ∈ (world.manager.checkHeartbeats (moment.getD world.clock)).1.waiting id at hmem
        rw [hnothing] at hmem
        exact absurd hmem List.not_mem_nil
    | load => exact .inl (world.waiting_load id ▸ hmem)
    | switch table => exact .inl ((world.switchTable table).waiting_load id ▸ hmem)
  | _ => exact .inl hmem

theorem move (h : world.Observes) {move : Move} (hsuits : move.SuitsObserver) : (world.move move).Observes where
  sound := sound_move h.sound move
  observer := isSome_observer_move h.observer move
  watches := watches_move h.sound.keyed h.watches move
  reregisters hmem := (h.mem_waiting_move hsuits hmem).elim h.reregisters id

theorem after (h : world.Observes) {moves : List Move} (hsuits : ∀ move ∈ moves, move.SuitsObserver) :
    (world.after moves).Observes := by
  unfold World.after
  induction moves generalizing world with
  | nil => exact h
  | cons move rest ih =>
    exact ih (h.move (hsuits move List.mem_cons_self)) fun other hmem ↦
      hsuits other (List.mem_cons_of_mem move hmem)

/-! ## Replies -/

section Replies

variable {details : Details} {offered : Field} {report : HeartbeatReport} {commands : List Command}

/-- What the manager answers to a heartbeat passes the filter as it is. -/
theorem reregisters_heartbeat (h : world.Observes) {now : Instant}
    (hreply : (world.manager.heartbeat details report now).2 = .ok commands) :
    ∀ command ∈ commands, command.kind = .reregister := by
  intro command hmem
  rw [h.watches.heartbeat_eq_ok h.sound.keyed hreply] at hmem
  split at hmem
  · exact h.reregisters hmem
  · rw [List.mem_singleton.mp hmem]
    rfl

/-- Whether it is outdated or passed on, a heartbeat is answered with commands to register again only. -/
theorem reregisters_serve_heartbeat (h : world.Observes)
    (hreply : (world.serve (.heartbeat offered report)).2 = .ok (.commands commands)) :
    ∀ command ∈ commands, command.kind = .reregister := by
  obtain ⟨observer, hobserver⟩ := Option.isSome_iff_exists.mp h.observer
  intro command hmem
  cases hdetails : Details.ofField offered with
  | error failure =>
    rw [serve_heartbeat_refused hdetails] at hreply
    cases hreply
  | ok details =>
    by_cases hreached : Configuration.isReached observer.threshold
        (world.clock - observer.tracker.get details.id) = true
    · rw [(turnsAway_of_reached hobserver hdetails report hreached).reply] at hreply
      obtain rfl : [Command.reregister world.clock] = commands := by simpa using hreply
      rw [List.mem_singleton.mp hmem]
      rfl
    · rw [(passesOn_of_not_reached hobserver hdetails report hreached).reply] at hreply
      cases hpassed : (world.manager.heartbeat details report world.clock).2 with
      | error failure =>
        rw [hpassed] at hreply
        cases hreply
      | ok passed =>
        rw [hpassed] at hreply
        obtain rfl : passed.filter (·.kind = .reregister) = commands := by simpa [Except.map] using hreply
        exact h.reregisters_heartbeat hpassed command (List.mem_filter.mp hmem).1

/-- A heartbeat of a registered datanode that is passed on and can be read is answered and followed. -/
theorem follows_serve_heartbeat (h : world.Observes) {observer : Observer}
    (hobserver : world.service.observer = some observer) (hdetails : Details.ofField offered = .ok details)
    (hregistered : world.manager.registry.contains details.id = true)
    (htimely : ¬ Configuration.isReached observer.threshold (world.clock - observer.tracker.get details.id) = true)
    (hreadable : report.IsReadable) :
    (∃ commands, (world.serve (.heartbeat offered report)).2 = .ok (.commands commands)) ∧
      (world.serve (.heartbeat offered report)).1.manager.HoldsReported details := by
  have hpassed := passesOn_of_not_reached hobserver hdetails report htimely
  obtain ⟨⟨commands, hreply⟩, hholds⟩ := h.watches.follows_heartbeat h.sound.keyed hregistered hreadable world.clock
  refine ⟨⟨commands.filter (·.kind = .reregister), ?_⟩, hpassed.manager ▸ hholds⟩
  rw [hpassed.reply, hreply]
  rfl

end Replies

end Observes

/-! ## Runs -/

theorem observes_observing (settings : ServiceSettings) (configuration : Configuration) (tables : List Table) :
    (observing settings configuration tables).Observes where
  sound := (hasEmptyMemory_observing _ _ _).sound
  observer := rfl
  watches := by
    unfold observing Service.make manager
    simp only
    split
    · unfold Manager.startMonitoring
      split <;> exact ⟨rfl, rfl⟩
    · exact ⟨rfl, rfl⟩
  reregisters {id command} hmem := by
    rw [Manager.waiting, (hasEmptyMemory_observing _ _ _).commands] at hmem
    exact absurd hmem List.not_mem_nil

/-- The threshold of an observer and what it does with waiting commands are those of its configuration. -/
theorem exists_observer_after (settings : ServiceSettings) (configuration : Configuration) (tables : List Table)
    (moves : List Move) :
    ∃ tracker, ((observing settings configuration tables).after moves).service.observer =
      some { Observer.create configuration with tracker } :=
  have ⟨tracker, hobserver, _⟩ := exists_tracker_after (observer_observing settings configuration tables) rfl moves
  ⟨tracker, hobserver⟩

/-- In every run of an observer only commands to register again wait for datanodes, the filter on the replies of the
manager drops nothing, and every command that a datanode is sent is one to register again.  A heartbeat of a
registered datanode that is not outdated and whose reports can be read is answered, and the registry then holds the
operational state that the datanode reports. -/
theorem observer_drives_nothing_after (settings : ServiceSettings) (configuration : Configuration)
    (tables : List Table) (moves : List Move) (hsuits : ∀ move ∈ moves, move.SuitsObserver) :
    let reached := (observing settings configuration tables).after moves
    (∀ id, ∀ queued ∈ reached.manager.commands.peek id, queued.command.kind = .reregister) ∧
    (∀ details report now commands, (reached.manager.heartbeat details report now).2 = .ok commands →
      commands.filter Observer.allows = commands) ∧
    (∀ offered report commands, (reached.serve (.heartbeat offered report)).2 = .ok (.commands commands) →
      ∀ command ∈ commands, command.kind = .reregister) ∧
    ∀ offered details report, Details.ofField offered = .ok details →
      reached.manager.registry.contains details.id = true →
      ¬ Configuration.isReached configuration.outdatedThreshold
        (reached.clock - reached.service.lastHeartbeat details.id) = true →
      report.IsReadable →
      (∃ commands, (reached.serve (.heartbeat offered report)).2 = .ok (.commands commands)) ∧
        (reached.serve (.heartbeat offered report)).1.manager.HoldsReported details := by
  intro reached
  have hobserves : reached.Observes := (observes_observing settings configuration tables).after hsuits
  obtain ⟨tracker, hobserver⟩ := exists_observer_after settings configuration tables moves
  refine ⟨fun id queued hmem ↦ hobserves.reregisters (List.mem_map_of_mem hmem), ?_,
    fun _ _ _ hreply ↦ hobserves.reregisters_serve_heartbeat hreply, ?_⟩
  · intro details report now commands hreply
    exact List.filter_eq_self.mpr fun command hmem ↦
      (Observer.allows_iff command).mpr (hobserves.reregisters_heartbeat hreply command hmem)
  · intro offered details report hdetails hregistered htimely hreadable
    have hlast : reached.service.lastHeartbeat details.id = tracker.get details.id := by
      unfold Service.lastHeartbeat
      rw [hobserver]
    rw [hlast] at htimely
    exact hobserves.follows_serve_heartbeat hobserver hdetails hregistered htimely hreadable

end World

def Details.sampleDecommissioned : Details :=
  (Details.sample "/rack1").withOperational (some (.text OperationalState.decommissioned.name)) none

def Move.sampleHeard : List Move :=
  [.sample "/rack1", .call (.operate (.heartbeat (some (Details.sample "/rack1").toValue) {}))]

namespace World

/-- An observer follows the datanode that reports to be decommissioned. -/
theorem observer_drives_nothing_after_decommissioning :
    let reached := (observing { clock := 1767225600000 } .default []).after Move.sampleHeard
    let details := Details.sampleDecommissioned
    let heartbeat := OperationRequest.heartbeat (some details.toValue) {}
    (∀ move ∈ Move.sampleHeard, move.SuitsObserver) ∧ (reached.serve heartbeat).1.manager.HoldsReported details ∧
      ((reached.serve heartbeat).1.manager.registry.get? details.id).map
          (fun record ↦ (record.status.operational, record.status.expiry)) =
        some (some (.text OperationalState.decommissioned.name), some (.number 0)) := by
  intro reached details heartbeat
  have hsuits : ∀ move ∈ Move.sampleHeard, move.SuitsObserver := by
    simp only [Move.sampleHeard, List.forall_mem_cons]
    exact ⟨trivial, trivial, by simp⟩
  obtain ⟨-, -, -, hfollows⟩ :=
    observer_drives_nothing_after { clock := 1767225600000 } .default [] Move.sampleHeard hsuits
  refine ⟨hsuits, (hfollows _ details {} rfl (by decide +kernel) (by decide +kernel) ?_).2, by decide +kernel⟩
  intro given hgiven
  cases hgiven

/-- A heartbeat whose node report lists no volumes fails before the operational state is followed, though the
datanode is registered and was heard of just before. -/
theorem not_holdsReported_of_unlisted_volumes :
    let reached := (observing { clock := 1767225600000 } .default []).after Move.sampleHeard
    let details := Details.sampleDecommissioned
    let heartbeat := OperationRequest.heartbeat (some details.toValue) { nodeReport := some ⟨none⟩ }
    reached.manager.registry.contains details.id = true ∧
      ¬ Configuration.isReached Configuration.default.outdatedThreshold
        (reached.clock - reached.service.lastHeartbeat details.id) = true ∧
      (reached.serve heartbeat).2.toOption = none ∧
      ¬ (reached.serve heartbeat).1.manager.HoldsReported details := by
  intro reached details heartbeat
  refine ⟨by decide +kernel, by decide +kernel, by decide +kernel, ?_⟩
  rintro ⟨record, hrecord, hoperational, -⟩
  have hleft : ((reached.serve heartbeat).1.manager.registry.get? details.id).map
      (fun record ↦ record.status.operational) = some (some (.text OperationalState.inService.name)) := by
    decide +kernel
  rw [hrecord, Option.map_some, hoperational] at hleft
  exact absurd hleft (by decide +kernel)

end World

end ClusterMembership
