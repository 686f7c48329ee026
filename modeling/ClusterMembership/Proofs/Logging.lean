import ClusterMembership.Proofs.History

/-!
# The log is written and never read

What a service does depends on its stores, its clock and its tables, never on what it has logged.  Each lemma
below says so for one function: with other log entries before it there are other log entries after it, and all
else is the same, what is handed back included.  `World.SameButLog` relates two worlds of that kind, and
`World.SameButLog.after` carries it through all moves of a run.
-/

namespace ClusterMembership

namespace Manager

def relog (manager : Manager) (entries : List LogEntry) : Manager :=
  { manager with trace := { manager.trace with entries := entries } }

variable (manager : Manager) (entries : List LogEntry)

@[simp]
theorem configuration_relog : (manager.relog entries).configuration = manager.configuration := rfl

@[simp]
theorem layout_relog : (manager.relog entries).layout = manager.layout := rfl

@[simp]
theorem authority_relog : (manager.relog entries).authority = manager.authority := rfl

@[simp]
theorem registry_relog : (manager.relog entries).registry = manager.registry := rfl

@[simp]
theorem topology_relog : (manager.relog entries).topology = manager.topology := rfl

@[simp]
theorem unsynced_relog : (manager.relog entries).unsynced = manager.unsynced := rfl

@[simp]
theorem table_relog : (manager.relog entries).table = manager.table := rfl

theorem exists_relog_note (note : Note) :
    ∃ rest, (manager.relog entries).note note = (manager.note note).relog rest := ⟨_, rfl⟩

theorem exists_relog_noteAll (notes : List Note) :
    ∃ rest, (manager.relog entries).noteAll notes = (manager.noteAll notes).relog rest := by
  unfold noteAll
  induction notes generalizing manager entries with
  | nil => exact ⟨entries, rfl⟩
  | cons note notes ih =>
    obtain ⟨rest, hnoted⟩ := manager.exists_relog_note entries note
    rw [List.foldl_cons, hnoted]
    exact ih _ rest

theorem relog_markUnsynced (id : String) :
    (manager.relog entries).markUnsynced id = (manager.markUnsynced id).relog entries := by
  unfold markUnsynced
  rw [unsynced_relog]
  split <;> rfl

/-! ## Registrations -/

theorem exists_relog_screen (offered : Field) :
    ∃ rest, (manager.relog entries).screen offered =
      ((manager.screen offered).1.relog rest, (manager.screen offered).2) := by
  unfold screen
  split
  · exact ⟨entries, rfl⟩
  · exact ⟨entries, rfl⟩
  · split <;> exact ⟨_, rfl⟩

theorem exists_relog_settleWrite (id : String) (answer : TableAnswer) :
    ∃ rest, (manager.relog entries).settleWrite id answer =
      ((manager.settleWrite id answer).1.relog rest, (manager.settleWrite id answer).2) := by
  unfold settleWrite
  split
  · exact ⟨entries, rfl⟩
  · simp only
    rw [configuration_relog]
    split
    · exact ⟨_, rfl⟩
    · obtain ⟨rest, hnoted⟩ := manager.exists_relog_note entries _
      rw [hnoted, relog_markUnsynced]
      exact ⟨rest, rfl⟩

theorem relog_place (details : Details) (layout : LayoutReport) (now : Instant) :
    (manager.relog entries).place details layout now =
      ((manager.place details layout now).1.relog entries, (manager.place details layout now).2) := by
  unfold place
  simp only
  rw [registry_relog, topology_relog]
  split
  · split <;> rfl
  · split <;> rfl

theorem relog_placing (request : RegistrationRequest) :
    (manager.relog entries).placing request =
      ((manager.placing request).1.relog entries, (manager.placing request).2) :=
  relog_place { manager with known := manager.known.record request.details } entries request.details
    (request.layout.getD manager.layout.report) manager.clock

theorem exists_relog_undoPlacement (placed : PlacedRegistration) :
    ∃ rest, (manager.relog entries).undoPlacement placed = (manager.undoPlacement placed).relog rest := by
  unfold undoPlacement
  simp only [topology_relog]
  split
  · exact ⟨entries, rfl⟩
  · split <;> exact ⟨_, rfl⟩

theorem relog_noteUsage (id : String) (report : Option NodeReport) (now : Instant) :
    (manager.relog entries).noteUsage id report now =
      (manager.noteUsage id report now).map fun stocked ↦ stocked.relog entries := by
  cases report with
  | none => rfl
  | some report =>
    unfold noteUsage
    simp only
    cases report.usage <;> rfl

theorem exists_relog_queueFinalize (id : String) (details : Details) (reported : LayoutReport)
    (now : Instant) :
    ∃ rest, (manager.relog entries).queueFinalize id details reported now =
      (manager.queueFinalize id details reported now).relog rest := by
  obtain ⟨rest, hnoted⟩ := manager.exists_relog_noteAll entries (manager.layout.checkNotes details reported)
  unfold queueFinalize
  simp only [layout_relog, hnoted]
  split <;> exact ⟨rest, rfl⟩

theorem exists_relog_announce (placed : PlacedRegistration) :
    ∃ rest, (manager.relog entries).announce placed = (manager.announce placed).relog rest := by
  unfold announce
  simp only
  split
  · split <;> exact ⟨_, rfl⟩
  · exact ⟨_, rfl⟩

theorem exists_relog_completeRegistration (placed : PlacedRegistration) :
    ∃ rest, (manager.relog entries).completeRegistration placed =
      ((manager.completeRegistration placed).1.relog rest, (manager.completeRegistration placed).2) := by
  unfold completeRegistration
  simp only [relog_noteUsage]
  cases manager.noteUsage placed.request.details.id placed.request.nodeReport placed.now with
  | error failure => exact ⟨entries, rfl⟩
  | ok stocked =>
    simp only [Except.map]
    obtain ⟨rest, hqueued⟩ := stocked.exists_relog_queueFinalize entries placed.request.details.id
      placed.stored placed.layout placed.now
    rw [hqueued]
    generalize stocked.queueFinalize placed.request.details.id placed.stored placed.layout placed.now = queued
    let settled : Manager :=
      { queued with cluster := (queued.cluster.setHealthy true).removeError ClusterContext.invalidTopology }
    obtain ⟨last, hannounced⟩ := settled.exists_relog_announce rest placed
    exact ⟨last, Prod.ext hannounced rfl⟩

theorem exists_relog_beginRegistration (request : RegistrationRequest) :
    ∃ rest, (manager.relog entries).beginRegistration request =
      ((manager.beginRegistration request).1.relog rest, (manager.beginRegistration request).2) := by
  have hplacing := manager.relog_placing entries request
  cases hplaced : manager.placing request with
  | mk inPlace refusal =>
    rw [hplaced] at hplacing
    unfold placing at hplacing hplaced
    unfold beginRegistration
    simp only
    rw [hplacing, hplaced]
    cases refusal with
    | some refusal => exact ⟨_, rfl⟩
    | none =>
      simp only [table_relog]
      cases if request.persist then inPlace.table else none with
      | some table => exact ⟨entries, rfl⟩
      | none =>
        obtain ⟨rest, hcompleted⟩ :=
          inPlace.exists_relog_completeRegistration entries (manager.placedBy inPlace request)
        exact ⟨rest, congrArg (fun result ↦ (result.1, Progress.ended (result.2.map Reply.acknowledged)))
          hcompleted⟩

theorem exists_relog_finishRegistration (placed : PlacedRegistration) (answer : TableAnswer) :
    ∃ rest, (manager.relog entries).finishRegistration placed answer =
      ((manager.finishRegistration placed answer).1.relog rest,
        (manager.finishRegistration placed answer).2) := by
  obtain ⟨rest, hsettled⟩ := manager.exists_relog_settleWrite entries placed.request.details.id answer
  unfold finishRegistration
  rw [hsettled]
  cases manager.settleWrite placed.request.details.id answer with
  | mk written settled =>
    cases settled with
    | ok _ =>
      obtain ⟨last, hcompleted⟩ := written.exists_relog_completeRegistration rest placed
      simp only [hcompleted]
      exact ⟨last, rfl⟩
    | error failure =>
      obtain ⟨last, hundone⟩ := written.exists_relog_undoPlacement rest placed
      simp only [hundone]
      exact ⟨last, rfl⟩

/-! ## Removals and operational states -/

theorem exists_relog_beginRemoval (id : String) :
    ∃ rest, (manager.relog entries).beginRemoval id =
      ((manager.beginRemoval id).1.relog rest, (manager.beginRemoval id).2) := by
  unfold beginRemoval
  rw [registry_relog, table_relog]
  split
  · split <;> exact ⟨_, rfl⟩
  · exact ⟨entries, rfl⟩

theorem exists_relog_finishRemoval (id : String) (answer : TableAnswer) :
    ∃ rest, (manager.relog entries).finishRemoval id answer =
      ((manager.finishRemoval id answer).1.relog rest, (manager.finishRemoval id answer).2) := by
  unfold finishRemoval
  split <;> exact ⟨_, rfl⟩

theorem exists_relog_beginStateChange (id : String) (state expiry : Field) (reply : Reply) :
    ∃ rest, (manager.relog entries).beginStateChange id state expiry reply =
      ((manager.beginStateChange id state expiry reply).1.relog rest,
        (manager.beginStateChange id state expiry reply).2) := by
  cases hrecord : manager.registry.get? id with
  | none =>
    have habsent := (Registry.contains_eq_false_iff _ _).mpr hrecord
    have hrelogged : (manager.relog entries).registry.contains id = false := habsent
    rw [beginStateChange_of_absent habsent, beginStateChange_of_absent hrelogged]
    exact ⟨entries, rfl⟩
  | some record =>
    have hrelogged : (manager.relog entries).registry.get? id = some record := hrecord
    obtain ⟨note, hbegun⟩ := exists_beginStateChange_eq hrecord state expiry reply
    obtain ⟨other, hother⟩ := exists_beginStateChange_eq hrelogged state expiry reply
    rw [hbegun, hother]
    exact ⟨_, Prod.ext rfl rfl⟩

theorem exists_relog_finishStateChange (id : String) (reply : Reply) (answer : TableAnswer) :
    ∃ rest, (manager.relog entries).finishStateChange id reply answer =
      ((manager.finishStateChange id reply answer).1.relog rest,
        (manager.finishStateChange id reply answer).2) := by
  obtain ⟨rest, hsettled⟩ := manager.exists_relog_settleWrite entries id answer
  unfold finishStateChange
  rw [hsettled]
  exact ⟨rest, rfl⟩

/-! ## Heartbeats and sweeps -/

theorem exists_relog_hear (id : String) (previous : Health) (layout : Option LayoutReport) (now : Instant) :
    ∃ rest, (manager.relog entries).hear id previous layout now =
      (manager.hear id previous layout now).relog rest := by
  unfold hear
  split <;> exact ⟨_, rfl⟩

theorem exists_relog_takeReports (id : String) (details : Details) (report : HeartbeatReport)
    (now : Instant) :
    ∃ rest, (manager.relog entries).takeReports id details report now =
      (manager.takeReports id details report now).map fun reported ↦ reported.relog rest := by
  unfold takeReports
  rw [relog_noteUsage]
  cases manager.noteUsage id report.nodeReport now with
  | error failure => exact ⟨entries, rfl⟩
  | ok stocked =>
    simp only [Except.map]
    cases report.layout with
    | none =>
      refine ⟨entries, ?_⟩
      cases report.heldCounts <;> rfl
    | some layout =>
      obtain ⟨rest, hqueued⟩ := stocked.exists_relog_queueFinalize entries id details layout now
      simp only [hqueued]
      refine ⟨rest, ?_⟩
      cases report.heldCounts <;> rfl

theorem exists_relog_settleState (details : Details) (now : Instant) :
    ∃ rest, (manager.relog entries).settleState details now =
      (manager.settleState details now).relog rest := by
  unfold settleState
  simp only
  rw [registry_relog, authority_relog]
  split
  · exact ⟨entries, rfl⟩
  · split
    · exact ⟨entries, rfl⟩
    · split <;> exact ⟨_, rfl⟩

theorem exists_relog_heartbeat (details : Details) (report : HeartbeatReport) (now : Instant) :
    ∃ rest, (manager.relog entries).heartbeat details report now =
      ((manager.heartbeat details report now).1.relog rest, (manager.heartbeat details report now).2) := by
  unfold heartbeat
  simp only
  rw [registry_relog]
  split
  · exact ⟨_, rfl⟩
  · next record _ =>
    obtain ⟨rest, hheard⟩ := manager.exists_relog_hear entries details.id record.status.health report.layout now
    rw [hheard]
    generalize manager.hear details.id record.status.health report.layout now = heard
    obtain ⟨last, hreported⟩ := heard.exists_relog_takeReports rest details.id record.details report now
    rw [hreported]
    cases heard.takeReports details.id record.details report now with
    | error failure => exact ⟨rest, rfl⟩
    | ok reported =>
      obtain ⟨end', hsettled⟩ := reported.exists_relog_settleState last details now
      simp only [Except.map, hsettled]
      exact ⟨end', rfl⟩

theorem exists_relog_sweepOne (result : SweepResult) (now : Instant) (record : NodeRecord) :
    ∃ rest, sweepOne now (manager.relog entries, result) record =
      ((sweepOne now (manager, result) record).1.relog rest, (sweepOne now (manager, result) record).2) := by
  unfold sweepOne
  simp only
  rw [configuration_relog]
  split
  · exact ⟨entries, rfl⟩
  · split <;> exact ⟨_, rfl⟩

theorem exists_relog_sweep (now : Instant) :
    ∃ rest, (manager.relog entries).sweep now =
      ((manager.sweep now).1.relog rest, (manager.sweep now).2) := by
  unfold sweep
  rw [registry_relog]
  generalize ({} : SweepResult) = result
  induction manager.registry.records.values generalizing manager entries result with
  | nil => exact ⟨entries, rfl⟩
  | cons record records ih =>
    obtain ⟨rest, hswept⟩ := manager.exists_relog_sweepOne entries result now record
    rw [List.foldl_cons, List.foldl_cons, hswept]
    exact ih _ rest _

theorem exists_relog_checkHeartbeats (now : Instant) :
    ∃ rest, (manager.relog entries).checkHeartbeats now =
      ((manager.checkHeartbeats now).1.relog rest, (manager.checkHeartbeats now).2) := by
  obtain ⟨rest, hswept⟩ := manager.exists_relog_sweep entries now
  unfold checkHeartbeats
  rw [hswept]
  simp only
  split <;> exact ⟨_, rfl⟩

/-! ## Commands -/

theorem relog_addCommand (id : String) (command : Command) :
    (manager.relog entries).addCommand id command =
      (manager.addCommand id command).map fun queued ↦ queued.relog entries := by
  unfold addCommand
  rw [registry_relog]
  split <;> rfl

theorem exists_relog_onCommand (id : String) (command : Command) :
    ∃ rest, (manager.relog entries).onCommand id command = (manager.onCommand id command).relog rest := by
  unfold onCommand
  rw [registry_relog]
  split <;> exact ⟨_, rfl⟩

/-! ## Loads -/

theorem exists_relog_takeEntry (loaded : Nat) (answer : TableAnswer) :
    ∃ rest, (manager.relog entries).takeEntry loaded answer =
      ((manager.takeEntry loaded answer).1.relog rest, (manager.takeEntry loaded answer).2) := by
  unfold takeEntry
  split
  · exact ⟨_, rfl⟩
  · exact ⟨_, rfl⟩
  · next entry =>
    obtain ⟨rest, hscreened⟩ := manager.exists_relog_screen entries entry.details
    rw [hscreened]
    cases manager.screen entry.details with
    | mk screened admitted => cases admitted <;> exact ⟨_, rfl⟩

theorem exists_relog_takeRegistered (entry : String) (loaded : Nat) (outcome : Outcome) :
    ∃ rest, (manager.relog entries).takeRegistered entry loaded outcome =
      ((manager.takeRegistered entry loaded outcome).1.relog rest,
        (manager.takeRegistered entry loaded outcome).2) := by
  unfold takeRegistered
  split <;> exact ⟨_, rfl⟩

theorem exists_relog_takeClosed (answer : TableAnswer) :
    ∃ rest, (manager.relog entries).takeClosed answer = (manager.takeClosed answer).relog rest := by
  unfold takeClosed
  split <;> exact ⟨_, rfl⟩

end Manager

/-! ## Services -/

namespace Service

def relog (service : Service) (entries : List LogEntry) : Service :=
  service.withManager (service.manager.relog entries)

variable (service : Service) (entries : List LogEntry)

theorem exists_relog_onCommand (id : String) (command : Command) :
    ∃ rest, (service.relog entries).onCommand id command = (service.onCommand id command).relog rest := by
  have hobserver : (service.relog entries).observer = service.observer := rfl
  unfold onCommand
  rw [hobserver]
  split
  · exact ⟨_, rfl⟩
  · obtain ⟨rest, htaken⟩ := service.manager.exists_relog_onCommand entries id command
    exact ⟨rest, congrArg service.withManager htaken⟩

theorem exists_relog_refreshUsage :
    ∃ rest, (service.relog entries).refreshUsage =
      (service.refreshUsage.1.relog rest, service.refreshUsage.2) := by
  have hobserver : (service.relog entries).observer = service.observer := rfl
  unfold refreshUsage
  rw [hobserver]
  split <;> exact ⟨_, rfl⟩

theorem exists_relog_primaryHeartbeat (details : Details) (report : HeartbeatReport) (now : Instant) :
    ∃ rest, (service.relog entries).primaryHeartbeat details report now =
      ((service.primaryHeartbeat details report now).1.relog rest,
        (service.primaryHeartbeat details report now).2) := by
  obtain ⟨rest, hheard⟩ := service.manager.exists_relog_heartbeat entries details report now
  exact ⟨rest, congrArg (fun heard ↦ (service.withManager heard.1, heard.2)) hheard⟩

theorem exists_relog_refuseOutdated (manager : Manager) (observer : Observer) (details : Details)
    (silence : Int) :
    ∃ rest, refuseOutdated (manager.relog entries) observer details silence =
      (refuseOutdated manager observer details silence).relog rest := by
  unfold refuseOutdated
  cases observer.discards <;> exact ⟨_, rfl⟩

theorem exists_relog_observedHeartbeat (observer : Observer) (details : Details) (report : HeartbeatReport) :
    ∃ rest, (service.relog entries).observedHeartbeat observer details report =
      ((service.observedHeartbeat observer details report).1.relog rest,
        (service.observedHeartbeat observer details report).2) := by
  have hclock : (service.relog entries).manager.clock = service.manager.clock := rfl
  unfold observedHeartbeat
  simp only
  rw [hclock]
  split
  · obtain ⟨rest, hrefused⟩ := exists_relog_refuseOutdated entries service.manager observer details
      (service.manager.clock - observer.tracker.get details.id)
    exact ⟨rest, congrArg (fun refused ↦
      (({ service with observer := some (observer.see details.id service.manager.clock) } : Service).withManager
        refused, Except.ok [Command.reregister service.manager.clock])) hrefused⟩
  · let seeing : Service :=
      { service with observer := some (observer.see details.id service.manager.clock) }
    obtain ⟨rest, hpassed⟩ :=
      seeing.exists_relog_primaryHeartbeat entries details report service.manager.clock
    exact ⟨rest, congrArg (fun passed ↦ (passed.1, passed.2.map (List.filter Observer.allows))) hpassed⟩

theorem exists_relog_heartbeat (details : Details) (report : HeartbeatReport) (issuedAt : Instant) :
    ∃ rest, (service.relog entries).heartbeat details report issuedAt =
      ((service.heartbeat details report issuedAt).1.relog rest,
        (service.heartbeat details report issuedAt).2) := by
  have hobserver : (service.relog entries).observer = service.observer := rfl
  unfold heartbeat
  rw [hobserver]
  split
  · exact service.exists_relog_primaryHeartbeat entries details report issuedAt
  · exact service.exists_relog_observedHeartbeat entries _ details report

theorem exists_relog_beginReconcile (manager : Manager) (id : String) (state expiry : Field) :
    ∃ rest, beginReconcile (manager.relog entries) id state expiry =
      ((beginReconcile manager id state expiry).1.relog rest,
        (beginReconcile manager id state expiry).2) := by
  have hstatus : (manager.relog entries).status id = manager.status id := rfl
  unfold beginReconcile
  rw [hstatus]
  split
  · exact ⟨entries, rfl⟩
  · split
    · exact ⟨entries, rfl⟩
    · obtain ⟨rest, hnoted⟩ := manager.exists_relog_note entries _
      rw [hnoted]
      exact Manager.exists_relog_beginStateChange _ rest id state expiry (.changed true)

theorem relog_afterRemoval (id : String) (outcome : Outcome) :
    (service.relog entries).afterRemoval id outcome = (service.afterRemoval id outcome).relog entries := by
  cases outcome <;> rfl

theorem exists_relog_start (operation : Operation) :
    ∃ rest, (service.relog entries).start operation =
      ((service.start operation).1.relog rest, (service.start operation).2) := by
  cases operation with
  | register request =>
    obtain ⟨rest, hbegun⟩ := service.manager.exists_relog_beginRegistration entries request
    exact ⟨rest, congrArg (service.started Remainder.registration) hbegun⟩
  | heartbeat details report issuedAt =>
    obtain ⟨rest, hheard⟩ := service.exists_relog_heartbeat entries details report issuedAt
    exact ⟨rest, congrArg (fun heard ↦ (heard.1, Progress.ended (heard.2.map Reply.commands))) hheard⟩
  | remove id =>
    obtain ⟨rest, hbegun⟩ := service.manager.exists_relog_beginRemoval entries id
    have hstarted : (service.relog entries).started (fun _ ↦ Remainder.removal id)
        ((service.manager.relog entries).beginRemoval id) =
          (((service.started (fun _ ↦ Remainder.removal id) (service.manager.beginRemoval id)).1.relog rest),
            (service.started (fun _ ↦ Remainder.removal id) (service.manager.beginRemoval id)).2) :=
      congrArg (service.started fun _ ↦ Remainder.removal id) hbegun
    have hmanager : (service.relog entries).manager = service.manager.relog entries := rfl
    unfold start
    simp only
    rw [hmanager, hstarted]
    cases service.started (fun _ ↦ Remainder.removal id) (service.manager.beginRemoval id) with
    | mk removed progress =>
      cases progress with
      | ended outcome =>
        refine ⟨rest, ?_⟩
        simp only [relog_afterRemoval]
      | asking table request kept => exact ⟨rest, rfl⟩
  | setState id state expiry =>
    obtain ⟨rest, hbegun⟩ := service.manager.exists_relog_beginStateChange entries id state expiry .nothing
    exact ⟨rest, congrArg (service.started (Remainder.stateChange id)) hbegun⟩
  | reconcile id state expiry =>
    obtain ⟨rest, hbegun⟩ := exists_relog_beginReconcile entries service.manager id state expiry
    exact ⟨rest, congrArg (service.started (Remainder.stateChange id)) hbegun⟩

theorem exists_relog_finish (remainder : Remainder) (answer : TableAnswer) :
    ∃ rest, (service.relog entries).finish remainder answer =
      ((service.finish remainder answer).1.relog rest, (service.finish remainder answer).2) := by
  cases remainder with
  | registration placed =>
    obtain ⟨rest, hfinished⟩ := service.manager.exists_relog_finishRegistration entries placed answer
    exact ⟨rest, congrArg (fun result ↦ (service.withManager result.1, result.2)) hfinished⟩
  | removal id =>
    obtain ⟨rest, hfinished⟩ := service.manager.exists_relog_finishRemoval entries id answer
    let removed := service.manager.finishRemoval id answer
    have hremoved : (service.relog entries).finish (.removal id) answer =
        (((service.withManager removed.1).relog rest).afterRemoval id removed.2, removed.2) :=
      congrArg (fun result ↦ ((service.withManager result.1).afterRemoval id result.2, result.2)) hfinished
    exact ⟨rest, hremoved.trans (Prod.ext (relog_afterRemoval _ rest id _) rfl)⟩
  | stateChange id reply =>
    obtain ⟨rest, hfinished⟩ := service.manager.exists_relog_finishStateChange entries id reply answer
    exact ⟨rest, congrArg (fun result ↦ (service.withManager result.1, result.2)) hfinished⟩

end Service

/-! ## Worlds -/

namespace World

def relog (world : World) (entries : List LogEntry) : World :=
  { world with service := world.service.relog entries }

variable (world : World) (entries : List LogEntry)

theorem exists_relog_ask (number : Nat) (request : TableRequest) :
    ∃ rest, (world.relog entries).ask number request =
      ((world.ask number request).1.relog rest, (world.ask number request).2) := by
  have htables : (world.relog entries).tables = world.tables := rfl
  have hclock : (world.relog entries).clock = world.clock := rfl
  unfold ask
  rw [htables, hclock]
  split
  · exact ⟨entries, rfl⟩
  · next table _ =>
    cases table.perform world.clock request with
    | mk performed answered =>
      obtain ⟨rest, hnoted⟩ :=
        world.manager.exists_relog_noteAll entries (answered.1.map pageNote).toList
      exact ⟨rest, congrArg (fun noted ↦
        (({ world with tables := world.tables.set number performed } : World).withManager noted,
          answered.2)) hnoted⟩

theorem relog_iterate (number : Nat) :
    (world.relog entries).iterate number =
      ((world.iterate number).1.relog entries, (world.iterate number).2) := by
  have htables : (world.relog entries).tables = world.tables := rfl
  unfold iterate
  rw [htables]
  split <;> rfl

theorem exists_relog_start (operation : Operation) :
    ∃ rest, (world.relog entries).start operation =
      ((world.start operation).1.relog rest, (world.start operation).2) := by
  obtain ⟨rest, hstarted⟩ := world.service.exists_relog_start entries operation
  exact ⟨rest, congrArg (fun started ↦ (({ world with service := started.1 } : World), started.2)) hstarted⟩

theorem exists_relog_finish (remainder : Remainder) (answer : TableAnswer) :
    ∃ rest, (world.relog entries).finish remainder answer =
      ((world.finish remainder answer).1.relog rest, (world.finish remainder answer).2) := by
  obtain ⟨rest, hfinished⟩ := world.service.exists_relog_finish entries remainder answer
  exact ⟨rest, congrArg (fun finished ↦ (({ world with service := finished.1 } : World), finished.2))
    hfinished⟩

theorem exists_relog_run (operation : Operation) :
    ∃ rest, (world.relog entries).run operation =
      ((world.run operation).1.relog rest, (world.run operation).2) := by
  obtain ⟨rest, hstarted⟩ := world.exists_relog_start entries operation
  unfold run
  rw [hstarted]
  cases world.start operation with
  | mk started progress =>
    cases progress with
    | ended outcome => exact ⟨rest, rfl⟩
    | asking table request remainder =>
      obtain ⟨last, hasked⟩ := started.exists_relog_ask rest table request
      simp only [hasked]
      exact exists_relog_finish _ last remainder _

theorem exists_relog_prepare (request : OperationRequest) :
    ∃ rest, (world.relog entries).prepare request =
      ((world.prepare request).1.relog rest, (world.prepare request).2) := by
  cases request with
  | register offered nodeReport pipelineReport layout =>
    obtain ⟨rest, hscreened⟩ := world.manager.exists_relog_screen entries offered
    exact ⟨rest, congrArg (fun screened ↦ (world.withManager screened.1, screened.2.map fun details ↦
      Operation.register { details, nodeReport, pipelineReport, layout })) hscreened⟩
  | _ => exact ⟨entries, rfl⟩

theorem exists_relog_serve (request : OperationRequest) :
    ∃ rest, (world.relog entries).serve request =
      ((world.serve request).1.relog rest, (world.serve request).2) := by
  obtain ⟨rest, hprepared⟩ := world.exists_relog_prepare entries request
  unfold serve
  rw [hprepared]
  cases world.prepare request with
  | mk ready prepared =>
    cases prepared with
    | error failure => exact ⟨rest, rfl⟩
    | ok operation => exact ready.exists_relog_run rest operation

theorem exists_relog_loadEntries (bound : Nat) (loading : Loading) :
    ∃ rest, loadEntries bound (world.relog entries) loading =
      ((loadEntries bound world loading).1.relog rest, (loadEntries bound world loading).2) := by
  induction bound generalizing world entries loading with
  | zero => exact ⟨entries, rfl⟩
  | succ bound ih =>
    obtain ⟨rest, hasked⟩ := world.exists_relog_ask entries loading.table (.next loading.iterator)
    unfold loadEntries
    rw [hasked]
    cases world.ask loading.table (.next loading.iterator) with
    | mk asked answer =>
      obtain ⟨more, htaken⟩ := asked.manager.exists_relog_takeEntry rest loading.loaded answer
      have hmanager : (asked.relog rest).manager = asked.manager.relog rest := rfl
      simp only
      rw [hmanager, htaken]
      cases asked.manager.takeEntry loading.loaded answer with
      | mk taken step =>
        cases step with
        | close => exact ⟨more, rfl⟩
        | register entry operation =>
          have hready : (asked.relog rest).withManager (taken.relog more) =
              (asked.withManager taken).relog more := rfl
          obtain ⟨late, hrun⟩ := (asked.withManager taken).exists_relog_run more operation
          simp only
          rw [hready, hrun]
          cases (asked.withManager taken).run operation with
          | mk registered outcome =>
            obtain ⟨last, hended⟩ :=
              registered.manager.exists_relog_takeRegistered late entry loading.loaded outcome
            have hregistered : (registered.relog late).manager = registered.manager.relog late := rfl
            simp only
            rw [hregistered, hended]
            cases registered.manager.takeRegistered entry loading.loaded outcome with
            | mk ended loaded =>
              cases loaded with
              | none => exact ⟨last, rfl⟩
              | some loaded => exact ih (registered.withManager ended) last { loading with loaded }

theorem exists_relog_closeIterator (table iterator : Nat) :
    ∃ rest, (world.relog entries).closeIterator table iterator =
      (world.closeIterator table iterator).relog rest := by
  obtain ⟨rest, hasked⟩ := world.exists_relog_ask entries table (.close iterator)
  unfold closeIterator
  rw [hasked]
  cases world.ask table (.close iterator) with
  | mk asked answer =>
    obtain ⟨last, hclosed⟩ := asked.manager.exists_relog_takeClosed rest answer
    exact ⟨last, congrArg asked.withManager hclosed⟩

theorem exists_relog_load :
    ∃ rest, (world.relog entries).load = (world.load.1.relog rest, world.load.2) := by
  have htable : (world.relog entries).manager.table = world.manager.table := rfl
  unfold load
  rw [htable]
  split
  · exact ⟨entries, rfl⟩
  · next table _ =>
    rw [relog_iterate]
    cases world.iterate table with
    | mk opened iterated =>
      cases iterated with
      | error failure => exact ⟨entries, rfl⟩
      | ok iterator =>
        have hleft : (opened.relog entries).entriesLeft table iterator = opened.entriesLeft table iterator := rfl
        obtain ⟨rest, hended⟩ := opened.exists_relog_loadEntries entries
          (opened.entriesLeft table iterator + 1) ⟨table, iterator, 0⟩
        simp only
        rw [hleft, hended]
        obtain ⟨last, hclosed⟩ := exists_relog_closeIterator _ rest table iterator
        exact ⟨last, Prod.ext hclosed rfl⟩

theorem exists_relog_call (call : Call) :
    ∃ rest, (world.relog entries).call call = ((world.call call).1.relog rest, (world.call call).2) := by
  cases call with
  | operate request => exact world.exists_relog_serve entries request
  | queue id command =>
    have hmanager : (world.relog entries).manager = world.manager.relog entries := rfl
    unfold World.call
    simp only
    rw [hmanager, Manager.relog_addCommand]
    cases world.manager.addCommand id command <;> exact ⟨entries, rfl⟩
  | take id command =>
    obtain ⟨rest, htaken⟩ := world.service.exists_relog_onCommand entries id command
    exact ⟨rest, congrArg (fun taken ↦ (({ world with service := taken } : World), Except.ok Reply.nothing))
      htaken⟩
  | purge id => exact ⟨entries, rfl⟩
  | refreshUsage =>
    obtain ⟨rest, hasked⟩ := world.service.exists_relog_refreshUsage entries
    exact ⟨rest, congrArg (fun asked ↦
      (({ world with service := asked.1 } : World), Except.ok (Reply.count asked.2))) hasked⟩
  | sweep moment =>
    obtain ⟨rest, hswept⟩ := world.manager.exists_relog_checkHeartbeats entries (moment.getD world.clock)
    exact ⟨rest, congrArg (fun swept ↦
      (world.withManager swept.1, Except.ok (Reply.value swept.2.toValue))) hswept⟩
  | load => exact world.exists_relog_load entries
  | switch table => exact exists_relog_load (world.switchTable table) _

theorem exists_relog_move (move : Move) :
    ∃ rest, (world.relog entries).move move = (world.move move).relog rest := by
  cases move with
  | call call =>
    obtain ⟨rest, hcalled⟩ := world.exists_relog_call entries call
    exact ⟨rest, congrArg Prod.fst hcalled⟩
  | _ => exact ⟨entries, rfl⟩

/-- Two worlds that are the same but for the log entries of their services. -/
def SameButLog (world other : World) : Prop := ∃ entries, other = world.relog entries

namespace SameButLog

variable {world middle other : World}

protected theorem refl (world : World) : world.SameButLog world :=
  ⟨world.manager.trace.entries, rfl⟩

protected theorem trans (hfirst : world.SameButLog middle) (hsecond : middle.SameButLog other) :
    world.SameButLog other := by
  obtain ⟨entries, rfl⟩ := hfirst
  obtain ⟨rest, rfl⟩ := hsecond
  exact ⟨rest, rfl⟩

/-- Every move keeps two worlds the same but for their logs. -/
theorem move (h : world.SameButLog other) (move : Move) : (world.move move).SameButLog (other.move move) := by
  obtain ⟨entries, rfl⟩ := h
  exact world.exists_relog_move entries move

end SameButLog

end World

end ClusterMembership
