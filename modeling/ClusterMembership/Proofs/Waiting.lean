import ClusterMembership.Proofs.Operations

/-!
# What waits for a datanode

A command is queued at the end of what waits for its datanode, and what waits is taken as a whole or not at all.
Most operations do neither; `Manager.Quiet` says so of two states of a manager.  Each of the others is described
by what waits afterwards: what waited before, followed by the commands that were queued, or nothing.
-/

namespace ClusterMembership

def Command.addressed (target id : String) (commands : List Command) : List Command :=
  if target = id then commands else []

@[simp]
theorem Command.addressed_nil (target id : String) : addressed target id [] = [] := ite_self []

@[simp]
theorem Command.addressed_self (id : String) (commands : List Command) :
    addressed id id commands = commands := if_pos rfl

theorem Command.addressed_of_ne {target id : String} (h : target ≠ id) (commands : List Command) :
    addressed target id commands = [] := if_neg h

theorem Command.addressed_append (target id : String) (first second : List Command) :
    addressed target id (first ++ second) = addressed target id first ++ addressed target id second := by
  unfold addressed
  split <;> rfl

namespace Layout

/-- A datanode that was loaded from storage is never due to finalize. -/
@[simp]
theorem commandFor_pinned (layout : Layout) (now : Instant) : layout.commandFor layout.pinned now = none := by
  have hless (number : Number) : number.less number = false := by
    cases number <;> simp [Number.less]
  have hbehind : (layout.isFinalized && layout.software.less layout.metadata) = false := by
    cases hfinalized : layout.isFinalized with
    | false => rfl
    | true =>
      have hsame : layout.metadata = layout.software := by
        unfold isFinalized Number.equal at hfinalized
        split at hfinalized
        · simp at hfinalized
        · exact of_decide_eq_true hfinalized
      rw [hsame, hless]
      rfl
  unfold commandFor sendsFinalize check pinned
  simp [hless, hbehind]

end Layout

namespace Manager

def waiting (manager : Manager) (id : String) : List Command :=
  (manager.commands.peek id).map QueuedCommand.command

/-- Two states of a manager between which no command was queued and none was taken. -/
structure Quiet (before after : Manager) : Prop where
  waiting : ∀ id, after.waiting id = before.waiting id
  settings : after.settings = before.settings

namespace Quiet

variable {before middle after : Manager}

protected theorem refl (manager : Manager) : manager.Quiet manager := ⟨fun _ ↦ rfl, rfl⟩

protected theorem trans (hfirst : before.Quiet middle) (hsecond : middle.Quiet after) :
    before.Quiet after :=
  ⟨fun id ↦ (hsecond.waiting id).trans (hfirst.waiting id), hsecond.settings.trans hfirst.settings⟩

theorem of_commands (hcommands : after.commands = before.commands)
    (hsettings : after.settings = before.settings) : before.Quiet after := by
  refine ⟨fun id ↦ ?_, hsettings⟩
  unfold Manager.waiting
  rw [hcommands]

theorem layout (h : before.Quiet after) : after.layout = before.layout :=
  congrArg Settings.layout h.settings

end Quiet

theorem Alike.quiet {before after : Manager} (h : before.Alike after) : before.Quiet after :=
  .of_commands h.commands h.settings

variable (manager : Manager)

/-! ## Queues -/

theorem waiting_add (added id : String) (command : Command) (now : Instant) :
    ({ manager with commands := manager.commands.add added command now } : Manager).waiting id =
      manager.waiting id ++ Command.addressed added id [command] := by
  unfold waiting Command.addressed
  rw [CommandQueue.peek_add]
  split <;> simp

theorem waiting_purgeCommands (purged id : String) :
    (manager.purgeCommands purged).1.waiting id = if purged = id then [] else manager.waiting id := by
  unfold waiting purgeCommands
  rw [CommandQueue.peek_purge]
  split <;> rfl

theorem waiting_drainCommands (drained id : String) :
    (manager.drainCommands drained).1.waiting id = if drained = id then [] else manager.waiting id := by
  unfold waiting drainCommands
  rw [CommandQueue.peek_drain]
  split <;> rfl

theorem waiting_forget (forgotten id : String) :
    (manager.forget forgotten).waiting id = if forgotten = id then [] else manager.waiting id :=
  manager.waiting_purgeCommands forgotten id

theorem waiting_onCommand (target id : String) (command : Command) :
    (manager.onCommand target command).waiting id = manager.waiting id ++
      if manager.registry.contains target = true then Command.addressed target id [command] else [] := by
  unfold onCommand
  split
  · exact manager.waiting_add target id command manager.clock
  · rw [List.append_nil]
    exact (manager.alike_note _).quiet.waiting id

/-! ## Registrations -/

variable {manager} in
theorem quiet_of_noteUsage {id : String} {report : Option NodeReport} {now : Instant} {after : Manager}
    (h : manager.noteUsage id report now = .ok after) : manager.Quiet after := by
  obtain rfl | ⟨usage, rfl⟩ := noteUsage_cases h
  · exact .refl after
  · exact ⟨fun _ ↦ rfl, rfl⟩

/-- The command to finalize goes to the datanode whose layout is behind. -/
theorem waiting_queueFinalize (target id : String) (details : Details) (reported : LayoutReport)
    (now : Instant) :
    (manager.queueFinalize target details reported now).waiting id = manager.waiting id ++
      Command.addressed target id (manager.layout.commandFor reported now).toList := by
  have hnoted := (manager.alike_noteAll (manager.layout.checkNotes details reported)).quiet
  unfold queueFinalize
  simp only [hnoted.layout]
  cases manager.layout.commandFor reported now with
  | none =>
    rw [Option.toList_none, Command.addressed_nil, List.append_nil]
    exact hnoted.waiting id
  | some command =>
    refine (waiting_add _ target id command now).trans ?_
    rw [hnoted.waiting, Option.toList_some]

theorem quiet_settleWrite (id : String) (answer : TableAnswer) :
    manager.Quiet (manager.settleWrite id answer).1 := by
  unfold settleWrite
  split
  · exact ⟨fun _ ↦ rfl, rfl⟩
  · simp only
    split
    · exact (manager.alike_note _).quiet
    · unfold markUnsynced
      split <;> exact ⟨fun _ ↦ rfl, rfl⟩

theorem quiet_undoPlacement (placed : PlacedRegistration) : manager.Quiet (manager.undoPlacement placed) := by
  unfold undoPlacement
  simp only
  split
  · exact ⟨fun _ ↦ rfl, rfl⟩
  · split <;> exact ⟨fun _ ↦ rfl, rfl⟩

variable {manager} in
theorem quiet_of_placing {request : RegistrationRequest} {inPlace : Manager} {refusal : Option Refusal}
    (h : manager.placing request = (inPlace, refusal)) : manager.Quiet inPlace := by
  let recorded : Manager := { manager with known := manager.known.record request.details }
  have hinPlace : (recorded.place request.details (request.layout.getD manager.layout.report)
      manager.clock).1 = inPlace := congrArg Prod.fst h
  have hrest : recorded.SameRest inPlace :=
    hinPlace ▸ recorded.sameRest_place request.details _ manager.clock
  exact .of_commands hrest.commands hrest.settings

/-- The commands that a registration queues for a datanode: one that is acknowledged brings the command to
finalize when it is due, and any other brings none. -/
def queuedByRegistration (layout : Option LayoutReport) (outcome : Outcome) (id : String) : List Command :=
  match outcome with
  | .ok (.acknowledged acknowledgement) =>
    if acknowledgement.permitted = true then
      Command.addressed acknowledgement.datanode.id id
        (manager.layout.commandFor (layout.getD manager.layout.report) manager.clock).toList
    else []
  | _ => []

/-- A registration that is completed on a manager with the same queues and settings. -/
theorem waiting_completeRegistration {manager inPlace written : Manager} {request : RegistrationRequest}
    (hquiet : manager.Quiet written) (id : String) :
    (written.completeRegistration (manager.placedBy inPlace request)).1.waiting id =
      manager.waiting id ++ manager.queuedByRegistration request.layout
        ((written.completeRegistration (manager.placedBy inPlace request)).2.map Reply.acknowledged) id := by
  unfold completeRegistration
  simp only
  split
  · rw [hquiet.waiting]
    exact (List.append_nil _).symm
  · next stocked hstocked =>
    have hstock := hquiet.trans (quiet_of_noteUsage hstocked)
    refine (((alike_withCluster _ _).trans (alike_announce _ _)).quiet.waiting id).trans ?_
    rw [waiting_queueFinalize, hstock.waiting, hstock.layout]
    rfl

theorem waiting_finishRegistration {manager inPlace asked : Manager} {request : RegistrationRequest}
    (hquiet : manager.Quiet asked) (answer : TableAnswer) (id : String) :
    (asked.finishRegistration (manager.placedBy inPlace request) answer).1.waiting id =
      manager.waiting id ++ manager.queuedByRegistration request.layout
        (asked.finishRegistration (manager.placedBy inPlace request) answer).2 id := by
  have hsettled := hquiet.trans (asked.quiet_settleWrite request.details.id answer)
  have hid : (manager.placedBy inPlace request).request.details.id = request.details.id := rfl
  unfold finishRegistration
  rw [hid]
  split
  · next written hwritten =>
    rw [hwritten] at hsettled
    exact waiting_completeRegistration hsettled id
  · next failed failure hfailed =>
    rw [hfailed] at hsettled
    have hundone := hsettled.trans (failed.quiet_undoPlacement (manager.placedBy inPlace request))
    exact (hundone.waiting id).trans (List.append_nil _).symm

theorem queuedByRegistration_pinned (outcome : Outcome) (id : String) :
    manager.queuedByRegistration (some manager.layout.pinned) outcome id = [] := by
  unfold queuedByRegistration
  split
  · simp
  · rfl

/-! ## Heartbeats -/

theorem quiet_hear (id : String) (previous : Health) (layout : Option LayoutReport) (now : Instant) :
    manager.Quiet (manager.hear id previous layout now) := by
  unfold hear
  simp only
  split <;> exact ⟨fun _ ↦ rfl, rfl⟩

theorem quiet_noteHeld (id : String) (counts : Option HeldCounts) :
    manager.Quiet (manager.noteHeld id counts) := by
  unfold noteHeld
  split <;> exact ⟨fun _ ↦ rfl, rfl⟩

/-- The command that corrects the operational state that a datanode reports, where the registry's counts. -/
def correction (details : Details) (now : Instant) : List Command :=
  match manager.registry.get? details.id with
  | some record =>
    if manager.authority = .enforce ∧ reportsStatus details record.status = false then
      [stateCommand record.status now]
    else []
  | none => []

/-- The commands that a heartbeat of a registered datanode queues before all that waits is taken. -/
def queuedByHeartbeat (details : Details) (report : HeartbeatReport) (now : Instant) : List Command :=
  (report.layout.bind fun reported ↦ manager.layout.commandFor reported now).toList ++
    manager.correction details now

variable {manager} in
theorem correction_congr {after : Manager} {details : Details}
    (hstanding : after.standing details.id = manager.standing details.id)
    (hsettings : after.settings = manager.settings) (now : Instant) :
    after.correction details now = manager.correction details now := by
  have hauthority : after.authority = manager.authority := congrArg Settings.authority hsettings
  unfold standing at hstanding
  unfold correction
  rw [hauthority]
  cases hrecord : manager.registry.get? details.id with
  | none =>
    rw [hrecord, Option.map_none, Option.map_eq_none_iff] at hstanding
    rw [hstanding]
  | some record =>
    rw [hrecord, Option.map_some, Option.map_eq_some_iff] at hstanding
    obtain ⟨other, hother, hsame⟩ := hstanding
    have hoperational : other.status.operational = record.status.operational :=
      congrArg Standing.operational hsame
    have hexpiry : other.status.expiry = record.status.expiry := congrArg Standing.expiry hsame
    rw [hother]
    unfold reportsStatus stateCommand
    simp only [hoperational, hexpiry]

theorem waiting_settleState (details : Details) (now : Instant) (id : String) :
    (manager.settleState details now).waiting id =
      manager.waiting id ++ Command.addressed details.id id (manager.correction details now) := by
  cases hrecord : manager.registry.get? details.id with
  | none => simp [settleState, correction, hrecord]
  | some record =>
    cases hreports : reportsStatus details record.status with
    | true => simp [settleState, correction, hrecord, hreports]
    | false =>
      cases hauthority : manager.authority with
      | followReported =>
        have hcorrection : manager.correction details now = [] := by
          simp [correction, hrecord, hauthority]
        have hquiet : manager.Quiet (manager.settleState details now) := by
          simp only [settleState, hrecord, hreports, Bool.false_eq_true, if_false, hauthority]
          exact ⟨fun _ ↦ rfl, rfl⟩
        rw [hcorrection, Command.addressed_nil, List.append_nil]
        exact hquiet.waiting id
      | enforce =>
        have hcorrection : manager.correction details now = [stateCommand record.status now] := by
          simp [correction, hrecord, hauthority, hreports]
        simp only [settleState, hrecord, hreports, Bool.false_eq_true, if_false, hauthority]
        rw [hcorrection]
        exact waiting_add _ details.id id (stateCommand record.status now) now

/-- The reports of a heartbeat queue at most the command to finalize. -/
theorem waiting_of_takeReports {target : String} {details : Details} {report : HeartbeatReport}
    {now : Instant} {after : Manager} (h : manager.takeReports target details report now = .ok after)
    (id : String) :
    after.waiting id = manager.waiting id ++ Command.addressed target id
      (report.layout.bind fun reported ↦ manager.layout.commandFor reported now).toList := by
  obtain ⟨stocked, queued, hstocked, hqueued, rfl⟩ := takeReports_cases h
  have hstock := quiet_of_noteUsage hstocked
  have hheld := (queued.quiet_noteHeld target report.heldCounts).waiting id
  obtain ⟨hlayout, rfl⟩ | ⟨reported, hlayout, rfl⟩ := hqueued
  · rw [hheld, hstock.waiting, hlayout]
    simp
  · calc
      _ = (stocked.queueFinalize target details reported now).waiting id := hheld
      _ = stocked.waiting id ++ Command.addressed target id (stocked.layout.commandFor reported now).toList :=
        stocked.waiting_queueFinalize target id details reported now
      _ = _ := by rw [hstock.waiting, hstock.layout, hlayout, Option.bind_some]

/-- A heartbeat of a registered datanode carries away what waited and what it has queued itself, in that order,
unless its reports cannot be read. -/
theorem heartbeat_cases (hkeyed : manager.Keyed) (details : Details) (report : HeartbeatReport)
    (now : Instant) (hregistered : manager.registry.contains details.id = true) :
    ((∃ failure, (manager.heartbeat details report now).2 = .error failure) ∧
        manager.Quiet (manager.heartbeat details report now).1) ∨
      (manager.heartbeat details report now).2 =
          .ok (manager.waiting details.id ++ manager.queuedByHeartbeat details report now) ∧
        ∀ id, (manager.heartbeat details report now).1.waiting id =
          if details.id = id then [] else manager.waiting id := by
  obtain ⟨record, hrecord⟩ := (Registry.contains_iff _ _).mp hregistered
  have hheard := manager.quiet_hear details.id record.status.health report.layout now
  unfold heartbeat
  simp only [hrecord]
  split
  · next failure _ => exact .inl ⟨⟨failure, rfl⟩, hheard⟩
  · next reported hreported =>
    have htended := tended_hear_takeReports hkeyed hregistered hreported
    have hcorrection := correction_congr (htended.standing details.id) htended.settings now
    have hsettled (id : String) : (reported.settleState details now).waiting id =
        manager.waiting id ++
          Command.addressed details.id id (manager.queuedByHeartbeat details report now) := by
      have hreports := waiting_of_takeReports _ hreported id
      rw [waiting_settleState, hreports, hheard.waiting, hheard.layout, hcorrection, List.append_assoc,
        ← Command.addressed_append]
      rfl
    refine .inr ⟨?_, fun id ↦ ?_⟩
    · have htaken := hsettled details.id
      rw [Command.addressed_self] at htaken
      exact congrArg Except.ok htaken
    · rw [waiting_drainCommands, hsettled]
      split
      · rfl
      · next hother => rw [Command.addressed_of_ne hother, List.append_nil]

/-! ## Requests to refresh -/

variable {manager} in
theorem map_id_values (hkeyed : manager.Keyed) :
    manager.registry.records.values.map NodeRecord.id = manager.registry.records.keys := by
  unfold OrderedMap.values OrderedMap.keys
  rw [List.map_map]
  apply List.map_congr_left
  intro entry hentry
  exact hkeyed ((OrderedMap.get?_eq_some_iff manager.registry.records entry.1 entry.2).mpr hentry)

variable {manager} in
theorem nodup_healthyInService (hkeyed : manager.Keyed) : manager.healthyInService.Nodup := by
  have hkeys := map_id_values hkeyed
  have hsublist : (manager.healthyInService).Sublist manager.registry.records.keys :=
    hkeys ▸ (List.filter_sublist (p := _)).map NodeRecord.id
  exact hsublist.nodup manager.registry.records.nodup_keys

/-- A command that is queued for datanodes, each named once, reaches each of them once. -/
theorem peek_foldl_add {targets : List String} (hdistinct : targets.Nodup) (queue : CommandQueue)
    (command : Command) (now : Instant) (id : String) :
    ((targets.foldl (fun queue target ↦ queue.add target command now) queue).peek id).map
        QueuedCommand.command =
      (queue.peek id).map QueuedCommand.command ++ if id ∈ targets then [command] else [] := by
  induction targets generalizing queue with
  | nil => simp
  | cons target rest ih =>
    rw [List.nodup_cons] at hdistinct
    rw [List.foldl_cons, ih hdistinct.2, CommandQueue.peek_add]
    by_cases hsame : target = id
    · have hrest : id ∉ rest := hsame ▸ hdistinct.1
      simp [hsame, hrest]
    · simp [hsame, Ne.symm hsame]

/-- The request to refresh reaches every healthy datanode in service once. -/
theorem waiting_refreshUsage (hkeyed : manager.Keyed) (id : String) :
    manager.refreshUsage.1.waiting id = manager.waiting id ++
      if id ∈ manager.healthyInService then [Command.issue .refreshUsage (.object []) manager.clock]
      else [] :=
  peek_foldl_add (nodup_healthyInService hkeyed) manager.commands _ manager.clock id

/-! ## Sweeps -/

def health? (manager : Manager) (id : String) : Option Health :=
  (manager.registry.get? id).map fun record ↦ record.status.health

/-- What waits for a datanode is left, or the datanode died and nothing waits any more. -/
def Swept (before after : Manager) (id : String) : Prop :=
  after.waiting id = before.waiting id ∨
    after.waiting id = [] ∧ before.health? id ≠ some .dead ∧ after.health? id = some .dead

section Sweeps

variable {state : Manager × SweepResult} (hkeyed : state.1.Keyed) (now : Instant)

include hkeyed

theorem get?_classified (health : Health) (classified id : String) :
    (state.1.registry.amend classified (Registry.classified health now)).get? id =
      if classified = id then (state.1.registry.get? classified).map (Registry.classified health now)
      else state.1.registry.get? id := by
  apply Registry.get?_amend
  intro record hrecord
  rw [← hkeyed hrecord]
  unfold Registry.classified
  split <;> rfl

/-- Looking at a datanode leaves every other as it is. -/
theorem sweepOne_of_ne {record : NodeRecord} {id : String} (hother : record.id ≠ id) :
    (sweepOne now state record).1.waiting id = state.1.waiting id ∧
      (sweepOne now state record).1.registry.get? id = state.1.registry.get? id := by
  have hclassified (health : Health) := get?_classified hkeyed now health record.id id
  simp only [if_neg hother] at hclassified
  unfold sweepOne
  simp only
  split
  · exact ⟨rfl, rfl⟩
  · split
    · refine ⟨?_, hclassified _⟩
      exact (waiting_purgeCommands _ record.id id).trans (if_neg hother)
    · exact ⟨rfl, hclassified _⟩

theorem sweepOne_self {record : NodeRecord} (hrecord : state.1.registry.get? record.id = some record) :
    Swept state.1 (sweepOne now state record).1 record.id := by
  have hhealth : state.1.health? record.id = some record.status.health := by
    rw [health?, hrecord, Option.map_some]
  have hclassified := get?_classified hkeyed now .dead record.id record.id
  rw [if_pos rfl, hrecord, Option.map_some] at hclassified
  unfold sweepOne
  simp only
  split
  · exact .inl rfl
  · next hchanged =>
    split
    · next hdead =>
      rw [hdead] at hchanged ⊢
      have halive : record.status.health ≠ .dead := fun hsame ↦ hchanged (.inr hsame.symm)
      refine .inr ⟨(waiting_purgeCommands _ record.id record.id).trans (if_pos rfl), ?_, ?_⟩
      · rw [hhealth]
        exact fun hsame ↦ halive (Option.some.inj hsame)
      · have hdied : (Registry.classified .dead now record).status.health = .dead := by
          rw [Registry.classified, if_neg halive]
        exact (congrArg (Option.map fun record ↦ record.status.health) hclassified).trans
          (congrArg some hdied)
    · exact .inl rfl

theorem foldl_sweepOne_of_not_mem {records : List NodeRecord} {id : String}
    (habsent : id ∉ records.map NodeRecord.id) :
    (records.foldl (sweepOne now) state).1.waiting id = state.1.waiting id ∧
      (records.foldl (sweepOne now) state).1.registry.get? id = state.1.registry.get? id := by
  induction records generalizing state with
  | nil => exact ⟨rfl, rfl⟩
  | cons record rest ih =>
    rw [List.map_cons, List.mem_cons, not_or] at habsent
    obtain ⟨hwaiting, hget⟩ := sweepOne_of_ne hkeyed now (Ne.symm habsent.1)
    have hswept := ih ((tended_sweepOne state hkeyed now record).keyed hkeyed) habsent.2
    exact ⟨hswept.1.trans hwaiting, hswept.2.trans hget⟩

theorem swept_foldl_sweepOne {records : List NodeRecord} (hdistinct : (records.map NodeRecord.id).Nodup)
    (hpresent : ∀ record ∈ records, state.1.registry.get? record.id = some record) (id : String) :
    Swept state.1 (records.foldl (sweepOne now) state).1 id := by
  induction records generalizing state with
  | nil => exact .inl rfl
  | cons record rest ih =>
    rw [List.map_cons, List.nodup_cons] at hdistinct
    have hrecord := hpresent record List.mem_cons_self
    have hstill : (sweepOne now state record).1.Keyed :=
      (tended_sweepOne state hkeyed now record).keyed hkeyed
    by_cases hsame : record.id = id
    · -- The rest of the sweep leaves this datanode as it is.
      obtain ⟨hwaiting, hget⟩ := foldl_sweepOne_of_not_mem hstill now (hsame ▸ hdistinct.1)
      have hhealth : (rest.foldl (sweepOne now) (sweepOne now state record)).1.health? id =
          (sweepOne now state record).1.health? id := by
        rw [health?, hget, health?]
      have hself := sweepOne_self hkeyed now hrecord
      rw [hsame] at hself
      rw [List.foldl_cons, Swept, hwaiting, hhealth]
      exact hself
    · obtain ⟨hwaiting, hget⟩ := sweepOne_of_ne hkeyed now hsame
      have hhealth : (sweepOne now state record).1.health? id = state.1.health? id := by
        rw [health?, hget, health?]
      have hrest : Swept (sweepOne now state record).1
          (rest.foldl (sweepOne now) (sweepOne now state record)).1 id := by
        apply ih hstill hdistinct.2
        intro other hother
        have hdifferent : record.id ≠ other.id := by
          intro hother'
          exact hdistinct.1 (hother' ▸ List.mem_map_of_mem hother)
        exact (sweepOne_of_ne hkeyed now hdifferent).2.trans
          (hpresent other (List.mem_cons_of_mem record hother))
      rw [Swept, hwaiting, hhealth] at hrest
      exact hrest

end Sweeps

/-- A sweep drops what waits for the datanodes that it declares dead, and nothing else. -/
theorem swept_checkHeartbeats (hkeyed : manager.Keyed) (now : Instant) (id : String) :
    Swept manager (manager.checkHeartbeats now).1 id := by
  have hswept : Swept manager (manager.sweep now).1 id := by
    let start : Manager × SweepResult := (manager, {})
    have hstart : start.1.Keyed := hkeyed
    apply swept_foldl_sweepOne hstart now
    · rw [map_id_values hkeyed]
      exact manager.registry.records.nodup_keys
    · intro record hrecord
      obtain ⟨key, hkey⟩ := (OrderedMap.mem_values_iff _ _).mp hrecord
      rw [hkeyed hkey]
      exact hkey
  unfold checkHeartbeats
  simp only
  split
  · exact hswept
  · exact hswept

end Manager

/-! ## Operations and loads -/

namespace World

theorem waiting_run_register (world : World) (request : RegistrationRequest) (id : String) :
    (world.run (.register request)).1.manager.waiting id = world.manager.waiting id ++
      world.manager.queuedByRegistration request.layout (world.run (.register request)).2 id := by
  cases hplacing : world.manager.placing request with
  | mk inPlace refusal =>
    have hplaced := Manager.quiet_of_placing hplacing
    cases refusal with
    | some refusal =>
      rw [run_register_refused hplacing]
      have hrefused := hplaced.trans (Manager.alike_refuse inPlace request.details refusal).quiet
      exact (hrefused.waiting id).trans (List.append_nil _).symm
    | none =>
      cases hwrite : (if request.persist then inPlace.table else none) with
      | none =>
        rw [run_register_unwritten hplacing hwrite]
        exact Manager.waiting_completeRegistration hplaced id
      | some table =>
        cases hask : world.askedToPut inPlace table request with
        | mk asked answer =>
          have halike := world.alike_askedToPut inPlace table request
          rw [hask] at halike
          rw [run_register_written hplacing hwrite hask]
          exact Manager.waiting_finishRegistration (hplaced.trans halike.quiet) answer id

/-- A removal that succeeds drops what waits for the datanode, and one that fails leaves it. -/
theorem waiting_run_remove (world : World) (removed : String) :
    (∃ reply, (world.run (.remove removed)).2 = .ok reply) ∧
        (∀ id, (world.run (.remove removed)).1.manager.waiting id =
          if removed = id then [] else world.manager.waiting id) ∨
      (∃ failure, (world.run (.remove removed)).2 = .error failure) ∧
        ∀ id, (world.run (.remove removed)).1.manager.waiting id = world.manager.waiting id := by
  obtain ⟨failure, hfailed, hlogged⟩ | ⟨asked, hlogged, hended, hforgotten⟩ := world.run_remove_cases removed
  · exact .inr ⟨⟨failure, hfailed⟩, hlogged.alike.quiet.waiting⟩
  · refine .inl ⟨⟨_, hended⟩, fun id ↦ ?_⟩
    rw [hforgotten, ← hlogged.alike.quiet.waiting]
    exact asked.waiting_forget removed id

theorem waiting_runStateChange (world : World) (changed : String) (state expiry : Field) (reply : Reply)
    (id : String) :
    (world.runStateChange changed
      (world.manager.beginStateChange changed state expiry reply)).1.manager.waiting id =
        world.manager.waiting id := by
  cases hrecord : world.manager.registry.get? changed with
  | none =>
    rw [Manager.beginStateChange_of_absent ((Registry.contains_eq_false_iff _ _).mpr hrecord)]
    rfl
  | some record =>
    obtain ⟨note, hbegin⟩ := Manager.exists_beginStateChange_eq hrecord state expiry reply
    rw [hbegin]
    unfold runStateChange
    cases htable : world.manager.table with
    | none => rfl
    | some table =>
      let restated := (world.manager.restate changed state (Registry.expiryOrNever expiry)
        world.manager.clock).note note
      have hrestated : world.manager.Quiet restated := ⟨fun _ ↦ rfl, rfl⟩
      let request : TableRequest :=
        .put changed (record.details.withOperational state (Registry.expiryOrNever expiry))
      have hasked := hrestated.trans ((world.withManager restated).alike_ask table request).quiet
      exact (hasked.trans (Manager.quiet_settleWrite _ changed _)).waiting id

theorem waiting_run_reconcile (world : World) (changed : String) (state expiry : Field) (id : String) :
    (world.run (.reconcile changed state expiry)).1.manager.waiting id = world.manager.waiting id := by
  rw [run_reconcile]
  rcases world.manager.beginReconcile_cases changed state expiry with
    ⟨outcome, -, hbegin⟩ | ⟨noted, hlogged, hbegin⟩
  · rw [hbegin]
    rfl
  · rw [hbegin]
    exact ((world.withManager noted).waiting_runStateChange changed state expiry _ id).trans
      (hlogged.alike.quiet.waiting id)

/-- A load queues nothing and drops nothing. -/
theorem waiting_load (world : World) (id : String) :
    world.load.1.manager.waiting id = world.manager.waiting id := by
  apply load_induction (P := fun reached ↦ reached.manager.waiting id = world.manager.waiting id) _ _ _ _ rfl
  · intro reached number request hreached
    exact ((reached.alike_ask number request).quiet.waiting id).trans hreached
  · intro reached after hreached hnoted
    exact (hnoted.alike.quiet.waiting id).trans hreached
  · intro reached field details hreached hscreen
    rw [waiting_run_register, hreached]
    unfold Manager.storedRegistration
    rw [Manager.queuedByRegistration_pinned, List.append_nil]
  · intro reached number hreached
    rwa [manager_iterate]

end World

end ClusterMembership
