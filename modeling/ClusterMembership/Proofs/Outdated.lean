import ClusterMembership.Proofs.Frame
import Mathlib.Data.List.Induction

/-!
# Outdated heartbeats

An observer remembers when it last saw each datanode, and nothing but heartbeats and removals that succeed changes
that.  So what it holds is the time of the latest heartbeat since the start or since the last removal, and that
decides on the next heartbeat: after too long a silence the datanode is told to register again, and otherwise the
heartbeat is passed on to the manager.
-/

namespace ClusterMembership

namespace HeartbeatTracker

@[simp]
theorem get?_seen_empty (id : String) : empty.seen.get? id = none := rfl

theorem get?_seen_record (tracker : HeartbeatTracker) (recorded id : String) (now : Instant) :
    (tracker.record recorded now).seen.get? id = if recorded = id then some now else tracker.seen.get? id :=
  OrderedMap.get?_insert tracker.seen recorded id now

theorem get?_seen_erase (tracker : HeartbeatTracker) (erased id : String) :
    (tracker.erase erased).seen.get? id = if erased = id then none else tracker.seen.get? id :=
  OrderedMap.get?_erase tracker.seen erased id

theorem get_of_seen {tracker : HeartbeatTracker} {id : String} {time : Instant}
    (h : tracker.seen.get? id = some time) : tracker.get id = time := by
  rw [get, h, Option.getD_some]

/-- A datanode that was never seen counts as seen at the start of 1970. -/
theorem get_of_unseen {tracker : HeartbeatTracker} {id : String} (h : tracker.seen.get? id = none) :
    tracker.get id = 0 := by
  rw [get, h, Option.getD_none]

end HeartbeatTracker

/-- A heartbeat of a datanode, whatever comes of it. -/
def Move.Beats (move : Move) (id : String) : Prop :=
  match move with
  | .call (.operate (.heartbeat offered _)) => ∃ details, Details.ofField offered = .ok details ∧ details.id = id
  | _ => False

namespace World

/-- A removal of a datanode that succeeds. -/
def Forgets (world : World) (move : Move) (id : String) : Prop :=
  move = .call (.operate (.remove id)) ∧ ∃ reply, (world.serve (.remove id)).2 = .ok reply

/-- The latest heartbeat of a datanode, since the start or since its last removal that succeeded, was at a time. -/
def LastBeatAt (world : World) (id : String) (time : Instant) (moves : List Move) : Prop :=
  Since (fun past move ↦ move.Beats id ∧ (world.after past).clock = time)
    (fun past move ↦ move.Beats id ∨ (world.after past).Forgets move id) moves

variable {world : World}

/-! ## What an observer has seen after a run -/

/-- What is seen after a move, in terms of what was seen before it. -/
def Sees (world : World) (move : Move) (before after : HeartbeatTracker) : Prop :=
  ∀ id time, after.seen.get? id = some time ↔
    move.Beats id ∧ world.clock = time ∨
      before.seen.get? id = some time ∧ ¬ (move.Beats id ∨ world.Forgets move id)

theorem sees_idle {move : Move} (hbeats : ∀ id, ¬ move.Beats id) (hforgets : ∀ id, ¬ world.Forgets move id)
    (tracker : HeartbeatTracker) : world.Sees move tracker tracker := by
  intro id time
  simp [hbeats id, hforgets id]

theorem sees_heartbeat {offered : Field} {details : Details} (hdetails : Details.ofField offered = .ok details)
    (report : HeartbeatReport) (tracker : HeartbeatTracker) :
    world.Sees (.call (.operate (.heartbeat offered report))) tracker (tracker.record details.id world.clock) := by
  intro id time
  have hbeats : (Move.call (.operate (.heartbeat offered report))).Beats id ↔ details.id = id := by
    constructor
    · rintro ⟨other, hother, hid⟩
      rw [hdetails] at hother
      exact Except.ok.inj hother ▸ hid
    · exact fun hid ↦ ⟨details, hdetails, hid⟩
  have hforgets : ¬ world.Forgets (.call (.operate (.heartbeat offered report))) id := by
    rintro ⟨hmove, -⟩
    cases hmove
  rw [HeartbeatTracker.get?_seen_record, hbeats]
  by_cases hid : details.id = id <;> simp [hid, hforgets]

theorem sees_removal {removed : String} {reply : Reply} (hended : (world.serve (.remove removed)).2 = .ok reply)
    (tracker : HeartbeatTracker) :
    world.Sees (.call (.operate (.remove removed))) tracker (tracker.erase removed) := by
  intro id time
  have hbeats : ¬ (Move.call (.operate (.remove removed))).Beats id := fun h ↦ h
  have hforgets : world.Forgets (.call (.operate (.remove removed))) id ↔ removed = id := by
    constructor
    · rintro ⟨hmove, -⟩
      simpa using hmove
    · rintro rfl
      exact ⟨rfl, reply, hended⟩
  rw [HeartbeatTracker.get?_seen_erase, hforgets, iff_false_intro hbeats]
  by_cases hid : removed = id <;> simp [hid]

/-- A heartbeat is seen at its time, a removal that succeeds is seen too, and nothing else is. -/
theorem exists_sees_move {observer : Observer} (hobserver : world.service.observer = some observer) (move : Move) :
    ∃ tracker, (world.move move).service.observer = some { observer with tracker } ∧
      world.Sees move observer.tracker tracker := by
  by_cases hbeat : ∃ offered report, move = .call (.operate (.heartbeat offered report))
  · obtain ⟨offered, report, rfl⟩ := hbeat
    have hmove : world.move (.call (.operate (.heartbeat offered report))) =
        (world.serve (.heartbeat offered report)).1 := rfl
    rw [hmove]
    cases hdetails : Details.ofField offered with
    | error failure =>
      rw [serve_heartbeat_refused hdetails]
      refine ⟨observer.tracker, hobserver, sees_idle ?_ ?_ observer.tracker⟩
      · rintro id ⟨details, hother, -⟩
        rw [hdetails] at hother
        cases hother
      · rintro id ⟨hsame, -⟩
        cases hsame
    | ok details =>
      have hseen := world.observer_run_heartbeat details report world.clock
      rw [hobserver] at hseen
      rw [serve_heartbeat_admitted hdetails]
      exact ⟨_, hseen, sees_heartbeat hdetails report observer.tracker⟩
  · by_cases hremove : ∃ removed, move = .call (.operate (.remove removed))
    · obtain ⟨removed, rfl⟩ := hremove
      obtain ⟨hended, hforgotten⟩ | ⟨⟨failure, hfailed⟩, hsame⟩ := world.observer_run_remove removed
      · rw [hobserver] at hforgotten
        exact ⟨_, hforgotten, sees_removal hended observer.tracker⟩
      · refine ⟨observer.tracker, hsame.trans hobserver, sees_idle (fun _ ↦ id) ?_ observer.tracker⟩
        rintro id ⟨hmove, reply, hreply⟩
        obtain rfl : removed = id := by simpa using hmove
        rw [serve_remove, hfailed] at hreply
        cases hreply
    · have hsame : (world.move move).service.observer = world.service.observer :=
        observer_move_of_idle (fun offered report h ↦ hbeat ⟨offered, report, h⟩) fun id h ↦ hremove ⟨id, h⟩
      refine ⟨observer.tracker, hsame.trans hobserver, sees_idle (fun id h ↦ ?_) ?_ observer.tracker⟩
      · unfold Move.Beats at h
        split at h
        · next offered report => exact hbeat ⟨offered, report, rfl⟩
        · exact h
      · exact fun id h ↦ hremove ⟨id, h.1⟩

/-- An observer that has seen nothing holds after a run the time of the latest heartbeat of each datanode. -/
theorem exists_tracker_after {observer : Observer} (hobserver : world.service.observer = some observer)
    (hempty : observer.tracker = .empty) (moves : List Move) :
    ∃ tracker, (world.after moves).service.observer = some { observer with tracker } ∧
      ∀ id time, tracker.seen.get? id = some time ↔ world.LastBeatAt id time moves := by
  induction moves using List.reverseRecOn with
  | nil =>
    refine ⟨observer.tracker, hobserver, fun id time ↦ ?_⟩
    rw [hempty, HeartbeatTracker.get?_seen_empty]
    exact iff_of_false (by simp) not_since_nil
  | append_singleton moves move ih =>
    obtain ⟨before, hbefore, hseen⟩ := ih
    obtain ⟨after, hafter, hsees⟩ := exists_sees_move hbefore move
    refine ⟨after, by rw [after_append, hafter], fun id time ↦ ?_⟩
    rw [hsees, hseen]
    unfold LastBeatAt
    rw [since_append_iff]

/-! ## What comes of a heartbeat -/

/-- A heartbeat after too long a silence: the datanode is told to register again and nothing else.  The manager
logs that, and the queue of the datanode and the counts that it reported are dropped if the observer discards them. -/
structure TurnsAway (world : World) (discards : Bool) (details : Details) (served : World × Outcome) : Prop where
  reply : served.2 = .ok (.commands [Command.reregister world.clock])
  manager : ∃ note, served.1.manager =
    (if discards then
      { world.manager with commands :=
          { queues := world.manager.commands.queues.erase details.id
            held := world.manager.commands.held.erase details.id } }
    else world.manager : Manager).note note
  /-- What is retained is there for the next heartbeat that is passed on. -/
  retained : discards = false → served.1.manager.stores = world.manager.stores
  tables : served.1.tables = world.tables

/-- A heartbeat that is passed on: the manager processes it, and of its reply the datanode gets the commands to register
again. -/
structure PassesOn (world : World) (details : Details) (report : HeartbeatReport) (served : World × Outcome) :
    Prop where
  reply : served.2 = ((world.manager.heartbeat details report world.clock).2.map
    (List.filter fun command ↦ command.kind = .reregister)).map Reply.commands
  manager : served.1.manager = (world.manager.heartbeat details report world.clock).1
  tables : served.1.tables = world.tables

/-- An observer sends commands to register again and no others. -/
theorem allows_eq : Observer.allows = fun command ↦ decide (command.kind = .reregister) := by
  funext command
  simp [Observer.allows, Observer.allowedKinds]

section Heartbeats

variable {observer : Observer} {offered : Field} {details : Details}

theorem turnsAway_of_reached (hobserver : world.service.observer = some observer)
    (hdetails : Details.ofField offered = .ok details) (report : HeartbeatReport)
    (hreached : Configuration.isReached observer.threshold (world.clock - observer.tracker.get details.id) = true) :
    world.TurnsAway observer.discards details (world.serve (.heartbeat offered report)) := by
  let refused := Service.refuseOutdated world.manager observer details
    (world.clock - observer.tracker.get details.id)
  have hserved : world.serve (.heartbeat offered report) =
      (⟨⟨refused, some (observer.see details.id world.clock)⟩, world.tables⟩,
        .ok (.commands [Command.reregister world.clock])) := by
    rw [serve_heartbeat_admitted hdetails, run_heartbeat]
    unfold Service.heartbeat
    rw [hobserver]
    unfold Service.observedHeartbeat
    simp only
    unfold clock manager at hreached
    rw [if_pos hreached]
    rfl
  have hrefused : ∃ note, refused =
      (if observer.discards then
        { world.manager with commands :=
            { queues := world.manager.commands.queues.erase details.id
              held := world.manager.commands.held.erase details.id } }
      else world.manager : Manager).note note := by
    unfold refused Service.refuseOutdated
    cases observer.discards <;> exact ⟨_, rfl⟩
  rw [hserved]
  refine ⟨rfl, hrefused, fun hretains ↦ ?_, rfl⟩
  obtain ⟨note, hnoted⟩ := hrefused
  rw [hretains, if_neg Bool.false_ne_true] at hnoted
  have hstores : refused.stores = (world.manager.note note).stores := congrArg Manager.stores hnoted
  exact hstores

theorem passesOn_of_not_reached (hobserver : world.service.observer = some observer)
    (hdetails : Details.ofField offered = .ok details) (report : HeartbeatReport)
    (hreached : ¬ Configuration.isReached observer.threshold
      (world.clock - observer.tracker.get details.id) = true) :
    world.PassesOn details report (world.serve (.heartbeat offered report)) := by
  have hserved : world.serve (.heartbeat offered report) =
      (⟨⟨(world.manager.heartbeat details report world.clock).1,
          some (observer.see details.id world.clock)⟩, world.tables⟩,
        ((world.manager.heartbeat details report world.clock).2.map
          (List.filter fun command ↦ command.kind = .reregister)).map Reply.commands) := by
    rw [serve_heartbeat_admitted hdetails, run_heartbeat]
    unfold Service.heartbeat
    rw [hobserver]
    unfold Service.observedHeartbeat
    simp only
    unfold clock manager at hreached
    rw [if_neg hreached, allows_eq]
    rfl
  rw [hserved]
  exact ⟨rfl, rfl, rfl⟩

end Heartbeats

def observing (settings : ServiceSettings) (configuration : Configuration) (tables : List Table) : World :=
  ⟨Service.make { settings with mode := .observer } configuration, tables⟩

theorem hasEmptyMemory_observing (settings : ServiceSettings) (configuration : Configuration) (tables : List Table) :
    (observing settings configuration tables).manager.HasEmptyMemory :=
  Service.hasEmptyMemory_make _ _

theorem observer_observing (settings : ServiceSettings) (configuration : Configuration) (tables : List Table) :
    (observing settings configuration tables).service.observer = some (Observer.create configuration) := rfl

/-- In every run of an observer the time that it gives for a datanode is that of the latest heartbeat since the
start or since the last removal that succeeded, and the start of 1970 when there was none.  A heartbeat is turned
away when there was none, provided that the clock has passed the threshold of so many intervals as the multiplier says,
or when the latest was at least that long ago; every other heartbeat is passed on. -/
theorem heartbeats_judged_after (settings : ServiceSettings) (configuration : Configuration) (tables : List Table)
    (moves : List Move) :
    let world := observing settings configuration tables
    let reached := world.after moves
    let threshold := configuration.observerMultiplier * configuration.observerInterval
    let discards : Bool := configuration.pendingCommands = "discard"
    (∀ id time, world.LastBeatAt id time moves → reached.service.lastHeartbeat id = time) ∧
    (∀ id, (∀ time, ¬ world.LastBeatAt id time moves) → reached.service.lastHeartbeat id = 0) ∧
    ∀ offered details report, Details.ofField offered = .ok details →
      ((∀ time, ¬ world.LastBeatAt details.id time moves) →
        threshold.atMost (.finite reached.clock) = true →
        reached.TurnsAway discards details (reached.serve (.heartbeat offered report))) ∧
      ∀ time, world.LastBeatAt details.id time moves →
        if threshold.atMost (.finite ((reached.clock - time : Int) : Rat)) = true then
          reached.TurnsAway discards details (reached.serve (.heartbeat offered report))
        else reached.PassesOn details report (reached.serve (.heartbeat offered report)) := by
  intro world reached threshold discards
  obtain ⟨tracker, hobserver, hseen⟩ :=
    exists_tracker_after (observer_observing settings configuration tables) rfl moves
  have hlast (id : String) : reached.service.lastHeartbeat id = tracker.get id := by
    unfold Service.lastHeartbeat
    rw [hobserver]
  have hbeat {id : String} {time : Instant} (h : world.LastBeatAt id time moves) : tracker.get id = time :=
    HeartbeatTracker.get_of_seen ((hseen id time).mpr h)
  have hnever {id : String} (h : ∀ time, ¬ world.LastBeatAt id time moves) : tracker.get id = 0 :=
    HeartbeatTracker.get_of_unseen (Option.eq_none_iff_forall_ne_some.mpr fun time hsome ↦
      h time ((hseen id time).mp hsome))
  refine ⟨fun id time h ↦ (hlast id).trans (hbeat h), fun id h ↦ (hlast id).trans (hnever h), ?_⟩
  intro offered details report hdetails
  refine ⟨fun h hclock ↦ turnsAway_of_reached hobserver hdetails report ?_, fun time h ↦ ?_⟩
  · rw [hnever h, Int.sub_zero]
    exact hclock
  · split
    · next hreached => exact turnsAway_of_reached hobserver hdetails report (hbeat h ▸ hreached)
    · next hreached => exact passesOn_of_not_reached hobserver hdetails report (hbeat h ▸ hreached)

/-- A datanode is told to register again with its first heartbeat; the command that waits for it meanwhile is the
reply to the next one. -/
theorem heartbeats_judged_after_first_one :
    let world := observing { clock := 1767225600000 } .default []
    let details := Details.sample "/rack1"
    let heartbeat := OperationRequest.heartbeat (some details.toValue) {}
    let moves := [Move.sample "/rack1", .call (.take details.id (Command.reregister 5)),
      .call (.operate heartbeat), .tick 1767225600001]
    let reached := world.after moves
    Details.ofField (some details.toValue) = .ok details ∧ world.LastBeatAt details.id 1767225600000 moves ∧
      reached.service.lastHeartbeat details.id = 1767225600000 ∧
      ((world.after (moves.take 2)).serve heartbeat).2.toOption =
        some (.commands [Command.reregister 1767225600000]) ∧
      reached.PassesOn details {} (reached.serve heartbeat) ∧
      (reached.serve heartbeat).2.toOption = some (.commands [Command.reregister 5]) := by
  intro world details heartbeat moves reached
  have hbeat : world.LastBeatAt details.id 1767225600000 moves := by
    have hbegun : world.LastBeatAt details.id 1767225600000 (moves.take 2 ++ [.call (.operate heartbeat)]) :=
      .begun ⟨⟨details, rfl, rfl⟩, by decide +kernel⟩
    refine .lasting hbegun ?_
    rintro (hbeats | ⟨hmove, -⟩)
    · exact hbeats
    · cases hmove
  obtain ⟨hlast, -, hserved⟩ := heartbeats_judged_after { clock := 1767225600000 } .default [] moves
  refine ⟨rfl, hbeat, hlast _ _ hbeat, by decide +kernel, ?_, by decide +kernel⟩
  have hpassed := (hserved (some details.toValue) details {} rfl).2 1767225600000 hbeat
  rwa [if_neg (by decide +kernel)] at hpassed

end World

end ClusterMembership
