import ClusterMembership.Proofs.Frame
import Mathlib.Logic.Function.Basic

/-!
# Replaying the events

Whoever listens to the events can keep a roster of the registered datanodes and their health: a registration makes a
datanode healthy, a change of health says the new one, and a removal strikes it off.  `Manager.Tells` says of two
states of a manager that the events in between lead from the roster of the one to the roster of the other, each of
them saying what is true when it is replayed.  It is carried through every function of the service, and from a start
with nothing in memory the events give the roster of the registry.
-/

namespace ClusterMembership

/-- The health of the datanodes that are registered. -/
abbrev Roster := String → Option Health

namespace Event

def apply (roster : Roster) : Event → Roster
  | registered id _ _ => Function.update roster id (some .healthy)
  | healthChanged id _ current => Function.update roster id (some current)
  | removed id => Function.update roster id none
  | pipelineReport _ _ => roster

/-- What an event says beside the change is true of the roster that it comes to. -/
def Fits (roster : Roster) : Event → Prop
  | registered id _ isNew => isNew = true ↔ roster id = none
  | healthChanged id previous current => roster id = some previous ∧ previous ≠ current
  | removed id => roster id ≠ none
  | pipelineReport _ _ => True

/-- The roster after events that begin with nobody registered. -/
def replay (events : List Event) : Roster := events.foldl apply fun _ ↦ none

end Event

/-- Events, each of which fits, that lead from one roster to another. -/
inductive Narrates : Roster → List Event → Roster → Prop
  | nil (roster : Roster) : Narrates roster [] roster
  | cons {roster after : Roster} {event : Event} {rest : List Event} (hfits : event.Fits roster)
    (hrest : Narrates (event.apply roster) rest after) : Narrates roster (event :: rest) after

namespace Narrates

variable {roster middle after : Roster} {events rest : List Event}

theorem append (hfirst : Narrates roster events middle) (hsecond : Narrates middle rest after) :
    Narrates roster (events ++ rest) after := by
  induction hfirst with
  | nil roster => exact hsecond
  | cons hfits _ ih => exact .cons hfits (ih hsecond)

theorem foldl_eq (h : Narrates roster events after) : events.foldl Event.apply roster = after := by
  induction h with
  | nil roster => rfl
  | cons _ _ ih => exact ih

theorem fits (h : Narrates roster events after) {past rest : List Event} {event : Event}
    (hsplit : events = past ++ event :: rest) : event.Fits (past.foldl Event.apply roster) := by
  induction h generalizing past with
  | nil roster => cases past <;> cases hsplit
  | cons hfits _ ih =>
    cases past with
    | nil =>
      cases hsplit
      exact hfits
    | cons earlier past =>
      obtain ⟨rfl, hrest⟩ := List.cons.inj hsplit
      exact ih hrest

end Narrates

namespace Manager

/-- The events between two states of a manager lead from the roster of the one to that of the other. -/
def Tells (before after : Manager) : Prop :=
  ∃ told, after.trace.events = before.trace.events ++ told ∧ Narrates before.health? told after.health?

/-- Two states of a manager with the same roster, between which nothing was published. -/
structure Silent (before after : Manager) : Prop where
  events : after.trace.events = before.trace.events
  health : after.health? = before.health?

namespace Silent

variable {before middle after : Manager}

protected theorem refl (manager : Manager) : manager.Silent manager := ⟨rfl, rfl⟩

protected theorem trans (hfirst : before.Silent middle) (hsecond : middle.Silent after) : before.Silent after :=
  ⟨hsecond.events.trans hfirst.events, hsecond.health.trans hfirst.health⟩

theorem of_registry (hregistry : after.registry = before.registry)
    (hevents : after.trace.events = before.trace.events) : before.Silent after := by
  refine ⟨hevents, ?_⟩
  unfold health?
  rw [hregistry]

theorem tells (h : before.Silent after) : before.Tells after :=
  ⟨[], (List.append_nil _).symm ▸ h.events, h.health ▸ .nil _⟩

end Silent

theorem Noted.silent {before after : Manager} (h : before.Noted after) : before.Silent after :=
  .of_registry h.alike.registry h.events

namespace Tells

variable {before middle after : Manager}

protected theorem refl (manager : Manager) : manager.Tells manager := (Silent.refl manager).tells

protected theorem trans (hfirst : before.Tells middle) (hsecond : middle.Tells after) : before.Tells after := by
  obtain ⟨first, hfirst, hleads⟩ := hfirst
  obtain ⟨second, hsecond, hleadsOn⟩ := hsecond
  refine ⟨first ++ second, ?_, hleads.append hleadsOn⟩
  rw [hsecond, hfirst, List.append_assoc]

/-- One event was published, and the roster changed as it says. -/
theorem of_event {event : Event} (hevents : after.trace.events = before.trace.events ++ [event])
    (hfits : event.Fits before.health?) (hhealth : after.health? = event.apply before.health?) :
    before.Tells after :=
  ⟨[event], hevents, .cons hfits (hhealth ▸ .nil _)⟩

end Tells

variable (manager : Manager)

/-! ## Single records -/

theorem health?_upsert (record : NodeRecord) :
    ({ manager with registry := manager.registry.upsert record } : Manager).health? =
      Function.update manager.health? record.id (some record.status.health) := by
  funext other
  unfold health?
  rw [Registry.get?_upsert]
  by_cases hsame : record.id = other
  · rw [if_pos hsame, ← hsame, Function.update_self, Option.map_some]
  · rw [if_neg hsame, Function.update_of_ne (Ne.symm hsame)]

theorem health?_erase (id : String) :
    ({ manager with registry := manager.registry.erase id } : Manager).health? =
      Function.update manager.health? id none := by
  funext other
  unfold health?
  rw [Registry.get?_erase]
  by_cases hsame : id = other
  · rw [if_pos hsame, ← hsame, Function.update_self, Option.map_none]
  · rw [if_neg hsame, Function.update_of_ne (Ne.symm hsame)]

variable {manager} in
theorem health?_amend {id : String} {record : NodeRecord} (hrecord : manager.registry.get? id = some record)
    (change : NodeRecord → NodeRecord) {health : Health} (hid : (change record).id = id)
    (hhealth : (change record).status.health = health) :
    ({ manager with registry := manager.registry.amend id change } : Manager).health? =
      Function.update manager.health? id (some health) := by
  have hamend : manager.registry.amend id change = manager.registry.upsert (change record) := by
    rw [Registry.amend, hrecord]
  rw [hamend, health?_upsert, hid, hhealth]

variable {manager} in
theorem health?_of_get? {id : String} {record : NodeRecord} (hrecord : manager.registry.get? id = some record) :
    manager.health? id = some record.status.health := by
  rw [health?, hrecord, Option.map_some]

/-- A change of a record that keeps its identifier and its health is no news. -/
theorem silent_amend (hkeyed : manager.Keyed) (id : String) (change : NodeRecord → NodeRecord)
    (hid : ∀ record, (change record).id = record.id)
    (hhealth : ∀ record, (change record).status.health = record.status.health) :
    manager.Silent { manager with registry := manager.registry.amend id change } where
  events := rfl
  health := by
    cases hrecord : manager.registry.get? id with
    | none =>
      have hamend : manager.registry.amend id change = manager.registry := by
        rw [Registry.amend, hrecord]
      rw [hamend]
    | some record =>
      rw [health?_amend hrecord change ((hid record).trans (hkeyed hrecord)) (hhealth record),
        ← health?_of_get? hrecord]
      exact Function.update_eq_self id manager.health?

/-! ## Heartbeats -/

variable {manager} in
theorem tells_hear (hkeyed : manager.Keyed) {id : String} {record : NodeRecord}
    (hrecord : manager.registry.get? id = some record) (layout : Option LayoutReport) (now : Instant) :
    manager.Tells (manager.hear id record.status.health layout now) := by
  have hid : record.id = id := hkeyed hrecord
  have hheard := health?_amend hrecord (Registry.heard layout now) hid (Eq.refl Health.healthy)
  have hhealth := health?_of_get? hrecord
  unfold hear
  simp only
  split
  · next hhealthy =>
    refine Silent.tells ⟨rfl, hheard.trans ?_⟩
    rw [← hhealthy, ← hhealth]
    exact Function.update_eq_self id manager.health?
  · next hill => exact .of_event rfl ⟨hhealth, hill⟩ hheard

variable {manager} in
theorem silent_of_noteUsage (hkeyed : manager.Keyed) {id : String} {report : Option NodeReport} {now : Instant}
    {after : Manager} (h : manager.noteUsage id report now = .ok after) : manager.Silent after := by
  obtain rfl | ⟨usage, rfl⟩ := noteUsage_cases h
  · exact .refl after
  · exact manager.silent_amend hkeyed id (Registry.stocked usage now) (fun _ ↦ rfl) fun _ ↦ rfl

theorem silent_queueFinalize (id : String) (details : Details) (reported : LayoutReport) (now : Instant) :
    manager.Silent (manager.queueFinalize id details reported now) := by
  have hnoted := (manager.noted_noteAll (manager.layout.checkNotes details reported)).silent
  unfold queueFinalize
  simp only
  split
  · exact hnoted
  · exact hnoted.trans (.of_registry rfl rfl)

variable {manager} in
theorem silent_of_takeReports (hkeyed : manager.Keyed) {id : String} {details : Details} {report : HeartbeatReport}
    {now : Instant} {after : Manager} (h : manager.takeReports id details report now = .ok after) :
    manager.Silent after := by
  obtain ⟨stocked, hstocked, commands, entries, rfl⟩ := exists_stocked_of_takeReports h
  exact (silent_of_noteUsage hkeyed hstocked).trans (.of_registry rfl rfl)

theorem silent_restate (hkeyed : manager.Keyed) (id : String) (state expiry : Field) (now : Instant) :
    manager.Silent (manager.restate id state expiry now) :=
  manager.silent_amend hkeyed id (Registry.restated state expiry now)
    (fun record ↦ record.details.id_withOperational state expiry) fun _ ↦ rfl

theorem silent_settleState (hkeyed : manager.Keyed) (details : Details) (now : Instant) :
    manager.Silent (manager.settleState details now) := by
  unfold settleState
  simp only
  split
  · exact .refl manager
  · split
    · exact .refl manager
    · split
      · exact (manager.noted_note _).silent.trans (silent_restate (manager.note _) hkeyed details.id _ _ now)
      · exact .of_registry rfl rfl

theorem tells_heartbeat (hkeyed : manager.Keyed) (details : Details) (report : HeartbeatReport) (now : Instant) :
    manager.Tells (manager.heartbeat details report now).1 := by
  unfold heartbeat
  simp only
  split
  · exact (manager.noted_note _).silent.tells
  · next record hrecord =>
    have hheard := tells_hear hkeyed hrecord report.layout now
    have hstill : (manager.hear details.id record.status.health report.layout now).Keyed :=
      (manager.tended_hear hkeyed details.id record.status.health report.layout now).keyed hkeyed
    split
    · exact hheard
    · next reported htaken =>
      have hregistered : manager.registry.contains details.id = true :=
        (Registry.contains_iff _ _).mpr ⟨record, hrecord⟩
      have hready : reported.Keyed := (tended_hear_takeReports hkeyed hregistered htaken).keyed hkeyed
      have hsettled := (silent_of_takeReports hstill htaken).trans (reported.silent_settleState hready details now)
      exact hheard.trans (hsettled.trans (.of_registry rfl rfl)).tells

variable {manager} in
theorem silent_of_addCommand {id : String} {command : Command} {after : Manager}
    (h : manager.addCommand id command = .ok after) : manager.Silent after := by
  unfold addCommand at h
  split at h
  · rw [← Except.ok.inj h]
    exact .of_registry rfl rfl
  · simp at h

theorem silent_onCommand (id : String) (command : Command) : manager.Silent (manager.onCommand id command) := by
  unfold onCommand
  split
  · exact .of_registry rfl rfl
  · exact (manager.noted_note _).silent

/-- An observer that turns a heartbeat away says nothing of it. -/
theorem silent_refuseOutdated (observer : Observer) (details : Details) (silence : Int) :
    manager.Silent (Service.refuseOutdated manager observer details silence) := by
  unfold Service.refuseOutdated
  cases observer.discards with
  | true => exact .of_registry rfl rfl
  | false => exact .of_registry rfl rfl

/-! ## Sweeps -/

section Sweeps

variable {state : Manager × SweepResult} (now : Instant)

theorem tells_sweepOne {record : NodeRecord} (hrecord : state.1.registry.get? record.id = some record) :
    state.1.Tells (sweepOne now state record).1 := by
  have hhealth := health?_of_get? hrecord
  have hclassified (health : Health) :
      ({ state.1 with
          registry := state.1.registry.amend record.id (Registry.classified health now) } : Manager).health? =
        Function.update state.1.health? record.id (some health) := by
    apply health?_amend hrecord
    · unfold Registry.classified
      split <;> rfl
    · unfold Registry.classified
      split
      · next hsame => exact hsame
      · rfl
  unfold sweepOne
  simp only
  split
  · exact .refl state.1
  · next hworse =>
    have hchanges := Ne.symm (not_or.mp hworse).2
    split
    · exact .of_event rfl ⟨hhealth, hchanges⟩ (hclassified _)
    · exact .of_event rfl ⟨hhealth, hchanges⟩ (hclassified _)

theorem tells_foldl_sweepOne (hkeyed : state.1.Keyed) {records : List NodeRecord}
    (hdistinct : (records.map NodeRecord.id).Nodup)
    (hpresent : ∀ record ∈ records, state.1.registry.get? record.id = some record) :
    state.1.Tells (records.foldl (sweepOne now) state).1 := by
  induction records generalizing state with
  | nil => exact .refl state.1
  | cons record rest ih =>
    rw [List.map_cons, List.nodup_cons] at hdistinct
    have hfirst := tells_sweepOne now (hpresent record List.mem_cons_self)
    refine hfirst.trans (ih ((tended_sweepOne state hkeyed now record).keyed hkeyed) hdistinct.2 fun other hother ↦ ?_)
    have hdifferent : record.id ≠ other.id := fun hsame ↦ hdistinct.1 (hsame ▸ List.mem_map_of_mem hother)
    exact (sweepOne_of_ne hkeyed now hdifferent).2.trans (hpresent other (List.mem_cons_of_mem record hother))

end Sweeps

theorem tells_checkHeartbeats (hkeyed : manager.Keyed) (now : Instant) :
    manager.Tells (manager.checkHeartbeats now).1 := by
  have hswept : manager.Tells (manager.sweep now).1 := by
    let start : Manager × SweepResult := (manager, {})
    have hstart : start.1.Keyed := hkeyed
    apply tells_foldl_sweepOne now hstart
    · rw [map_id_values hkeyed]
      exact manager.registry.records.nodup_keys
    · intro record hrecord
      obtain ⟨key, hkey⟩ := (OrderedMap.mem_values_iff _ _).mp hrecord
      rw [hkeyed hkey]
      exact hkey
  unfold checkHeartbeats
  simp only
  split
  · exact hswept
  · exact hswept.trans (noted_note _ _).silent.tells

/-! ## Registrations -/

variable {manager}

/-- A placement that is refused is no news. -/
theorem silent_of_place_refused {details : Details} {layout : LayoutReport} {now : Instant} {after : Manager}
    {refusal : Refusal} (h : manager.place details layout now = (after, some refusal)) : manager.Silent after := by
  have hafter : (manager.place details layout now).1 = after := congrArg Prod.fst h
  rw [← hafter]
  unfold place at h ⊢
  simp only at h ⊢
  split
  · next hregistered =>
    rw [if_pos hregistered] at h
    split
    · exact .of_registry rfl rfl
    · next hupdate =>
      rw [hupdate] at h
      simp at h
  · next habsent =>
    rw [if_neg habsent] at h
    split
    · exact .refl manager
    · next hadd =>
      rw [hadd] at h
      simp at h

/-- A datanode that is placed is healthy, and nobody has been told yet. -/
theorem health?_place {details : Details} {layout : LayoutReport} {now : Instant}
    {after : Manager} (h : manager.place details layout now = (after, none)) :
    after.trace.events = manager.trace.events ∧
      after.health? = Function.update manager.health? details.id (some .healthy) := by
  unfold place at h
  simp only at h
  split at h
  · next hregistered =>
    obtain ⟨record, hrecord⟩ := (Registry.contains_iff _ _).mp hregistered
    split at h
    · simp at h
    · have hafter : _ = after := congrArg Prod.fst h
      rw [← hafter]
      refine ⟨rfl, ?_⟩
      let detailed : Manager :=
        { manager with registry := manager.registry.amend details.id (Registry.detailed details now) }
      have hid : (Registry.detailed details now record).id = details.id := details.id_withOperational _ _
      have hdetailed : detailed.registry.get? details.id = some (Registry.detailed details now record) := by
        rw [Registry.get?_amend, if_pos rfl, hrecord, Option.map_some]
        exact fun former _ ↦ details.id_withOperational _ _
      have hheard := health?_amend hdetailed (Registry.heard (some layout) now) hid (Eq.refl Health.healthy)
      have hrenewed := health?_amend hrecord (Registry.detailed details now) hid rfl
      rw [hrenewed, Function.update_idem] at hheard
      exact hheard
  · next habsent =>
    split at h
    · simp at h
    · have hafter : _ = after := congrArg Prod.fst h
      rw [← hafter]
      exact ⟨rfl, manager.health?_upsert (NodeRecord.registered details layout now)⟩

variable (manager) in
theorem silent_settleWrite (id : String) (answer : TableAnswer) :
    manager.Silent (manager.settleWrite id answer).1 := by
  unfold settleWrite
  split
  · exact .of_registry rfl rfl
  · simp only
    split
    · exact (manager.noted_note _).silent
    · obtain ⟨marks, hmarks⟩ := markUnsynced_eq (manager.note _) id
      rw [hmarks]
      exact .of_registry rfl rfl

/-- The announcement of a datanode that was placed says truly whether the datanode is new. -/
theorem tells_announce {placed : PlacedRegistration} {settled : Manager}
    (hprevious : placed.previous = manager.registry.get? placed.request.details.id)
    (hevents : settled.trace.events = manager.trace.events)
    (hhealth : settled.health? = Function.update manager.health? placed.request.details.id (some .healthy)) :
    manager.Tells (settled.announce placed) := by
  let registered := Event.registered placed.request.details.id placed.stored placed.previous.isNone
  have hfits : registered.Fits manager.health? := by
    change placed.previous.isNone = true ↔ manager.health? placed.request.details.id = none
    rw [Option.isNone_iff_eq_none, hprevious, health?, Option.map_eq_none_iff]
  have hannounced : (settled.announce placed).health? = registered.apply manager.health? := by
    unfold health? at hhealth ⊢
    rw [(settled.alike_announce placed).registry]
    exact hhealth
  have hend : Narrates manager.health? [registered] (settled.announce placed).health? :=
    .cons hfits (hannounced ▸ .nil _)
  -- A report on pipelines that came along is published first and leaves the roster as it is.
  have hpublished : ∃ reported, (settled.announce placed).trace.events =
      settled.trace.events ++ reported ++ [registered] ∧ Narrates manager.health? reported manager.health? := by
    unfold announce
    simp only
    split
    · split
      · exact ⟨[_], rfl, .cons trivial (.nil _)⟩
      · exact ⟨[], by rw [List.append_nil]; rfl, .nil _⟩
    · exact ⟨[], by rw [List.append_nil]; rfl, .nil _⟩
  obtain ⟨reported, hreported, hnarrates⟩ := hpublished
  refine ⟨reported ++ [registered], ?_, hnarrates.append hend⟩
  rw [hreported, hevents, List.append_assoc]

theorem tells_completeRegistration {placed : PlacedRegistration} {written : Manager} (hkeyed : written.Keyed)
    (hprevious : placed.previous = manager.registry.get? placed.request.details.id)
    (hlisted : ∀ given ∈ placed.request.nodeReport, given.volumes ≠ none)
    (hevents : written.trace.events = manager.trace.events)
    (hhealth : written.health? = Function.update manager.health? placed.request.details.id (some .healthy)) :
    manager.Tells (written.completeRegistration placed).1 := by
  obtain ⟨stocked, hstocked⟩ := written.exists_noteUsage_eq placed.request.details.id hlisted placed.now
  have hsilent := (silent_of_noteUsage hkeyed hstocked).trans
    (stocked.silent_queueFinalize placed.request.details.id placed.stored placed.layout placed.now)
  unfold completeRegistration
  simp only [hstocked]
  exact tells_announce hprevious (hsilent.events.trans hevents) (hsilent.health.trans hhealth)

/-- A placement that is undone is no news. -/
theorem silent_undoPlacement {placed : PlacedRegistration} {failed : Manager} (hkeyed : manager.Keyed)
    (hprevious : placed.previous = manager.registry.get? placed.request.details.id)
    (hevents : failed.trace.events = manager.trace.events)
    (hhealth : failed.health? = Function.update manager.health? placed.request.details.id (some .healthy)) :
    manager.Silent (failed.undoPlacement placed) := by
  unfold undoPlacement
  simp only
  split
  · next hnone =>
    rw [hnone] at hprevious
    refine ⟨hevents, (failed.health?_erase placed.request.details.id).trans ?_⟩
    have habsent : manager.health? placed.request.details.id = none := by
      rw [health?, ← hprevious, Option.map_none]
    rw [hhealth, Function.update_idem, ← habsent]
    exact Function.update_eq_self _ manager.health?
  · next previous hsome =>
    have hrecord := (hprevious.symm.trans hsome)
    have hid : previous.id = placed.request.details.id := hkeyed hrecord
    have hrestored : ({ failed with registry := failed.registry.upsert previous } : Manager).health? =
        manager.health? := by
      rw [failed.health?_upsert previous, hhealth, hid, Function.update_idem, ← health?_of_get? hrecord]
      exact Function.update_eq_self _ manager.health?
    split
    · exact ⟨hevents, hrestored⟩
    · exact ⟨hevents, hrestored⟩

theorem tells_finishRegistration {placed : PlacedRegistration} {asked : Manager} (hkeyed : manager.Keyed)
    (hready : asked.Keyed) (hprevious : placed.previous = manager.registry.get? placed.request.details.id)
    (hlisted : ∀ given ∈ placed.request.nodeReport, given.volumes ≠ none)
    (hevents : asked.trace.events = manager.trace.events)
    (hhealth : asked.health? = Function.update manager.health? placed.request.details.id (some .healthy))
    (answer : TableAnswer) : manager.Tells (asked.finishRegistration placed answer).1 := by
  have hsettled := asked.silent_settleWrite placed.request.details.id answer
  unfold finishRegistration
  split
  · next written hwritten =>
    have hstill : written.Keyed := by
      intro id record hrecord
      have hregistry := asked.registry_settleWrite placed.request.details.id answer
      rw [hwritten] at hregistry
      exact hready (hregistry ▸ hrecord)
    rw [hwritten] at hsettled
    exact tells_completeRegistration hstill hprevious hlisted (hsettled.events.trans hevents)
      (hsettled.health.trans hhealth)
  · next failed failure hfailed =>
    rw [hfailed] at hsettled
    exact (silent_undoPlacement hkeyed hprevious (hsettled.events.trans hevents)
      (hsettled.health.trans hhealth)).tells

/-! ## Removals -/

theorem tells_forget {id : String} (hregistered : manager.registry.contains id = true) :
    manager.Tells (manager.forget id) := by
  obtain ⟨record, hrecord⟩ := (Registry.contains_iff _ _).mp hregistered
  refine .of_event rfl ?_ (manager.health?_erase id)
  change manager.health? id ≠ none
  rw [health?_of_get? hrecord]
  exact Option.some_ne_none _

end Manager

/-! ## Operations and loads -/

/-- A registration whose node report, if it has one, lists its volumes. -/
def OperationRequest.IsReadable : OperationRequest → Prop
  | .register _ nodeReport _ _ => ∀ given ∈ nodeReport, given.volumes ≠ none
  | _ => True

/-- A move other than a registration whose node report cannot be read. -/
def Move.IsReadable : Move → Prop
  | .call (.operate request) => request.IsReadable
  | _ => True

namespace World

variable {world : World}

theorem tells_run_register (hsound : world.manager.Sound) {request : RegistrationRequest}
    (hkept : request.details.Kept) (hlisted : ∀ given ∈ request.nodeReport, given.volumes ≠ none) :
    world.manager.Tells (world.run (.register request)).1.manager := by
  cases hplacing : world.manager.placing request with
  | mk inPlace refusal =>
    cases refusal with
    | some refusal =>
      rw [run_register_refused hplacing]
      let recorded : Manager := { world.manager with known := world.manager.known.record request.details }
      have hrecorded : world.manager.Silent recorded := .of_registry rfl rfl
      have hrefused := (inPlace.noted_refuse request.details refusal).silent
      exact ((hrecorded.trans (Manager.silent_of_place_refused hplacing)).trans hrefused).tells
    | none =>
      obtain ⟨hevents, hplaced⟩ := Manager.health?_place hplacing
      have hhealth : inPlace.health? =
          Function.update world.manager.health? request.details.id (some .healthy) := hplaced
      have hinPlace : inPlace.Keyed := (hsound.placing hkept hplacing).1.keyed
      cases hwrite : (if request.persist then inPlace.table else none) with
      | none =>
        rw [run_register_unwritten hplacing hwrite]
        exact Manager.tells_completeRegistration hinPlace rfl hlisted hevents hhealth
      | some table =>
        rw [run_register_written hplacing hwrite rfl]
        have hasked : inPlace.Noted (world.askedToPut inPlace table request).1.manager :=
          (world.withManager inPlace).noted_ask table _
        have hready : (world.askedToPut inPlace table request).1.manager.Keyed :=
          hasked.alike.tended.keyed hinPlace
        change world.manager.Tells ((world.askedToPut inPlace table request).1.manager.finishRegistration
          (world.manager.placedBy inPlace request) _).1
        exact Manager.tells_finishRegistration hsound.keyed hready rfl hlisted (hasked.silent.events.trans hevents)
          (hasked.silent.health.trans hhealth) _

theorem tells_run_heartbeat (hkeyed : world.manager.Keyed) (details : Details) (report : HeartbeatReport)
    (issuedAt : Instant) : world.manager.Tells (world.run (.heartbeat details report issuedAt)).1.manager := by
  rw [run_heartbeat]
  unfold manager Service.heartbeat
  simp only
  split
  · exact world.service.manager.tells_heartbeat hkeyed details report issuedAt
  · next observer _ =>
    unfold Service.observedHeartbeat
    simp only
    split
    · exact (world.service.manager.silent_refuseOutdated observer details _).tells
    · exact world.service.manager.tells_heartbeat hkeyed details report _

theorem tells_run_remove (world : World) (id : String) :
    world.manager.Tells (world.run (.remove id)).1.manager := by
  cases hregistered : world.manager.registry.contains id with
  | false =>
    rw [run_remove_of_absent hregistered]
    exact .refl world.manager
  | true =>
    obtain ⟨failure, -, hlogged⟩ | ⟨asked, hlogged, -, hforgotten⟩ := world.run_remove_cases id
    · exact hlogged.silent.tells
    · rw [hforgotten]
      exact hlogged.silent.tells.trans (Manager.tells_forget (hlogged.alike.registry ▸ hregistered))

theorem silent_runStateChange (hkeyed : world.manager.Keyed) (id : String) (state expiry : Field) (reply : Reply) :
    world.manager.Silent
      (world.runStateChange id (world.manager.beginStateChange id state expiry reply)).1.manager := by
  cases hrecord : world.manager.registry.get? id with
  | none =>
    rw [Manager.beginStateChange_of_absent ((Registry.contains_eq_false_iff _ _).mpr hrecord)]
    exact .refl world.manager
  | some record =>
    obtain ⟨note, hbegin⟩ := Manager.exists_beginStateChange_eq hrecord state expiry reply
    rw [hbegin]
    let expiry := Registry.expiryOrNever expiry
    let restated := (world.manager.restate id state expiry world.manager.clock).note note
    have hrestated : world.manager.Silent restated :=
      (world.manager.silent_restate hkeyed id state expiry world.manager.clock).trans (Manager.noted_note _ note).silent
    unfold runStateChange
    cases world.manager.table with
    | none => exact hrestated
    | some table =>
      let request : TableRequest := .put id (record.details.withOperational state expiry)
      have hasked := hrestated.trans ((world.withManager restated).noted_ask table request).silent
      exact hasked.trans (Manager.silent_settleWrite _ id _)

theorem tells_serve (hsound : world.manager.Sound) {request : OperationRequest} (hreadable : request.IsReadable) :
    world.manager.Tells (world.serve request).1.manager := by
  cases request with
  | register offered nodeReport pipelineReport layout =>
    obtain ⟨refused, failure, hnoted, hserved⟩ | ⟨details, -, hkept, hserved⟩ :=
      world.serve_register_cases offered nodeReport pipelineReport layout
    · rw [hserved]
      exact hnoted.silent.tells
    · rw [hserved]
      exact tells_run_register hsound hkept hreadable
  | heartbeat offered report =>
    cases hdetails : Details.ofField offered with
    | error failure =>
      rw [serve_heartbeat_refused hdetails]
      exact .refl world.manager
    | ok details =>
      rw [serve_heartbeat_admitted hdetails]
      exact tells_run_heartbeat hsound.keyed details report world.clock
  | remove id => exact world.tells_run_remove id
  | setState id state expiry =>
    rw [serve_setState, run_setState]
    exact (silent_runStateChange hsound.keyed id state expiry .nothing).tells
  | reconcile id state expiry =>
    rw [serve_reconcile, run_reconcile]
    obtain ⟨outcome, -, hbegin⟩ | ⟨noted, hlogged, hbegin⟩ := world.manager.beginReconcile_cases id state expiry
    · rw [hbegin]
      exact .refl world.manager
    · rw [hbegin]
      have hkeyed : (world.withManager noted).manager.Keyed := hlogged.alike.tended.keyed hsound.keyed
      exact (hlogged.silent.trans (silent_runStateChange hkeyed id state expiry (.changed true))).tells

/-- A load announces every datanode that it registers. -/
theorem tells_load (hsound : world.manager.Sound) : world.manager.Tells world.load.1.manager := by
  have hloaded : world.load.1.manager.Sound ∧ world.manager.Tells world.load.1.manager := by
    apply load_induction (P := fun reached ↦ reached.manager.Sound ∧ world.manager.Tells reached.manager)
      _ _ _ _ ⟨hsound, .refl world.manager⟩
    · intro reached number request ⟨hready, htells⟩
      have hasked := reached.noted_ask number request
      exact ⟨hready.alike hasked.alike, htells.trans hasked.silent.tells⟩
    · intro reached after ⟨hready, htells⟩ hnoted
      exact ⟨hready.alike hnoted.alike, htells.trans hnoted.silent.tells⟩
    · intro reached field details ⟨hready, htells⟩ hscreen
      have hkept : (reached.manager.storedRegistration details).details.Kept := (Manager.kept_of_screen hscreen).2.1
      exact ⟨sound_run_register hready _ hkept, htells.trans (tells_run_register hready hkept nofun)⟩
    · intro reached number hready
      rwa [manager_iterate]
  exact hloaded.2

/-! ## Runs -/

/-- Every move publishes what it does to the roster. -/
theorem tells_move (hsound : world.manager.Sound) {move : Move} (hreadable : move.IsReadable) :
    world.manager.Tells (world.move move).manager := by
  cases move with
  | call call =>
    cases call with
    | operate request => exact tells_serve hsound hreadable
    | queue id command =>
      unfold World.move World.call
      simp only
      split
      · next hadded => exact (Manager.silent_of_addCommand hadded).tells
      · exact .refl world.manager
    | take id command =>
      unfold World.move World.call Service.onCommand
      simp only
      split
      · exact (world.manager.noted_note _).silent.tells
      · exact (world.manager.silent_onCommand id command).tells
    | purge id => exact Manager.Silent.tells (.of_registry rfl rfl)
    | refreshUsage =>
      unfold World.move World.call Service.refreshUsage
      simp only
      split
      · exact .refl world.manager
      · exact Manager.Silent.tells (.of_registry rfl rfl)
    | sweep moment => exact world.manager.tells_checkHeartbeats hsound.keyed _
    | load => exact tells_load hsound
    | switch table =>
      have hswitched : world.manager.Silent (world.switchTable table).manager := .of_registry rfl rfl
      exact hswitched.tells.trans (tells_load (sound_switchTable hsound table))
  | _ => exact Manager.Silent.tells (.of_registry rfl rfl)

theorem tells_after (hsound : world.manager.Sound) {moves : List Move}
    (hreadable : ∀ move ∈ moves, move.IsReadable) : world.manager.Tells (world.after moves).manager := by
  unfold after
  induction moves generalizing world with
  | nil => exact .refl world.manager
  | cons move rest ih =>
    have hmoved := tells_move hsound (hreadable move List.mem_cons_self)
    exact hmoved.trans (ih (sound_move hsound move) fun other hmem ↦ hreadable other (List.mem_cons_of_mem move hmem))

/-- From a start with nothing in memory and nothing published, the events give after every run the registered
datanodes with their health.  Each event says what is true when it is replayed: a registration is of a new datanode
exactly when nobody is registered under the identifier, a change of health names the health before it and another
one after it, and a removal is of a registered datanode. -/
theorem events_replay_registry_after {world : World} (hempty : world.manager.HasEmptyMemory)
    (hunpublished : world.manager.trace.events = []) {moves : List Move}
    (hreadable : ∀ move ∈ moves, move.IsReadable) :
    let reached := (world.after moves).manager
    Event.replay reached.trace.events = reached.health? ∧
      ∀ past event rest, reached.trace.events = past ++ event :: rest → event.Fits (Event.replay past) := by
  intro reached
  obtain ⟨told, htold, hnarrates⟩ := tells_after hempty.sound hreadable
  have hnobody : world.manager.health? = fun _ ↦ none := by
    funext id
    unfold Manager.health?
    rw [hempty.registry]
    rfl
  rw [hunpublished, List.nil_append] at htold
  rw [hnobody] at hnarrates
  refine ⟨?_, fun past event rest hsplit ↦ hnarrates.fits (htold.symm.trans hsplit)⟩
  rw [Event.replay, htold]
  exact hnarrates.foldl_eq

/-- A datanode that was found stale and is heard of again is healthy in the replayed events. -/
theorem events_replay_registry_after_recovery :
    let world := initial Configuration.default
    let heartbeat := OperationRequest.heartbeat (some (Details.sample "/rack1").toValue) {}
    let moves := [Move.sample "/rack1", .tick 400000, .call (.sweep none), .call (.operate heartbeat)]
    let reached := (world.after moves).manager
    world.manager.HasEmptyMemory ∧ world.manager.trace.events = [] ∧ (∀ move ∈ moves, move.IsReadable) ∧
      Event.replay reached.trace.events = reached.health? ∧
      Event.replay reached.trace.events (Details.sample "").id = some .healthy ∧
      reached.trace.events.map Event.type =
        ["datanode:registered", "datanode:health-changed", "datanode:health-changed"] := by
  intro world heartbeat moves reached
  have hempty : world.manager.HasEmptyMemory := hasEmptyMemory_initial Configuration.default
  have hunpublished : world.manager.trace.events = [] := by decide +kernel
  have hreadable : ∀ move ∈ moves, move.IsReadable := by
    simp only [moves, List.forall_mem_cons]
    exact ⟨nofun, trivial, trivial, trivial, List.forall_mem_nil _⟩
  have hreached : (world.after moves).manager = reached := rfl
  obtain ⟨hreplay, -⟩ := events_replay_registry_after hempty hunpublished hreadable
  rw [hreached] at hreplay
  have hhealthy : Event.replay reached.trace.events (Details.sample "").id = some .healthy := by decide +kernel
  have htypes : reached.trace.events.map Event.type =
      ["datanode:registered", "datanode:health-changed", "datanode:health-changed"] := by decide +kernel
  exact ⟨hempty, hunpublished, hreadable, hreplay, hhealthy, htypes⟩

end World

end ClusterMembership
