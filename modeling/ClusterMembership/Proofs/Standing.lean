import ClusterMembership.Service.Loading

/-!
# What everyday operations keep

Heartbeats, sweeps, reports and commands come and go while the membership stays: the same datanodes are
registered with the same details, operational states and expiries, at the same places, none that was known
is forgotten, and commands are queued for registered datanodes only.  `Manager.Tended` says this of two
states of a manager.  It is reflexive and transitive, and there is one lemma for each function of the
service that is of this kind, so that an invariant has to be carried through all of them only once.
-/

namespace ClusterMembership

/-- The part of a record that only registrations and changes of the operational state replace. -/
structure Standing where
  details : Details
  operational : Field
  expiry : Field
  deriving DecidableEq

/-- What a manager knows of its datanodes, apart from its settings, the time and the trace. -/
structure Stores where
  registry : Registry
  commands : CommandQueue
  known : KnownNodes
  topology : Topology
  unsynced : List String

structure Settings where
  configuration : Configuration
  layout : Layout
  authority : StateAuthority
  table : Option Nat

def NodeRecord.standing (record : NodeRecord) : Standing :=
  ⟨record.details, record.status.operational, record.status.expiry⟩

namespace Manager

def stores (manager : Manager) : Stores :=
  ⟨manager.registry, manager.commands, manager.known, manager.topology, manager.unsynced⟩

def settings (manager : Manager) : Settings :=
  ⟨manager.configuration, manager.layout, manager.authority, manager.table⟩

def standing (manager : Manager) (id : String) : Option Standing :=
  (manager.registry.get? id).map NodeRecord.standing

/-- Every record stands under the identifier of its details. -/
def Keyed (manager : Manager) : Prop :=
  ∀ {id record}, manager.registry.get? id = some record → record.id = id

/-- Two states of a manager that differ in nothing but the cluster, the clock and the trace. -/
structure Alike (before after : Manager) : Prop where
  stores : after.stores = before.stores
  settings : after.settings = before.settings

/-- Two states of a manager that differ in nothing but the cluster and the log. -/
def Noted (before after : Manager) : Prop :=
  ∃ cluster entries, after = { before with cluster, trace := { before.trace with entries } }

/-- Two states of a manager that differ in nothing but the records, the waiting commands and the trace. -/
def Monitored (before after : Manager) : Prop :=
  ∃ registry commands trace, after = { before with registry, commands, trace }

/-- Two states of a manager with the same membership; only for its members commands were queued and counts
noted in between. -/
structure Tended (before after : Manager) : Prop where
  standing : ∀ id, after.standing id = before.standing id
  placed : ∀ id, after.topology.location? id = before.topology.location? id
  known : ∀ {id}, before.known.peek id ≠ none → after.known.peek id ≠ none
  unsynced : after.unsynced = before.unsynced
  queued : ∀ {id}, after.commands.peek id ≠ [] →
    before.commands.peek id ≠ [] ∨ before.registry.contains id = true
  held : ∀ {id}, after.commands.reported? id ≠ none →
    before.commands.reported? id ≠ none ∨ before.registry.contains id = true
  settings : after.settings = before.settings

theorem contains_eq_isSome_standing (manager : Manager) (id : String) :
    manager.registry.contains id = (manager.standing id).isSome :=
  (Option.isSome_map (x := manager.registry.get? id) (f := NodeRecord.standing)).symm

theorem standing_eq_some {manager : Manager} {id : String} {record : NodeRecord}
    (h : manager.registry.get? id = some record) : manager.standing id = some record.standing := by
  rw [standing, h, Option.map_some]

theorem exists_record_of_standing {manager : Manager} {id : String} {standing : Standing}
    (h : manager.standing id = some standing) :
    ∃ record, manager.registry.get? id = some record ∧ record.standing = standing :=
  Option.map_eq_some_iff.mp h

namespace Alike

variable {before middle after : Manager}

protected theorem refl (manager : Manager) : manager.Alike manager := ⟨rfl, rfl⟩

protected theorem trans (hfirst : before.Alike middle) (hsecond : middle.Alike after) :
    before.Alike after :=
  ⟨hsecond.stores.trans hfirst.stores, hsecond.settings.trans hfirst.settings⟩

theorem registry (h : before.Alike after) : after.registry = before.registry :=
  congrArg Stores.registry h.stores

theorem commands (h : before.Alike after) : after.commands = before.commands :=
  congrArg Stores.commands h.stores

theorem known (h : before.Alike after) : after.known = before.known := congrArg Stores.known h.stores

theorem topology (h : before.Alike after) : after.topology = before.topology :=
  congrArg Stores.topology h.stores

theorem unsynced (h : before.Alike after) : after.unsynced = before.unsynced :=
  congrArg Stores.unsynced h.stores

theorem standing (h : before.Alike after) (id : String) : after.standing id = before.standing id := by
  unfold Manager.standing
  rw [h.registry]

end Alike

namespace Tended

variable {before middle after : Manager}

protected theorem refl (manager : Manager) : manager.Tended manager where
  standing _ := rfl
  placed _ := rfl
  known := id
  unsynced := rfl
  queued := .inl
  held := .inl
  settings := rfl

theorem contains (h : before.Tended after) (id : String) :
    after.registry.contains id = before.registry.contains id := by
  rw [contains_eq_isSome_standing, contains_eq_isSome_standing, h.standing]

protected theorem trans (hfirst : before.Tended middle) (hsecond : middle.Tended after) :
    before.Tended after where
  standing id := (hsecond.standing id).trans (hfirst.standing id)
  placed id := (hsecond.placed id).trans (hfirst.placed id)
  known h := hsecond.known (hfirst.known h)
  unsynced := hsecond.unsynced.trans hfirst.unsynced
  queued := fun {id} hqueued ↦ by
    rcases hsecond.queued hqueued with hmiddle | hregistered
    · exact hfirst.queued hmiddle
    · exact .inr (hfirst.contains id ▸ hregistered)
  held := fun {id} hheld ↦ by
    rcases hsecond.held hheld with hmiddle | hregistered
    · exact hfirst.held hmiddle
    · exact .inr (hfirst.contains id ▸ hregistered)
  settings := hsecond.settings.trans hfirst.settings

theorem keyed (h : before.Tended after) (hkeyed : before.Keyed) : after.Keyed := by
  intro id record hrecord
  have hstanding := (h.standing id).symm.trans (standing_eq_some hrecord)
  obtain ⟨previous, hprevious, hsame⟩ := exists_record_of_standing hstanding
  have hdetails : previous.details = record.details := congrArg Standing.details hsame
  rw [NodeRecord.id, ← hdetails]
  exact hkeyed hprevious

/-- Folding steps that each keep the membership keeps it. -/
theorem foldl {α β : Type} {step : β → α → β} (state : β → Manager) (items : List α) (start : β)
    (hstep : ∀ current, (state start).Tended (state current) → ∀ item ∈ items,
      (state current).Tended (state (step current item))) :
    (state start).Tended (state (items.foldl step start)) := by
  suffices h : ∀ (rest : List α) (current : β), (∀ item ∈ rest, item ∈ items) → (state start).Tended (state current) →
      (state start).Tended (state (rest.foldl step current)) from
    h items start (fun _ hitem ↦ hitem) (.refl _)
  intro rest
  induction rest with
  | nil => exact fun _ _ hcurrent ↦ hcurrent
  | cons item rest ih =>
    intro current hrest hcurrent
    have hitem := hstep current hcurrent item (hrest item List.mem_cons_self)
    exact ih (step current item) (fun other hother ↦ hrest other (List.mem_cons_of_mem _ hother))
      (hcurrent.trans hitem)

end Tended

theorem Alike.tended {before after : Manager} (h : before.Alike after) : before.Tended after where
  standing := h.standing
  placed _ := by rw [h.topology]
  known hknown := h.known ▸ hknown
  unsynced := h.unsynced
  queued hqueued := .inl (h.commands ▸ hqueued)
  held hheld := .inl (h.commands ▸ hheld)
  settings := h.settings

/-! ## Notes -/

namespace Noted

variable {before middle after : Manager}

protected theorem refl (manager : Manager) : manager.Noted manager :=
  ⟨manager.cluster, manager.trace.entries, rfl⟩

protected theorem trans (hfirst : before.Noted middle) (hsecond : middle.Noted after) : before.Noted after := by
  obtain ⟨_, _, rfl⟩ := hfirst
  obtain ⟨cluster, entries, rfl⟩ := hsecond
  exact ⟨cluster, entries, rfl⟩

theorem alike (h : before.Noted after) : before.Alike after := by
  obtain ⟨_, _, rfl⟩ := h
  exact ⟨rfl, rfl⟩

theorem events (h : before.Noted after) : after.trace.events = before.trace.events := by
  obtain ⟨_, _, rfl⟩ := h
  rfl

end Noted

namespace Monitored

variable {before middle after : Manager}

protected theorem refl (manager : Manager) : manager.Monitored manager :=
  ⟨manager.registry, manager.commands, manager.trace, rfl⟩

protected theorem trans (hfirst : before.Monitored middle) (hsecond : middle.Monitored after) :
    before.Monitored after := by
  obtain ⟨_, _, _, rfl⟩ := hfirst
  obtain ⟨registry, commands, trace, rfl⟩ := hsecond
  exact ⟨registry, commands, trace, rfl⟩

theorem known (h : before.Monitored after) : after.known = before.known := by
  obtain ⟨_, _, _, rfl⟩ := h
  rfl

theorem cluster (h : before.Monitored after) : after.cluster = before.cluster := by
  obtain ⟨_, _, _, rfl⟩ := h
  rfl

theorem clock (h : before.Monitored after) : after.clock = before.clock := by
  obtain ⟨_, _, _, rfl⟩ := h
  rfl

theorem settings (h : before.Monitored after) : after.settings = before.settings := by
  obtain ⟨_, _, _, rfl⟩ := h
  rfl

end Monitored

variable (manager : Manager)

theorem noted_note (note : Note) : manager.Noted (manager.note note) := ⟨manager.cluster, _, rfl⟩

theorem noted_withCluster (cluster : ClusterContext) : manager.Noted { manager with cluster := cluster } :=
  ⟨cluster, manager.trace.entries, rfl⟩

theorem noted_noteAll (notes : List Note) : manager.Noted (manager.noteAll notes) := by
  unfold noteAll
  induction notes generalizing manager with
  | nil => exact .refl manager
  | cons note rest ih => exact (manager.noted_note note).trans (ih (manager.note note))

/-- Notes change nothing but the log. -/
theorem exists_noteAll_eq (notes : List Note) :
    ∃ entries, manager.noteAll notes = { manager with trace := { manager.trace with entries } } := by
  unfold noteAll
  induction notes generalizing manager with
  | nil => exact ⟨manager.trace.entries, rfl⟩
  | cons note rest ih => exact ih (manager.note note)

theorem alike_note (note : Note) : manager.Alike (manager.note note) := (manager.noted_note note).alike

theorem alike_publish (event : Event) : manager.Alike (manager.publish event) := ⟨rfl, rfl⟩

theorem alike_withCluster (cluster : ClusterContext) : manager.Alike { manager with cluster := cluster } :=
  (manager.noted_withCluster cluster).alike

theorem alike_noteAll (notes : List Note) : manager.Alike (manager.noteAll notes) :=
  (manager.noted_noteAll notes).alike

theorem tended_note (note : Note) : manager.Tended (manager.note note) := (manager.alike_note note).tended

/-! ## Single stores -/

/-- A change of a record that keeps its standing. -/
theorem tended_amend (hkeyed : manager.Keyed) (id : String) (change : NodeRecord → NodeRecord)
    (hchange : ∀ record, (change record).standing = record.standing) :
    manager.Tended { manager with registry := manager.registry.amend id change } := by
  have hid : ∀ record, manager.registry.get? id = some record → (change record).id = id := by
    intro record hrecord
    have hdetails : (change record).details = record.details :=
      congrArg Standing.details (hchange record)
    rw [NodeRecord.id, hdetails]
    exact hkeyed hrecord
  exact
    { Tended.refl manager with
      standing := fun other ↦ by
        unfold standing
        rw [Registry.get?_amend _ _ _ _ hid]
        by_cases h : id = other
        · rw [if_pos h, Option.map_map, ← h]
          exact congrArg (fun read ↦ (manager.registry.get? id).map read) (funext hchange)
        · rw [if_neg h] }

/-- A change of the queues that gives nothing to datanodes that are not registered. -/
theorem tended_commands (commands : CommandQueue)
    (hqueued : ∀ {id}, commands.peek id ≠ [] →
      manager.commands.peek id ≠ [] ∨ manager.registry.contains id = true)
    (hheld : ∀ {id}, commands.reported? id ≠ none →
      manager.commands.reported? id ≠ none ∨ manager.registry.contains id = true) :
    manager.Tended { manager with commands := commands } :=
  { Tended.refl manager with queued := hqueued, held := hheld }

theorem tended_add {id : String} (hregistered : manager.registry.contains id = true) (command : Command)
    (now : Instant) : manager.Tended { manager with commands := manager.commands.add id command now } := by
  apply manager.tended_commands (manager.commands.add id command now)
  · intro other hother
    by_cases h : id = other
    · exact .inr (h ▸ hregistered)
    · rw [CommandQueue.peek_add, if_neg h] at hother
      exact .inl hother
  · exact .inl

/-! ## Commands -/

theorem tended_purgeCommands (id : String) : manager.Tended (manager.purgeCommands id).1 := by
  apply manager.tended_commands (manager.commands.purge id).1
  · intro other hother
    rw [CommandQueue.peek_purge] at hother
    split at hother
    · exact absurd rfl hother
    · exact .inl hother
  · intro other hother
    rw [CommandQueue.reported?_purge] at hother
    split at hother
    · exact absurd rfl hother
    · exact .inl hother

theorem tended_drainCommands (id : String) : manager.Tended (manager.drainCommands id).1 := by
  apply manager.tended_commands (manager.commands.drain id).1
  · intro other hother
    rw [CommandQueue.peek_drain] at hother
    split at hother
    · exact absurd rfl hother
    · exact .inl hother
  · exact .inl

variable {manager} in
theorem tended_of_addCommand {id : String} {command : Command} {after : Manager}
    (h : manager.addCommand id command = .ok after) : manager.Tended after := by
  unfold addCommand at h
  split at h
  · next hregistered =>
    rw [← Except.ok.inj h]
    exact manager.tended_add hregistered command manager.clock
  · simp at h

theorem tended_onCommand (id : String) (command : Command) :
    manager.Tended (manager.onCommand id command) := by
  unfold onCommand
  split
  · next hregistered => exact manager.tended_add hregistered command manager.clock
  · exact manager.tended_note _

theorem contains_of_mem_values {manager : Manager} (hkeyed : manager.Keyed) {record : NodeRecord}
    (h : record ∈ manager.registry.records.values) : manager.registry.contains record.id = true := by
  obtain ⟨key, hkey⟩ := (OrderedMap.mem_values_iff _ _).mp h
  have hrecord : manager.registry.get? key = some record := hkey
  rw [hkeyed hrecord]
  exact (Registry.contains_iff _ _).mpr ⟨record, hrecord⟩

theorem contains_of_mem_healthyInService {manager : Manager} (hkeyed : manager.Keyed) {id : String}
    (h : id ∈ manager.healthyInService) : manager.registry.contains id = true := by
  obtain ⟨record, hlisted, hid⟩ := List.mem_map.mp h
  rw [← hid]
  exact contains_of_mem_values hkeyed (List.mem_filter.mp hlisted).1

/-- A request to refresh reaches registered datanodes only. -/
theorem tended_refreshUsage (hkeyed : manager.Keyed) : manager.Tended manager.refreshUsage.1 := by
  let command := Command.issue .refreshUsage (.object []) manager.clock
  have hasked : manager.Tended
      { manager with
        commands := manager.healthyInService.foldl
          (fun queue id ↦ queue.add id command manager.clock) manager.commands } :=
    Tended.foldl (fun queue ↦ { manager with commands := queue })
      manager.healthyInService manager.commands fun current _ id hid ↦
        tended_add { manager with commands := current } (contains_of_mem_healthyInService hkeyed hid)
          command manager.clock
  exact hasked.trans (tended_note _ _)

/-! ## Reports -/

variable {manager} in
/-- Without a report nothing is noted, and otherwise the usage in the record of the datanode. -/
theorem noteUsage_cases {id : String} {report : Option NodeReport} {now : Instant} {after : Manager}
    (h : manager.noteUsage id report now = .ok after) :
    after = manager ∨
      ∃ usage, after = { manager with registry := manager.registry.amend id (Registry.stocked usage now) } := by
  unfold noteUsage at h
  split at h
  · exact .inl (Except.ok.inj h).symm
  · next report =>
    cases husage : report.usage with
    | error failure => simp [husage, Except.map] at h
    | ok usage =>
      rw [husage, Except.map] at h
      exact .inr ⟨usage, (Except.ok.inj h).symm⟩

variable {manager} in
theorem tended_of_noteUsage (hkeyed : manager.Keyed) {id : String} {report : Option NodeReport}
    {now : Instant} {after : Manager} (h : manager.noteUsage id report now = .ok after) :
    manager.Tended after := by
  obtain rfl | ⟨usage, rfl⟩ := noteUsage_cases h
  · exact .refl after
  · exact manager.tended_amend hkeyed id _ fun _ ↦ rfl

/-- The commands that wait once the one to finalize was queued for a datanode, when it is due. -/
def finalizing (id : String) (reported : LayoutReport) (now : Instant) : CommandQueue :=
  match manager.layout.commandFor reported now with
  | none => manager.commands
  | some command => manager.commands.add id command now

theorem exists_queueFinalize_eq (id : String) (details : Details) (reported : LayoutReport) (now : Instant) :
    ∃ entries, manager.queueFinalize id details reported now =
      { manager with
        commands := manager.finalizing id reported now
        trace := { manager.trace with entries } } := by
  obtain ⟨entries, hnoted⟩ := manager.exists_noteAll_eq (manager.layout.checkNotes details reported)
  unfold queueFinalize finalizing
  rw [hnoted]
  cases manager.layout.commandFor reported now <;> exact ⟨entries, rfl⟩

theorem tended_queueFinalize {id : String} (hregistered : manager.registry.contains id = true)
    (details : Details) (reported : LayoutReport) (now : Instant) :
    manager.Tended (manager.queueFinalize id details reported now) := by
  have hnoted := (manager.alike_noteAll (manager.layout.checkNotes details reported)).tended
  unfold queueFinalize
  simp only
  split
  · exact hnoted
  · next command _ =>
    exact hnoted.trans (tended_add _ (hnoted.contains id ▸ hregistered) command now)

theorem tended_noteHeld {id : String} (hregistered : manager.registry.contains id = true)
    (counts : Option HeldCounts) : manager.Tended (manager.noteHeld id counts) := by
  unfold noteHeld
  split
  · exact .refl manager
  · next counts =>
    apply manager.tended_commands (manager.commands.recordHeld id counts)
    · exact .inl
    · intro other hother
      rw [CommandQueue.reported?_recordHeld] at hother
      split at hother
      · next hsame => exact .inr (hsame ▸ hregistered)
      · exact .inl hother

variable {manager} in
/-- The reports of a heartbeat are taken one after another: the usage, the layout if there is one, and the counts. -/
theorem takeReports_cases {id : String} {details : Details} {report : HeartbeatReport} {now : Instant}
    {after : Manager} (h : manager.takeReports id details report now = .ok after) :
    ∃ stocked queued, manager.noteUsage id report.nodeReport now = .ok stocked ∧
      (report.layout = none ∧ queued = stocked ∨
        ∃ reported, report.layout = some reported ∧ queued = stocked.queueFinalize id details reported now) ∧
      after = queued.noteHeld id report.heldCounts := by
  unfold takeReports at h
  cases hstocked : manager.noteUsage id report.nodeReport now with
  | error failure => simp [hstocked, Except.map] at h
  | ok stocked =>
    rw [hstocked, Except.map] at h
    refine ⟨stocked, _, rfl, ?_, (Except.ok.inj h).symm⟩
    cases report.layout with
    | none => exact .inl ⟨rfl, rfl⟩
    | some reported => exact .inr ⟨reported, rfl, rfl⟩

variable {manager} in
theorem tended_of_takeReports (hkeyed : manager.Keyed) {id : String}
    (hregistered : manager.registry.contains id = true) {details : Details} {report : HeartbeatReport}
    {now : Instant} {after : Manager} (h : manager.takeReports id details report now = .ok after) :
    manager.Tended after := by
  obtain ⟨stocked, queued, hstocked, hqueued, rfl⟩ := takeReports_cases h
  have hkept := tended_of_noteUsage hkeyed hstocked
  have hstill : stocked.registry.contains id = true := hkept.contains id ▸ hregistered
  obtain ⟨-, rfl⟩ | ⟨reported, -, rfl⟩ := hqueued
  · exact hkept.trans (tended_noteHeld _ hstill _)
  · have hfinalizing := tended_queueFinalize stocked hstill details reported now
    exact (hkept.trans hfinalizing).trans (tended_noteHeld _ (hfinalizing.contains id ▸ hstill) _)

variable {manager} in
/-- After the usage is noted, reports touch nothing but the waiting commands and the log. -/
theorem exists_stocked_of_takeReports {id : String} {details : Details} {report : HeartbeatReport} {now : Instant}
    {after : Manager} (h : manager.takeReports id details report now = .ok after) :
    ∃ stocked, manager.noteUsage id report.nodeReport now = .ok stocked ∧
      ∃ commands entries, after = { stocked with commands, trace := { stocked.trace with entries } } := by
  obtain ⟨stocked, queued, hstocked, hqueued, rfl⟩ := takeReports_cases h
  refine ⟨stocked, hstocked, ?_⟩
  have hfinalized : ∃ commands entries,
      queued = { stocked with commands, trace := { stocked.trace with entries } } := by
    obtain ⟨-, rfl⟩ | ⟨reported, -, rfl⟩ := hqueued
    · exact ⟨queued.commands, queued.trace.entries, rfl⟩
    · exact ⟨_, stocked.exists_queueFinalize_eq id details reported now⟩
  obtain ⟨commands, entries, rfl⟩ := hfinalized
  unfold noteHeld
  split <;> exact ⟨_, entries, rfl⟩

variable {manager} in
theorem monitored_of_takeReports {id : String} {details : Details} {report : HeartbeatReport} {now : Instant}
    {after : Manager} (h : manager.takeReports id details report now = .ok after) : manager.Monitored after := by
  obtain ⟨stocked, hstocked, commands, entries, rfl⟩ := exists_stocked_of_takeReports h
  obtain rfl | ⟨usage, rfl⟩ := noteUsage_cases hstocked <;> exact ⟨_, _, _, rfl⟩

/-! ## Heartbeats -/

theorem tended_hear (hkeyed : manager.Keyed) (id : String) (previous : Health)
    (layout : Option LayoutReport) (now : Instant) :
    manager.Tended (manager.hear id previous layout now) := by
  have hheard : manager.Tended
      { manager with registry := manager.registry.amend id (Registry.heard layout now) } :=
    manager.tended_amend hkeyed id _ fun _ ↦ rfl
  unfold hear
  simp only
  split
  · exact hheard
  · exact (hheard.trans (tended_note _ _)).trans (alike_publish _ _).tended

/-- A manager that enforces its operational states answers a difference with a command. -/
theorem tended_settleState (henforced : manager.authority = .enforce) (details : Details) (now : Instant) :
    manager.Tended (manager.settleState details now) := by
  unfold settleState
  simp only [henforced]
  split
  · exact .refl manager
  · next record hrecord =>
    have hregistered : manager.registry.contains details.id = true :=
      (Registry.contains_iff _ _).mpr ⟨record, hrecord⟩
    split
    · exact .refl manager
    · apply Tended.trans (manager.tended_note _)
      apply tended_add
      exact hregistered

/-- A heartbeat is heard and its reports are taken before anything is settled. -/
theorem tended_hear_takeReports {manager : Manager} (hkeyed : manager.Keyed) {id : String}
    (hregistered : manager.registry.contains id = true) {previous : Health} {details : Details}
    {report : HeartbeatReport} {now : Instant} {reported : Manager}
    (h : (manager.hear id previous report.layout now).takeReports id details report now = .ok reported) :
    manager.Tended reported := by
  have hheard := manager.tended_hear hkeyed id previous report.layout now
  exact hheard.trans
    (tended_of_takeReports (hheard.keyed hkeyed) (hheard.contains id ▸ hregistered) h)

theorem tended_heartbeat (hkeyed : manager.Keyed) (henforced : manager.authority = .enforce)
    (details : Details) (report : HeartbeatReport) (now : Instant) :
    manager.Tended (manager.heartbeat details report now).1 := by
  unfold heartbeat
  simp only
  split
  · exact manager.tended_note _
  · next record hrecord =>
    have hregistered : manager.registry.contains details.id = true :=
      (Registry.contains_iff _ _).mpr ⟨record, hrecord⟩
    split
    · exact manager.tended_hear hkeyed _ _ _ _
    · next reported htaken =>
      have hreported := tended_hear_takeReports hkeyed hregistered htaken
      have hauthority : reported.authority = .enforce :=
        (congrArg Settings.authority hreported.settings).trans henforced
      exact (hreported.trans (tended_settleState reported hauthority details now)).trans
        (tended_drainCommands _ _)

theorem monitored_heartbeat (details : Details) (report : HeartbeatReport) (now : Instant) :
    manager.Monitored (manager.heartbeat details report now).1 := by
  have hheard (previous : Health) : manager.Monitored (manager.hear details.id previous report.layout now) := by
    unfold hear
    split <;> exact ⟨_, manager.commands, _, rfl⟩
  have hsettled (reported : Manager) : reported.Monitored (reported.settleState details now) := by
    unfold settleState
    simp only
    split
    · exact .refl reported
    · split
      · exact .refl reported
      · split <;> exact ⟨_, _, _, rfl⟩
  unfold heartbeat
  simp only
  split
  · exact ⟨manager.registry, manager.commands, _, rfl⟩
  · split
    · exact hheard _
    · next reported htaken =>
      have hdrained : (reported.settleState details now).Monitored
          ((reported.settleState details now).drainCommands details.id).1 := ⟨_, _, _, rfl⟩
      exact (((hheard _).trans (monitored_of_takeReports htaken)).trans (hsettled reported)).trans hdrained

/-! ## Sweeps -/

theorem standing_classified (health : Health) (now : Instant) (record : NodeRecord) :
    (Registry.classified health now record).standing = record.standing := by
  unfold Registry.classified
  split <;> rfl

theorem tended_sweepOne (state : Manager × SweepResult) (hkeyed : state.1.Keyed) (now : Instant)
    (record : NodeRecord) : state.1.Tended (sweepOne now state record).1 := by
  obtain ⟨manager, result⟩ := state
  have hclassified (health : Health) : manager.Tended
      { manager with
        registry := manager.registry.amend record.id (Registry.classified health now) } :=
    manager.tended_amend hkeyed record.id _ (standing_classified health now)
  unfold sweepOne
  simp only
  split
  · exact .refl manager
  · split
    · exact (((hclassified _).trans (tended_purgeCommands _ record.id)).trans (tended_note _ _)).trans
        (alike_publish _ _).tended
    · exact ((hclassified _).trans (tended_note _ _)).trans (alike_publish _ _).tended

theorem tended_sweep (hkeyed : manager.Keyed) (now : Instant) :
    manager.Tended (manager.sweep now).1 :=
  Tended.foldl Prod.fst manager.registry.records.values (manager, ({} : SweepResult))
    fun current hcurrent record _ ↦
    tended_sweepOne current (hcurrent.keyed hkeyed) now record

theorem tended_checkHeartbeats (hkeyed : manager.Keyed) (now : Instant) :
    manager.Tended (manager.checkHeartbeats now).1 := by
  have hswept := manager.tended_sweep hkeyed now
  unfold checkHeartbeats
  simp only
  split
  · exact hswept
  · exact hswept.trans (tended_note _ _)

theorem monitored_checkHeartbeats (now : Instant) : manager.Monitored (manager.checkHeartbeats now).1 := by
  have hone (state : Manager × SweepResult) (record : NodeRecord) :
      state.1.Monitored (sweepOne now state record).1 := by
    unfold sweepOne
    simp only
    split
    · exact .refl state.1
    · split <;> exact ⟨_, _, _, rfl⟩
  have hswept : manager.Monitored (manager.sweep now).1 :=
    List.foldlRecOn (motive := fun state ↦ manager.Monitored state.1) _ _ (.refl manager)
      fun state hstate record _ ↦ hstate.trans (hone state record)
  unfold checkHeartbeats
  simp only
  split
  · exact hswept
  · exact hswept.trans ⟨_, _, _, rfl⟩

/-! ## Registrations and loads, apart from the placement -/

theorem noted_screen (offered : Field) : manager.Noted (manager.screen offered).1 := by
  unfold screen
  split
  · exact .refl manager
  · exact .refl manager
  · split
    · exact .refl manager
    · exact manager.noted_note _

theorem alike_screen (offered : Field) : manager.Alike (manager.screen offered).1 :=
  (manager.noted_screen offered).alike

theorem noted_refuse (details : Details) (refusal : Refusal) :
    manager.Noted (manager.refuse details refusal).1 :=
  (manager.noted_note _).trans (noted_withCluster _ _)

theorem alike_refuse (details : Details) (refusal : Refusal) :
    manager.Alike (manager.refuse details refusal).1 :=
  (manager.noted_refuse details refusal).alike

/-- An announcement publishes and logs. -/
theorem exists_announce_eq (placed : PlacedRegistration) :
    ∃ trace, manager.announce placed = { manager with trace } := by
  unfold announce
  simp only
  split
  · split <;> exact ⟨_, rfl⟩
  · exact ⟨_, rfl⟩

theorem alike_announce (placed : PlacedRegistration) : manager.Alike (manager.announce placed) := by
  obtain ⟨trace, hannounced⟩ := manager.exists_announce_eq placed
  rw [hannounced]
  exact ⟨rfl, rfl⟩

/-- Completing a registration touches the records, the waiting commands, the condition of the cluster and the trace. -/
theorem exists_frame_completeRegistration (placed : PlacedRegistration) :
    ∃ registry commands cluster trace,
      (manager.completeRegistration placed).1 = { manager with registry, commands, cluster, trace } := by
  unfold completeRegistration
  simp only
  split
  · exact ⟨manager.registry, manager.commands, manager.cluster, manager.trace, rfl⟩
  · next stocked hstocked =>
    obtain ⟨entries, hqueued⟩ :=
      stocked.exists_queueFinalize_eq placed.request.details.id placed.stored placed.layout placed.now
    rw [hqueued]
    obtain ⟨trace, hannounced⟩ := exists_announce_eq _ placed
    rw [hannounced]
    obtain rfl | ⟨usage, rfl⟩ := noteUsage_cases hstocked <;> exact ⟨_, _, _, _, rfl⟩

theorem tended_completeRegistration (hkeyed : manager.Keyed) {placed : PlacedRegistration}
    (hregistered : manager.registry.contains placed.request.details.id = true) :
    manager.Tended (manager.completeRegistration placed).1 := by
  unfold completeRegistration
  simp only
  split
  · exact .refl manager
  · next stocked hstocked =>
    have hkept := tended_of_noteUsage hkeyed hstocked
    have hqueued := tended_queueFinalize stocked (hkept.contains _ ▸ hregistered) placed.stored
      placed.layout placed.now
    exact ((hkept.trans hqueued).trans (alike_withCluster _ _).tended).trans (alike_announce _ placed).tended

theorem noted_loadEnded (loaded : Nat) : manager.Noted (manager.loadEnded loaded) :=
  (manager.noted_withCluster _).trans (noted_note _ _)

theorem noted_loadFailed (failure : Failure) (loaded : Nat) :
    manager.Noted (manager.loadFailed failure loaded) :=
  (manager.noted_note _).trans (noted_withCluster _ _)

theorem noted_takeEntry (loaded : Nat) (answer : TableAnswer) :
    manager.Noted (manager.takeEntry loaded answer).1 := by
  unfold takeEntry
  split
  · exact manager.noted_loadFailed _ _
  · exact manager.noted_loadEnded _
  · next entry =>
    have hscreened := manager.noted_screen entry.details
    split
    · next refused failure hrefused =>
      rw [hrefused] at hscreened
      exact hscreened.trans (noted_loadFailed _ _ _)
    · next admitted details hadmitted =>
      rw [hadmitted] at hscreened
      exact hscreened

theorem noted_takeRegistered (entry : String) (loaded : Nat) (outcome : Outcome) :
    manager.Noted (manager.takeRegistered entry loaded outcome).1 := by
  unfold takeRegistered
  split
  · exact manager.noted_loadFailed _ _
  · exact manager.noted_note _
  · exact .refl manager

theorem noted_takeClosed (answer : TableAnswer) : manager.Noted (manager.takeClosed answer) := by
  unfold takeClosed
  split
  · exact .refl manager
  · exact manager.noted_note _

end Manager

end ClusterMembership
