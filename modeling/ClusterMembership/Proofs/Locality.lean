import ClusterMembership.Proofs.Departure

/-!
# What an operation sees of the cluster

An operation on a datanode reads what the stores hold of that datanode, the settings, the clock and the identifier of
the cluster.  Of the other datanodes it sees nothing but the depth at which they lie, and that only when it places its
own.  `Manager.AlikeAt` relates two states of a manager that hold the same of a datanode in the same surroundings, and
it is carried through every function that an operation on the datanode runs: both runs reply alike and leave the same
of the datanode behind.  Both states are held to fixed surroundings, so the relation also says that no operation
changes these.
-/

namespace ClusterMembership

namespace Topology

variable {topology other : Topology}

/-- What a topology admits depends only on what it shows. -/
theorem admits_congr (h : ∀ id, other.location? id = topology.location? id) (location : String) :
    other.Admits location ↔ topology.Admits location := by
  constructor
  · exact fun hadmits ↦ ⟨hadmits.absolute, hadmits.nonempty, fun hplaced ↦ hadmits.level ((h _).trans hplaced)⟩
  · exact fun hadmits ↦ ⟨hadmits.absolute, hadmits.nonempty, fun hplaced ↦ hadmits.level ((h _).symm.trans hplaced)⟩

/-- A topology admits the same without a datanode that is not placed. -/
theorem admits_remove_of_absent {id : String} (habsent : topology.location? id = none) (location : String) :
    (topology.remove id).Admits location ↔ topology.Admits location := by
  rw [remove_of_location?_eq_none habsent]

/-- Topologies take a datanode at the same locations: each without the datanode admits what the other one does. -/
def TakesAlike (topology other : Topology) (id : String) : Prop :=
  ∀ location, (other.remove id).Admits location ↔ (topology.remove id).Admits location

/-- Once a datanode is placed, it alone decides about the depth. -/
theorem Sound.admits_iff (hsound : topology.Sound) {id place : String} (hplaced : topology.location? id = some place)
    (location : String) : topology.Admits location ↔ Location.isAbsolute location.toList = true ∧
      Location.segments location.toList ≠ [] ∧ depthOf place = depthOf location :=
  ⟨fun hadmits ↦ ⟨hadmits.absolute, hadmits.nonempty, hadmits.level hplaced⟩,
    fun ⟨habsolute, hnonempty, hlevel⟩ ↦
      ⟨habsolute, hnonempty, fun hother ↦ (hsound.level hother hplaced).trans hlevel⟩⟩

namespace TakesAlike

variable {id : String}

theorem of_location? (h : ∀ other', other.location? other' = topology.location? other') (id : String) :
    topology.TakesAlike other id := by
  refine admits_congr fun found ↦ ?_
  rw [location?_remove, location?_remove, h]

/-- A third datanode that lies at one location in both topologies fixes the depth of both. -/
theorem of_third (hsound : topology.Sound) (hsound' : other.Sound) {third : String} (hthird : third ≠ id)
    (hplaced : topology.contains third = true) (hsame : other.location? third = topology.location? third) :
    topology.TakesAlike other id := by
  obtain ⟨place, hplace⟩ := Option.isSome_iff_exists.mp hplaced
  have hstill {topology : Topology} (hplace : topology.location? third = some place) :
      (topology.remove id).location? third = some place := by
    rw [location?_remove, if_neg hthird.symm, hplace]
  intro location
  rw [(hsound'.remove id).admits_iff (hstill (hsame.trans hplace)), (hsound.remove id).admits_iff (hstill hplace)]

/-- A datanode that is in neither topology gets into both or into none. -/
theorem add (htakes : topology.TakesAlike other id) (hsound : topology.Sound) (hsound' : other.Sound)
    (habsent : topology.location? id = none) (habsent' : other.location? id = none) (offered : String) :
    (∃ placed placed', topology.add id offered = .ok placed ∧ other.add id offered = .ok placed' ∧
        placed'.location? id = placed.location? id) ∨
      ∃ refusal refusal', topology.add id offered = .error refusal ∧ other.add id offered = .error refusal' := by
  have hiff : (∃ placed', other.add id offered = .ok placed') ↔ ∃ placed, topology.add id offered = .ok placed := by
    rw [exists_add_eq_ok_iff hsound habsent, exists_add_eq_ok_iff hsound' habsent', ← admits_remove_of_absent habsent,
      ← admits_remove_of_absent habsent', htakes]
  cases hadded : topology.add id offered with
  | ok placed =>
    obtain ⟨placed', hadded'⟩ := hiff.mpr ⟨placed, hadded⟩
    refine .inl ⟨placed, placed', rfl, hadded', ?_⟩
    rw [location?_add hadded, location?_add hadded', if_pos rfl, if_pos rfl]
  | error refusal =>
    cases hadded' : other.add id offered with
    | ok placed' =>
      obtain ⟨placed, hplaced⟩ := hiff.mp ⟨placed', hadded'⟩
      exact absurd (hplaced.symm.trans hadded) nofun
    | error refusal' => exact .inr ⟨refusal, refusal', rfl, rfl⟩

/-- A datanode that lies at one location in both topologies moves in both or in none. -/
theorem update (htakes : topology.TakesAlike other id) (hsound : topology.Sound) (hsound' : other.Sound)
    (hlocation : other.location? id = topology.location? id) (offered : String) :
    (∃ moved moved', topology.update id offered = (moved, none) ∧ other.update id offered = (moved', none) ∧
        moved'.location? id = moved.location? id) ∨
      ∃ kept kept' refusal refusal', topology.update id offered = (kept, some refusal) ∧
        other.update id offered = (kept', some refusal') ∧ kept'.location? id = kept.location? id := by
  have hiff : (other.update id offered).2 = none ↔ (topology.update id offered).2 = none := by
    rw [update_snd_eq_none_iff hsound, update_snd_eq_none_iff hsound', hlocation, htakes]
  cases hmoved : topology.update id offered with
  | mk moved refusal =>
    cases hmoved' : other.update id offered with
    | mk moved' refusal' =>
      rw [hmoved, hmoved'] at hiff
      cases refusal with
      | none =>
        obtain rfl : refusal' = none := hiff.mpr rfl
        refine .inl ⟨moved, moved', rfl, rfl, ?_⟩
        rw [location?_update_of_placed hmoved, location?_update_of_placed hmoved', if_pos rfl, if_pos rfl]
      | some refusal =>
        obtain ⟨refusal', rfl⟩ := Option.ne_none_iff_exists'.mp ((not_congr hiff).mpr nofun)
        refine .inr ⟨moved, moved', refusal, refusal', rfl, rfl, ?_⟩
        rw [location?_update_of_refused hmoved, location?_update_of_refused hmoved', hlocation]

end TakesAlike

end Topology

/-- What every operation sees, whichever datanode it is about. -/
structure Surroundings where
  settings : Settings
  clock : Instant
  clusterId : String

namespace Manager

/-- The surroundings of the operations of a manager. -/
def surroundings (manager : Manager) : Surroundings := ⟨manager.settings, manager.clock, manager.cluster.id⟩

/-- Two states of a manager with the same surroundings that hold the same of a datanode. -/
structure AlikeAt (surroundings : Surroundings) (id : String) (manager other : Manager) : Prop where
  here : manager.surroundings = surroundings
  there : other.surroundings = surroundings
  keyed : ∀ {record}, manager.registry.get? id = some record → record.id = id
  record : other.registry.get? id = manager.registry.get? id
  location : other.topology.location? id = manager.topology.location? id
  queued : other.commands.queues.get? id = manager.commands.queues.get? id
  counts : other.commands.held.get? id = manager.commands.held.get? id
  descriptor : other.known.peek id = manager.known.peek id
  unsynced : other.unsynced.contains id = manager.unsynced.contains id

/-- Two results that are one failure, or states that are alike at a datanode. -/
inductive ResultsAlikeAt (surroundings : Surroundings) (id : String) :
    Except Failure Manager → Except Failure Manager → Prop
  | failed (failure : Failure) : ResultsAlikeAt surroundings id (.error failure) (.error failure)
  | ok {manager other : Manager} (h : AlikeAt surroundings id manager other) :
    ResultsAlikeAt surroundings id (.ok manager) (.ok other)

namespace AlikeAt

variable {surroundings : Surroundings} {id : String} {manager other : Manager}

protected theorem refl (hkeyed : manager.Keyed) (id : String) : AlikeAt manager.surroundings id manager manager :=
  ⟨rfl, rfl, hkeyed, rfl, rfl, rfl, rfl, rfl, rfl⟩

theorem of_holding (here : manager.surroundings = surroundings) (there : other.surroundings = surroundings)
    (hkeyed : ∀ {record}, manager.registry.get? id = some record → record.id = id)
    (hholding : other.stores.holding id = manager.stores.holding id) : AlikeAt surroundings id manager other where
  here := here
  there := there
  keyed := hkeyed
  record := congrArg Holding.record hholding
  location := congrArg Holding.location hholding
  queued := congrArg Holding.queued hholding
  counts := congrArg Holding.counts hholding
  descriptor := congrArg Holding.descriptor hholding
  unsynced := congrArg Holding.isUnsynced hholding

/-! ## Surroundings -/

section Surroundings

variable (h : AlikeAt surroundings id manager other)
include h

theorem settings : other.settings = manager.settings := congrArg Surroundings.settings (h.there.trans h.here.symm)

theorem clock : other.clock = manager.clock := congrArg Surroundings.clock (h.there.trans h.here.symm)

theorem clusterId : other.cluster.id = manager.cluster.id :=
  congrArg Surroundings.clusterId (h.there.trans h.here.symm)

theorem layout : other.layout = manager.layout := congrArg Settings.layout h.settings

theorem authority : other.authority = manager.authority := congrArg Settings.authority h.settings

theorem table : other.table = manager.table := congrArg Settings.table h.settings

end Surroundings

/-! ## Single stores -/

section Stores

variable (h : AlikeAt surroundings id manager other)
include h

theorem holding : other.stores.holding id = manager.stores.holding id :=
  Holding.mk.injEq .. ▸ ⟨h.record, h.location, h.queued, h.counts, h.descriptor, h.unsynced⟩

theorem contains : other.registry.contains id = manager.registry.contains id := congrArg Option.isSome h.record

theorem peek : other.commands.peek id = manager.commands.peek id := congrArg (Option.getD · []) h.queued

theorem note (note note' : Note) : AlikeAt surroundings id (manager.note note) (other.note note') := { h with }

omit h in
theorem noteAll (h : AlikeAt surroundings id manager other) (notes : List Note) :
    AlikeAt surroundings id (manager.noteAll notes) (other.noteAll notes) := by
  unfold Manager.noteAll
  induction notes generalizing manager other with
  | nil => exact h
  | cons note rest ih => exact ih (h.note note note)

theorem publish (event event' : Event) : AlikeAt surroundings id (manager.publish event) (other.publish event') :=
  { h with }

theorem withRegistry {registry registry' : Registry} (hrecord : registry'.get? id = registry.get? id)
    (hkeyed : ∀ {record}, registry.get? id = some record → record.id = id) :
    AlikeAt surroundings id { manager with registry := registry } { other with registry := registry' } :=
  { h with record := hrecord, keyed := hkeyed }

theorem amend {change : NodeRecord → NodeRecord} (hid : ∀ {record}, record.id = id → (change record).id = id) :
    AlikeAt surroundings id { manager with registry := manager.registry.amend id change }
      { other with registry := other.registry.amend id change } := by
  have hkeeps (record : NodeRecord) (hrecord : manager.registry.get? id = some record) : (change record).id = id :=
    hid (h.keyed hrecord)
  have hkeeps' (record : NodeRecord) (hrecord : other.registry.get? id = some record) : (change record).id = id :=
    hkeeps record (h.record ▸ hrecord)
  have hamended := manager.registry.get?_amend id id change hkeeps
  rw [if_pos rfl] at hamended
  refine h.withRegistry ?_ fun {record} hrecord ↦ ?_
  · rw [other.registry.get?_amend id id change hkeeps', if_pos rfl, h.record, hamended]
  · obtain ⟨former, hformer, rfl⟩ := Option.map_eq_some_iff.mp (hamended.symm.trans hrecord)
    exact hkeeps former hformer

theorem upsert {record : NodeRecord} (hid : record.id = id) :
    AlikeAt surroundings id { manager with registry := manager.registry.upsert record }
      { other with registry := other.registry.upsert record } := by
  have hupserted (registry : Registry) : (registry.upsert record).get? id = some record := by
    rw [Registry.get?_upsert, if_pos hid]
  refine h.withRegistry ((hupserted _).trans (hupserted _).symm) fun {found} hfound ↦ ?_
  rw [← Option.some.inj ((hupserted _).symm.trans hfound)]
  exact hid

theorem withTopology {topology topology' : Topology} (hlocation : topology'.location? id = topology.location? id) :
    AlikeAt surroundings id { manager with topology := topology } { other with topology := topology' } :=
  { h with location := hlocation }

theorem withCommands {commands commands' : CommandQueue}
    (hqueued : commands'.queues.get? id = commands.queues.get? id)
    (hcounts : commands'.held.get? id = commands.held.get? id) :
    AlikeAt surroundings id { manager with commands := commands } { other with commands := commands' } :=
  { h with queued := hqueued, counts := hcounts }

theorem add (command : Command) {now now' : Instant} (hnow : now' = now) :
    AlikeAt surroundings id { manager with commands := manager.commands.add id command now }
      { other with commands := other.commands.add id command now' } := by
  subst hnow
  refine h.withCommands ?_ h.counts
  unfold CommandQueue.add
  rw [OrderedMap.get?_insert, OrderedMap.get?_insert, if_pos rfl, if_pos rfl, h.peek]

theorem drainCommands : AlikeAt surroundings id (manager.drainCommands id).1 (other.drainCommands id).1 := by
  unfold Manager.drainCommands CommandQueue.drain
  refine h.withCommands ?_ h.counts
  rw [OrderedMap.get?_erase, OrderedMap.get?_erase, if_pos rfl, if_pos rfl]

theorem purgeCommands : AlikeAt surroundings id (manager.purgeCommands id).1 (other.purgeCommands id).1 := by
  unfold Manager.purgeCommands CommandQueue.purge
  refine h.withCommands ?_ ?_ <;> rw [OrderedMap.get?_erase, OrderedMap.get?_erase, if_pos rfl, if_pos rfl]

theorem count_purgeCommands : (other.purgeCommands id).2 = (manager.purgeCommands id).2 :=
  congrArg List.length h.peek

theorem onCommand (command : Command) :
    AlikeAt surroundings id (manager.onCommand id command) (other.onCommand id command) := by
  unfold Manager.onCommand
  rw [h.contains]
  split
  · exact h.add command h.clock
  · exact h.note _ _

theorem addCommand (command : Command) :
    ResultsAlikeAt surroundings id (manager.addCommand id command) (other.addCommand id command) := by
  unfold Manager.addCommand
  rw [h.contains]
  split
  · exact .ok (h.add command h.clock)
  · exact .failed _

theorem noteHeld (counts : Option HeldCounts) :
    AlikeAt surroundings id (manager.noteHeld id counts) (other.noteHeld id counts) := by
  unfold Manager.noteHeld
  split
  · exact h
  · refine h.withCommands h.queued ?_
    unfold CommandQueue.recordHeld
    rw [OrderedMap.get?_insert, OrderedMap.get?_insert, if_pos rfl, if_pos rfl]

theorem record_known {details : Details} (hid : details.id = id) :
    AlikeAt surroundings id { manager with known := manager.known.record details }
      { other with known := other.known.record details } := by
  refine { h with descriptor := ?_ }
  rw [KnownNodes.peek_record, KnownNodes.peek_record, if_pos hid, if_pos hid]

theorem markSynced : AlikeAt surroundings id (manager.markSynced id) (other.markSynced id) := by
  refine { h with unsynced := ?_ }
  simp [Manager.markSynced]

end Stores

section Reports

variable (h : AlikeAt surroundings id manager other)
include h

/-! ## Heartbeats -/

theorem noteUsage (report : Option NodeReport) (now : Instant) :
    ResultsAlikeAt surroundings id (manager.noteUsage id report now) (other.noteUsage id report now) := by
  unfold Manager.noteUsage
  cases report with
  | none => exact .ok h
  | some report =>
    dsimp only
    cases report.usage with
    | error failure => exact .failed failure
    | ok usage => exact .ok (h.amend fun hid ↦ hid)

theorem hear (previous : Health) (layout : Option LayoutReport) (now : Instant) :
    AlikeAt surroundings id (manager.hear id previous layout now) (other.hear id previous layout now) := by
  have hheard : AlikeAt surroundings id
      { manager with registry := manager.registry.amend id (Registry.heard layout now) }
      { other with registry := other.registry.amend id (Registry.heard layout now) } := h.amend fun hid ↦ hid
  unfold Manager.hear
  simp only
  split
  · exact hheard
  · exact (hheard.note _ _).publish _ _

theorem queueFinalize (details : Details) (reported : LayoutReport) (now : Instant) :
    AlikeAt surroundings id (manager.queueFinalize id details reported now)
      (other.queueFinalize id details reported now) := by
  have hnoted := h.noteAll (manager.layout.checkNotes details reported)
  unfold Manager.queueFinalize
  simp only
  rw [h.layout]
  split
  · exact hnoted
  · exact hnoted.add _ rfl

theorem takeReports (details : Details) (report : HeartbeatReport) (now : Instant) :
    ResultsAlikeAt surroundings id (manager.takeReports id details report now)
      (other.takeReports id details report now) := by
  have hstocked := h.noteUsage report.nodeReport now
  unfold Manager.takeReports
  generalize manager.noteUsage id report.nodeReport now = stocked,
    other.noteUsage id report.nodeReport now = stocked' at hstocked
  cases hstocked with
  | failed failure => exact .failed failure
  | ok hstocked =>
    refine .ok (noteHeld ?_ report.heldCounts)
    split
    · exact hstocked
    · exact hstocked.queueFinalize details _ now

theorem settleState {details : Details} (hid : details.id = id) (now : Instant) :
    AlikeAt surroundings id (manager.settleState details now) (other.settleState details now) := by
  subst hid
  unfold Manager.settleState
  simp only
  rw [h.record]
  split
  · exact h
  · split
    · exact h
    · rw [h.authority]
      split
      · exact (h.note _ _).amend fun hid ↦ (Details.id_withOperational _ _ _).trans hid
      · exact (h.note _ _).add _ rfl

theorem heartbeat {details : Details} (hid : details.id = id) (report : HeartbeatReport) (now : Instant) :
    AlikeAt surroundings id (manager.heartbeat details report now).1 (other.heartbeat details report now).1 ∧
      (other.heartbeat details report now).2 = (manager.heartbeat details report now).2 := by
  unfold Manager.heartbeat
  simp only
  rw [hid, h.record]
  split
  · exact ⟨h.note _ _, rfl⟩
  · next record _ =>
    have hheard := h.hear record.status.health report.layout now
    have htaken := hheard.takeReports record.details report now
    generalize (manager.hear id record.status.health report.layout now).takeReports id record.details report now =
      taken, (other.hear id record.status.health report.layout now).takeReports id record.details report now =
      taken' at htaken
    cases htaken with
    | failed failure => exact ⟨hheard, rfl⟩
    | ok htaken =>
      have hsettled := htaken.settleState hid now
      exact ⟨hsettled.drainCommands, congrArg (fun queued ↦ Except.ok (queued.map QueuedCommand.command)) hsettled.peek⟩

end Reports

/-! ## Registrations -/

section Placement

variable (h : AlikeAt surroundings id manager other)
include h

theorem screen (offered : Field) :
    AlikeAt surroundings id (manager.screen offered).1 (other.screen offered).1 ∧
      (other.screen offered).2 = (manager.screen offered).2 := by
  unfold Manager.screen
  split
  · exact ⟨h, rfl⟩
  · exact ⟨h, rfl⟩
  · split
    · exact ⟨h, rfl⟩
    · exact ⟨h.note _ _, rfl⟩

/-- A datanode is placed in both states or refused in both. -/
theorem place (hsound : manager.Sound) (hsound' : other.Sound)
    (htakes : manager.topology.TakesAlike other.topology id) {details : Details} (hid : details.id = id)
    (layout : LayoutReport) (now : Instant) :
    AlikeAt surroundings id (manager.place details layout now).1 (other.place details layout now).1 ∧
      ((other.place details layout now).2 = none ↔ (manager.place details layout now).2 = none) := by
  unfold Manager.place
  simp only
  rw [hid, h.contains]
  cases hregistered : manager.registry.contains id with
  | true =>
    rw [if_pos rfl, if_pos rfl]
    obtain ⟨moved, moved', hmoved, hmoved', hlocation⟩ | ⟨kept, kept', refusal, refusal', hkept, hkept', hlocation⟩ :=
      htakes.update hsound.topology hsound'.topology h.location details.location
    · rw [hmoved, hmoved']
      have hdetailed : AlikeAt surroundings id
          { manager with topology := moved, registry := manager.registry.amend id (Registry.detailed details now) }
          { other with topology := moved', registry := other.registry.amend id (Registry.detailed details now) } :=
        (h.withTopology hlocation).amend fun _ ↦ (details.id_withOperational _ _).trans hid
      exact ⟨hdetailed.amend fun hid ↦ hid, Iff.rfl⟩
    · rw [hkept, hkept']
      exact ⟨h.withTopology hlocation, iff_of_false nofun nofun⟩
  | false =>
    rw [if_neg nofun, if_neg nofun]
    have habsent {manager : Manager} (hsound : manager.Sound) (hregistered : manager.registry.contains id = false) :
        manager.topology.location? id = none := by
      rw [contains_eq_isSome_standing, Option.isSome_eq_false_iff, Option.isNone_iff_eq_none] at hregistered
      rw [hsound.placed, hregistered, Option.map_none]
    obtain ⟨placed, placed', hplaced, hplaced', hlocation⟩ | ⟨refusal, refusal', hrefused, hrefused'⟩ :=
      htakes.add hsound.topology hsound'.topology (habsent hsound hregistered)
        (habsent hsound' (h.contains.trans hregistered)) details.location
    · rw [hplaced, hplaced']
      exact ⟨(h.withTopology hlocation).upsert hid, Iff.rfl⟩
    · rw [hrefused, hrefused']
      exact ⟨h, iff_of_false nofun nofun⟩

theorem placing (hsound : manager.Sound) (hsound' : other.Sound)
    (htakes : manager.topology.TakesAlike other.topology id) {request : RegistrationRequest}
    (hid : request.details.id = id) :
    AlikeAt surroundings id (manager.placing request).1 (other.placing request).1 ∧
      ((other.placing request).2 = none ↔ (manager.placing request).2 = none) := by
  have hplaced := (h.record_known hid).place (hsound.record _) (hsound'.record _) htakes hid
    (request.layout.getD manager.layout.report) manager.clock
  unfold Manager.placing
  simpa only [h.layout, h.clock] using hplaced

/-- What is kept of a registration is the same in both states. -/
theorem placedBy {inPlace inPlace' : Manager} (hplaced : AlikeAt surroundings id inPlace inPlace')
    {request : RegistrationRequest} (hid : request.details.id = id) :
    other.placedBy inPlace' request = manager.placedBy inPlace request := by
  subst hid
  unfold Manager.placedBy
  rw [h.record, h.descriptor, h.layout, h.clock, hplaced.record]

theorem withCluster {cluster cluster' : ClusterContext} (hid : cluster.id = manager.cluster.id)
    (hid' : cluster'.id = other.cluster.id) :
    AlikeAt surroundings id { manager with cluster := cluster } { other with cluster := cluster' } := by
  have hsame {manager : Manager} {cluster : ClusterContext} (hid : cluster.id = manager.cluster.id) :
      Manager.surroundings { manager with cluster := cluster } = manager.surroundings :=
    congrArg (Surroundings.mk manager.settings manager.clock) hid
  exact { h with here := (hsame hid).trans h.here, there := (hsame hid').trans h.there }

theorem refuse (details : Details) (refusal refusal' : Refusal) :
    AlikeAt surroundings id (manager.refuse details refusal).1 (other.refuse details refusal').1 ∧
      (other.refuse details refusal').2 = (manager.refuse details refusal).2 := by
  have hid (manager : Manager) (note : Note) :
      (((manager.note note).cluster.setHealthy false).addError ClusterContext.invalidTopology).id =
        manager.cluster.id :=
    ClusterContext.id_addError _ _
  refine ⟨(h.note _ _).withCluster (hid manager _) (hid other _), ?_⟩
  exact congrArg (Acknowledgement.mk false details) ((hid other _).trans (h.clusterId.trans (hid manager _).symm))

theorem announce (placed : PlacedRegistration) :
    AlikeAt surroundings id (manager.announce placed) (other.announce placed) := by
  unfold Manager.announce
  refine note (publish ?_ _ _) _ _
  split
  · split
    · exact h.publish _ _
    · exact h
  · exact h

theorem completeRegistration {placed : PlacedRegistration} (hid : placed.request.details.id = id) :
    AlikeAt surroundings id (manager.completeRegistration placed).1 (other.completeRegistration placed).1 ∧
      (other.completeRegistration placed).2 = (manager.completeRegistration placed).2 := by
  have hstocked := h.noteUsage placed.request.nodeReport placed.now
  unfold Manager.completeRegistration
  simp only
  rw [hid]
  generalize manager.noteUsage id placed.request.nodeReport placed.now = stocked,
    other.noteUsage id placed.request.nodeReport placed.now = stocked' at hstocked
  cases hstocked with
  | failed failure => exact ⟨h, rfl⟩
  | ok hstocked =>
    have hqueued := hstocked.queueFinalize placed.stored placed.layout placed.now
    refine ⟨(hqueued.withCluster ?_ ?_).announce placed, ?_⟩
    · rfl
    · rfl
    · exact congrArg (Except.ok ∘ Acknowledgement.mk true placed.request.details) hqueued.clusterId

end Placement

/-! ## Removals and operational states -/

section Administration

variable (h : AlikeAt surroundings id manager other)
include h

/-- Of a datanode that is forgotten both states hold nothing. -/
theorem forget : AlikeAt surroundings id (manager.forget id) (other.forget id) := by
  have hnothing (manager : Manager) : (manager.forget id).stores.holding id = .nothing := by
    rw [stores_forget, Stores.holding_without, if_pos rfl]
  refine of_holding h.here h.there (fun {record} hrecord ↦ ?_) ((hnothing other).trans (hnothing manager).symm)
  exact absurd (hrecord.symm.trans (congrArg Holding.record (hnothing manager))) nofun

theorem restate (state expiry : Field) (now : Instant) :
    AlikeAt surroundings id (manager.restate id state expiry now) (other.restate id state expiry now) :=
  h.amend fun hid ↦ (Details.id_withOperational _ _ _).trans hid

theorem beginStateChange (state expiry : Field) (reply : Reply) :
    AlikeAt surroundings id (manager.beginStateChange id state expiry reply).1
        (other.beginStateChange id state expiry reply).1 ∧
      (other.beginStateChange id state expiry reply).2 = (manager.beginStateChange id state expiry reply).2 := by
  cases hrecord : manager.registry.get? id with
  | none =>
    have habsent := (Registry.contains_eq_false_iff _ _).mpr hrecord
    rw [beginStateChange_of_absent habsent, beginStateChange_of_absent (h.contains.trans habsent)]
    exact ⟨h, rfl⟩
  | some record =>
    obtain ⟨note, hbegun⟩ := exists_beginStateChange_eq hrecord state expiry reply
    obtain ⟨note', hbegun'⟩ := exists_beginStateChange_eq (h.record.trans hrecord) state expiry reply
    rw [hbegun, hbegun', h.clock, h.table]
    exact ⟨(h.restate state _ manager.clock).note note note', rfl⟩

theorem beginReconcile (state expiry : Field) :
    AlikeAt surroundings id (Service.beginReconcile manager id state expiry).1
        (Service.beginReconcile other id state expiry).1 ∧
      (Service.beginReconcile other id state expiry).2 = (Service.beginReconcile manager id state expiry).2 := by
  have hstatus : other.status id = manager.status id := by
    unfold Manager.status Registry.require
    rw [h.record]
  unfold Service.beginReconcile
  rw [hstatus]
  split
  · exact ⟨h, rfl⟩
  · split
    · exact ⟨h, rfl⟩
    · exact (h.note _ _).beginStateChange state expiry _

end Administration

end AlikeAt

end Manager

end ClusterMembership
