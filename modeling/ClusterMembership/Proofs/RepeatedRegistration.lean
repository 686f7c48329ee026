import ClusterMembership.Proofs.Commuting
import ClusterMembership.Proofs.RefusedRegistration

/-!
# Registering twice

A registration is described here by everything that it does: `Manager.Registers` and `World.Writes` when the datanode
is placed, `Manager.TurnsAway` when it is refused.  The first registration of a datanode builds a record of its own and
a later one renews the record that is there, but a record that was just built or renewed is renewed to itself, and all
else that a registration does is done by then.  So a second one at the same time with the same arguments is answered
like the first, and leaves what the first has left, but for one more command to finalize.
-/

namespace ClusterMembership

/-! ## The record that a registration leaves -/

def RegistrationRequest.usage? (request : RegistrationRequest) : Option StorageUsage :=
  request.nodeReport.bind fun report ↦ report.usage.toOption

namespace NodeRecord

def withUsage (record : NodeRecord) (usage : Option StorageUsage) (now : Instant) : NodeRecord :=
  match usage with
  | none => record
  | some usage => Registry.stocked usage now record

@[simp]
theorem details_withUsage (record : NodeRecord) (usage : Option StorageUsage) (now : Instant) :
    (record.withUsage usage now).details = record.details := by
  cases usage <;> rfl

/-- A record that is renewed to itself is so with a storage usage as well. -/
theorem renewed_withUsage {record : NodeRecord} {details : Details} {layout : LayoutReport} {now : Instant}
    (h : Registry.heard (some layout) now (Registry.detailed details now record) = record)
    (usage : Option StorageUsage) :
    (Registry.heard (some layout) now
        (Registry.detailed details now (record.withUsage usage now))).withUsage usage now =
      record.withUsage usage now := by
  cases usage with
  | none => exact h
  | some usage =>
    have hstocked :
        Registry.stocked usage now (Registry.heard (some layout) now (Registry.detailed details now record)) =
          Registry.stocked usage now record := congrArg (Registry.stocked usage now) h
    exact hstocked

end NodeRecord

namespace Manager

variable {manager : Manager}

/-- The record of a datanode that has just been placed is renewed to itself. -/
theorem renewed_placedRecord (manager : Manager) (details : Details) (layout : LayoutReport) (now : Instant) :
    Registry.heard (some layout) now (Registry.detailed details now (manager.placedRecord details layout now)) =
      manager.placedRecord details layout now := by
  unfold placedRecord
  cases manager.registry.get? details.id with
  | some previous => rfl
  | none =>
    have hdetails : details.withOperational details.operational details.expiry = details :=
      details.withOperational_self
    simp only [Registry.detailed, Registry.heard, NodeRecord.registered, hdetails, Option.getD_some]

/-- The record that a registration leaves. -/
def completedRecord (manager : Manager) (request : RegistrationRequest) : NodeRecord :=
  (manager.placedRecord request.details (request.layout.getD manager.layout.report) manager.clock).withUsage
    request.usage? manager.clock

/-- Two states of a manager between which a registration was completed. -/
structure Registers (before : Manager) (request : RegistrationRequest) (after : Manager) : Prop where
  registry : after.registry =
    ⟨before.registry.records.insert request.details.id (before.completedRecord request)⟩
  location? : ∀ other, after.topology.location? other =
    if request.details.id = other then some request.details.location else before.topology.location? other
  known : after.known = before.known.record request.details
  unsynced : after.unsynced = if before.table.isSome then before.unsynced.filter (· ≠ request.details.id)
    else before.unsynced
  commands : after.commands =
    before.finalizing request.details.id (request.layout.getD before.layout.report) before.clock
  cluster : after.cluster = (before.cluster.setHealthy true).removeError ClusterContext.invalidTopology
  settings : after.settings = before.settings
  clock : after.clock = before.clock

/-- Two states of a manager that hold the same of every datanode and of the cluster, but for the waiting commands and
the order of the leaves. -/
structure Settled (once twice : Manager) : Prop where
  registry : twice.registry = once.registry
  location? : ∀ id, twice.topology.location? id = once.topology.location? id
  known : twice.known = once.known
  unsynced : twice.unsynced = once.unsynced
  cluster : twice.cluster = once.cluster

end Manager

/-! ## Doing again what was done -/

theorem KnownNodes.record_record (known : KnownNodes) (details : Details) :
    (known.record details).record details = known.record details :=
  congrArg KnownNodes.mk (OrderedMap.insert_insert known.descriptors details.id _ _)

namespace ClusterContext

variable (context : ClusterContext) (code : String)

theorem removeError_setHealthy_again :
    ((((context.setHealthy true).removeError code).setHealthy true).removeError code) =
      (context.setHealthy true).removeError code := by
  simp [setHealthy, removeError]

theorem addError_setHealthy_again :
    ((((context.setHealthy false).addError code).setHealthy false).addError code) =
      (context.setHealthy false).addError code := by
  have hset : ((context.setHealthy false).addError code).setHealthy false =
      (context.setHealthy false).addError code := by
    unfold addError
    split <;> rfl
  rw [hset]
  exact if_pos (hasError_addError _ code)

end ClusterContext

/-- Whether a datanode fits is decided by the locations. -/
theorem Topology.Fits.of_location?_eq {topology other : Topology} {id location : String}
    (h : topology.Fits id location) (hlocation : ∀ id, other.location? id = topology.location? id) :
    other.Fits id location :=
  ⟨h.absolute, h.segmented, fun hother hthere ↦ h.level hother ((hlocation _).symm.trans hthere)⟩

namespace Manager

variable {manager once twice : Manager} {request : RegistrationRequest}

theorem finalizing_cases (manager : Manager) (id : String) (reported : LayoutReport) (now : Instant) :
    manager.finalizing id reported now = manager.commands ∨ ∃ command, command.kind = .finalizeLayout ∧
      manager.finalizing id reported now = manager.commands.add id command now := by
  unfold finalizing Layout.commandFor
  split
  · exact .inl rfl
  · next command hcommand =>
    refine .inr ⟨command, ?_, rfl⟩
    split at hcommand
    · rw [← Option.some.inj hcommand]
      rfl
    · cases hcommand

theorem Registers.completedRecord_eq (h : manager.Registers request once) :
    once.completedRecord request = manager.completedRecord request := by
  have hlayout : once.layout = manager.layout := congrArg Settings.layout h.settings
  have hrecord : once.registry.get? request.details.id = some (manager.completedRecord request) := by
    rw [h.registry, Registry.get?, OrderedMap.get?_insert, if_pos rfl]
  unfold completedRecord at hrecord ⊢
  rw [placedRecord, hrecord, hlayout, h.clock]
  exact NodeRecord.renewed_withUsage (manager.renewed_placedRecord _ _ _) request.usage?

/-- A registration that is completed twice settles what it settled the first time. -/
theorem Registers.settled (h : manager.Registers request once) (hagain : once.Registers request twice) :
    once.Settled twice where
  registry := by rw [hagain.registry, h.completedRecord_eq, h.registry, OrderedMap.insert_insert]
  location? id := by
    rw [hagain.location?, h.location?]
    split <;> rfl
  known := by rw [hagain.known, h.known, KnownNodes.record_record]
  unsynced := by
    have htable : once.table = manager.table := congrArg Settings.table h.settings
    rw [hagain.unsynced, h.unsynced, htable]
    split <;> simp
  cluster := by rw [hagain.cluster, h.cluster, ClusterContext.removeError_setHealthy_again]

theorem TurnsAway.settled (h : manager.TurnsAway request once) (hagain : once.TurnsAway request twice) :
    once.Settled twice where
  registry := hagain.registry
  location? := hagain.location?
  known := by rw [hagain.known, h.known, KnownNodes.record_record]
  unsynced := hagain.unsynced
  cluster := by rw [hagain.cluster, h.cluster, ClusterContext.addError_setHealthy_again]

/-! ## Completing a registration -/

theorem noteUsage_eq {record : NodeRecord} (hrecord : manager.registry.get? request.details.id = some record)
    (hid : record.id = request.details.id)
    (hreadable : ∀ report ∈ request.nodeReport, ∃ usage, report.usage = .ok usage) (now : Instant) :
    manager.noteUsage request.details.id request.nodeReport now =
      .ok { manager with
        registry := ⟨manager.registry.records.insert request.details.id (record.withUsage request.usage? now)⟩ } := by
  unfold noteUsage RegistrationRequest.usage?
  cases hreport : request.nodeReport with
  | none =>
    have hsame : manager.registry.records.insert request.details.id record = manager.registry.records :=
      OrderedMap.insert_of_get?_eq_some hrecord
    simp only [Option.bind_none, NodeRecord.withUsage, hsame]
  | some report =>
    obtain ⟨usage, husage⟩ := hreadable report hreport
    have hid : (Registry.stocked usage now record).id = request.details.id := hid
    have hamend := Registry.amend_of_get? hrecord hid
    simp only [husage, Except.map, Option.bind_some, Except.toOption, NodeRecord.withUsage, hamend]

/-- A registration with a report that can be read is completed. -/
theorem exists_completeRegistration_of_readable (placed : PlacedRegistration) {record : NodeRecord}
    (hrecord : manager.registry.get? placed.request.details.id = some record)
    (hid : record.id = placed.request.details.id)
    (hreadable : ∀ report ∈ placed.request.nodeReport, ∃ usage, report.usage = .ok usage) :
    ∃ trace, manager.completeRegistration placed =
      ({ manager with
          registry := ⟨manager.registry.records.insert placed.request.details.id
            (record.withUsage placed.request.usage? placed.now)⟩
          commands := manager.finalizing placed.request.details.id placed.layout placed.now
          cluster := (manager.cluster.setHealthy true).removeError ClusterContext.invalidTopology
          trace }, .ok ⟨true, placed.request.details, manager.cluster.id⟩) := by
  have hstocked := noteUsage_eq hrecord hid hreadable placed.now
  unfold completeRegistration
  simp only [hstocked]
  obtain ⟨entries, hqueued⟩ := exists_queueFinalize_eq { manager with
    registry := ⟨manager.registry.records.insert placed.request.details.id
      (record.withUsage placed.request.usage? placed.now)⟩ } placed.request.details.id placed.stored placed.layout
        placed.now
  rw [hqueued]
  obtain ⟨trace, hannounced⟩ := exists_announce_eq _ placed
  rw [hannounced]
  exact ⟨trace, rfl⟩

theorem id_placedRecord (manager : Manager) (details : Details) (layout : LayoutReport) (now : Instant) :
    (manager.placedRecord details layout now).id = details.id := by
  unfold placedRecord
  cases manager.registry.get? details.id with
  | none => rfl
  | some previous => exact details.id_withOperational _ _

/-- A datanode that is placed is registered once its marks are settled. -/
theorem exists_registers_of_placing (hkept : request.details.Kept) {inPlace : Manager}
    (hplacing : manager.placing request = (inPlace, none))
    (hreadable : ∀ report ∈ request.nodeReport, ∃ usage, report.usage = .ok usage) (unsynced : List String)
    (hunsynced : unsynced = if manager.table.isSome then manager.unsynced.filter (· ≠ request.details.id)
      else manager.unsynced) :
    ∃ after, ({ inPlace with unsynced } : Manager).completeRegistration (manager.placedBy inPlace request) =
        (after, .ok ⟨true, request.details, manager.cluster.id⟩) ∧ manager.Registers request after := by
  let layout := request.layout.getD manager.layout.report
  have hregistry := registry_of_place hplacing
  have hlocation := location?_place hkept hplacing
  obtain ⟨registry, topology, hplace⟩ :=
    ({ manager with known := manager.known.record request.details } : Manager).exists_place_eq request.details layout
      manager.clock
  obtain rfl : { manager with known := manager.known.record request.details, registry, topology } = inPlace :=
    hplace.symm.trans (congrArg Prod.fst hplacing)
  obtain rfl : registry = ⟨manager.registry.records.insert request.details.id
      (manager.placedRecord request.details layout manager.clock)⟩ := hregistry
  let settled : Manager :=
    { manager with
      known := manager.known.record request.details
      registry := ⟨manager.registry.records.insert request.details.id
        (manager.placedRecord request.details layout manager.clock)⟩
      topology
      unsynced }
  have hrecord : settled.registry.get? request.details.id =
      some (manager.placedRecord request.details layout manager.clock) :=
    (OrderedMap.get?_insert _ _ _ _).trans (if_pos rfl)
  let placed : PlacedRegistration := manager.placedBy
    { manager with known := manager.known.record request.details, registry := settled.registry, topology } request
  obtain ⟨trace, hcompleted⟩ := exists_completeRegistration_of_readable placed hrecord
    (manager.id_placedRecord _ _ _) hreadable
  exact ⟨_, hcompleted,
    { registry := congrArg Registry.mk (OrderedMap.insert_insert _ _ _ _)
      location? := hlocation
      known := rfl
      unsynced := hunsynced
      commands := rfl
      cluster := rfl
      settings := rfl
      clock := rfl }⟩

end Manager

namespace World

variable {world once twice : World} {request : RegistrationRequest}

/-! ## Writing -/

/-- Two worlds between which details were written to the table in use, if there is one. -/
structure Writes (before : World) (id : String) (details : Details) (after : World) : Prop where
  written : ∀ {number store}, before.manager.table = some number → before.store? number = some store →
    ∃ stored, after.store? number = some stored ∧ stored.detailsOf = store.detailsOf ∧
      stored.rows = Association.put id (store.written before.clock id details) store.rows
  others : ∀ {number}, before.manager.table ≠ some number ∨ before.store? number = none →
    after.store? number = before.store? number
  faultless : ∀ {number}, before.manager.table = some number → after.IsFaultless number

section Writing

variable {number : Nat} {id : String} {details : Details}

/-- Without a table nothing is written. -/
theorem writes_of_unused (hunused : world.manager.table = none) (htables : once.tables = world.tables) :
    world.Writes id details once where
  written huses := by
    rw [hunused] at huses
    cases huses
  others _ := by rw [store?, htables, store?]
  faultless huses := by
    rw [hunused] at huses
    cases huses

/-- A table that there is not is not written to. -/
theorem writes_of_absent (huses : world.manager.table = some number) (habsent : world.tables[number]? = none)
    (htables : once.tables = world.tables) : world.Writes id details once where
  written huses' hstore := by
    rw [Option.some.inj (huses'.symm.trans huses), store?, habsent] at hstore
    cases hstore
  others _ := by rw [store?, htables, store?]
  faultless huses' table htable := by
    rw [Option.some.inj (huses'.symm.trans huses), htables, habsent] at htable
    cases htable

/-- A table that answers from its rows is written to. -/
theorem writes_of_carryOut {table : Table} {stored : TableStore} (huses : world.manager.table = some number)
    (htable : world.tables[number]? = some table) (hanswers : table.store.AnswersFromRows)
    (hcarried : Table.carryOut table.store world.clock (.put id details) = (stored, none, .ok none))
    (hrows : stored.rows = Association.put id (table.store.written world.clock id details) table.store.rows)
    (htables : once.tables = (world.setStore number stored).tables) : world.Writes id details once := by
  have hserves := table.store.serves_carryOut world.clock (.put id details)
  rw [hcarried] at hserves
  have hstore : world.store? number = some table.store := by rw [store?, htable, Option.map_some]
  have hstored : once.store? number = some stored := by
    rw [store?, htables, getElem?_setStore, htable]
    rfl
  have hother {other : Nat} (huses' : world.manager.table = some other) : other = number :=
    Option.some.inj (huses'.symm.trans huses)
  exact
    { written := fun {other store} huses' hbefore ↦ by
        obtain rfl := hother huses'
        obtain rfl : table.store = store := Option.some.inj (hstore.symm.trans hbefore)
        exact ⟨stored, hstored, hserves.reading, hrows⟩
      others := fun {other} hunused ↦ by
        have hne : number ≠ other := by
          rintro rfl
          rcases hunused with hunused | hunused
          · exact hunused huses
          · exact Option.some_ne_none _ (hstore.symm.trans hunused)
        rw [store?, htables]
        exact congrArg (Option.map Table.store) (List.getElem?_set_ne hne)
      faultless := fun huses' table hat ↦ by
        rw [htables, hother huses'] at hat
        exact isFaultless_setStore (hserves.answers hanswers) table hat }

/-- What is written again at the same time makes no difference to the rows. -/
theorem Writes.rowsOf_eq (h : world.Writes id details once) (hagain : once.Writes id details twice)
    (htable : once.manager.table = world.manager.table) (hclock : once.clock = world.clock) (number : Nat) :
    twice.rowsOf number = once.rowsOf number := by
  unfold rowsOf
  by_cases huses : world.manager.table = some number
  · cases hstore : world.store? number with
    | none =>
      have honce : once.store? number = none := (h.others (.inr hstore)).trans hstore
      rw [hagain.others (.inr honce)]
    | some store =>
      obtain ⟨stored, hstored, hreading, hrows⟩ := h.written huses hstore
      obtain ⟨stored', hstored', -, hrows'⟩ := hagain.written (htable.trans huses) hstored
      rw [hstored, hstored', Option.map_some, Option.map_some, hrows', hrows, hclock,
        TableStore.written_of_reading hreading, Association.put_put]
  · rw [hagain.others (.inl (htable ▸ huses))]

end Writing

/-- A faultless table writes what a registration asks it to. -/
theorem exists_askedToPut_of_faultless (request : RegistrationRequest) {number : Nat}
    (huses : world.manager.table = some number) (hfaultless : world.IsFaultless number) {inPlace : Manager}
    (hclock : inPlace.clock = world.clock) :
    ∃ asked, world.askedToPut inPlace number request = (asked, .ok none) ∧ asked.manager = inPlace ∧
      world.Writes request.details.id (world.manager.placedBy inPlace request).stored asked := by
  cases htable : world.tables[number]? with
  | none =>
    have habsent : (world.withManager inPlace).tables[number]? = none := htable
    refine ⟨world.withManager inPlace, ?_, rfl, writes_of_absent huses htable rfl⟩
    rw [askedToPut, ask, habsent]
  | some table =>
    obtain ⟨hfaults, hanswers⟩ := hfaultless table htable
    obtain ⟨stored, hcarried, hrows⟩ := TableStore.carryOut_put hanswers world.clock request.details.id
      (world.manager.placedBy inPlace request).stored
    have hplaced : (world.withManager inPlace).tables[number]? = some table := htable
    have hnow : (world.withManager inPlace).clock = world.clock := hclock
    have hasked : world.askedToPut inPlace number request =
        ((world.withManager inPlace).setStore number stored, .ok none) :=
      ask_of_faultless hplaced hfaults (hnow ▸ hcarried)
    exact ⟨_, hasked, rfl, writes_of_carryOut huses htable hanswers hcarried hrows rfl⟩

/-! ## Serving a registration -/

/-- A registration that is placed is completed and written. -/
theorem exists_run_register_of_placing (hkept : request.details.Kept) (hpersist : request.persist = true)
    (hfaultless : ∀ {number}, world.manager.table = some number → world.IsFaultless number)
    (hreadable : ∀ report ∈ request.nodeReport, ∃ usage, report.usage = .ok usage) {inPlace : Manager}
    (hplacing : world.manager.placing request = (inPlace, none)) :
    ∃ after, world.run (.register request) =
        (after, .ok (.acknowledged ⟨true, request.details, world.manager.cluster.id⟩)) ∧
      world.manager.Registers request after.manager ∧
      world.Writes request.details.id (world.manager.completedRecord request).details after := by
  obtain ⟨registry, topology, hplace⟩ :=
    ({ world.manager with known := world.manager.known.record request.details } : Manager).exists_place_eq
      request.details (request.layout.getD world.manager.layout.report) world.manager.clock
  have hinPlace : { world.manager with known := world.manager.known.record request.details, registry, topology } =
    inPlace := hplace.symm.trans (congrArg Prod.fst hplacing)
  have htable : inPlace.table = world.manager.table := hinPlace ▸ rfl
  have hunsynced : inPlace.unsynced = world.manager.unsynced := hinPlace ▸ rfl
  have hclock : inPlace.clock = world.clock := hinPlace ▸ rfl
  have hrecord : inPlace.registry.get? request.details.id = some (world.manager.placedRecord request.details
      (request.layout.getD world.manager.layout.report) world.manager.clock) := by
    rw [Manager.registry_of_place hplacing]
    exact (OrderedMap.get?_insert _ _ _ _).trans (if_pos rfl)
  have hstored : (world.manager.placedBy inPlace request).stored = (world.manager.completedRecord request).details := by
    rw [Manager.completedRecord, NodeRecord.details_withUsage]
    unfold Manager.placedBy
    rw [hrecord]
    rfl
  cases huses : world.manager.table with
  | none =>
    have hwrite : (if request.persist then inPlace.table else none) = none := by rw [htable, huses, ite_self]
    obtain ⟨after, hcompleted, hregisters⟩ := Manager.exists_registers_of_placing hkept hplacing hreadable
      inPlace.unsynced (by rw [huses, hunsynced]; rfl)
    have hcompleted : inPlace.completeRegistration (world.manager.placedBy inPlace request) =
        (after, .ok ⟨true, request.details, world.manager.cluster.id⟩) := hcompleted
    have hrun := run_register_unwritten hplacing hwrite
    rw [hcompleted] at hrun
    exact ⟨_, hrun, hregisters, writes_of_unused huses rfl⟩
  | some number =>
    have hwrite : (if request.persist then inPlace.table else none) = some number := by
      rw [hpersist, if_pos rfl, htable, huses]
    obtain ⟨asked, hasked, hmanager, hwrites⟩ :=
      exists_askedToPut_of_faultless request huses (hfaultless huses) hclock
    obtain ⟨after, hcompleted, hregisters⟩ := Manager.exists_registers_of_placing hkept hplacing hreadable
      (inPlace.markSynced request.details.id).unsynced (by rw [huses, Manager.markSynced, hunsynced]; rfl)
    have hrun := run_register_written hplacing hwrite hasked
    have hfinished : asked.manager.finishRegistration (world.manager.placedBy inPlace request) (.ok none) =
        (after, .ok (.acknowledged ⟨true, request.details, world.manager.cluster.id⟩)) := by
      rw [hmanager, Manager.finishRegistration_of_settled rfl]
      exact congrArg Manager.acknowledge hcompleted
    rw [hfinished] at hrun
    rw [hstored] at hwrites
    exact ⟨_, hrun, hregisters, ⟨hwrites.written, hwrites.others, hwrites.faultless⟩⟩

section Serving

variable (hsound : world.manager.Sound) {given : Details} (hgiven : given.Admissible)

include hsound hgiven

/-- A registration of a datanode that fits is completed and written. -/
theorem exists_serve_register_of_fits {nodeReport : Option NodeReport}
    (hreadable : ∀ report ∈ nodeReport, ∃ usage, report.usage = .ok usage)
    (hfaultless : ∀ {number}, world.manager.table = some number → world.IsFaultless number)
    (hfits : world.manager.topology.Fits given.id given.located.location) (pipelineReport : Field)
    (layout : Option LayoutReport) :
    let request : RegistrationRequest := { details := given.located, nodeReport, pipelineReport, layout }
    ∃ after, world.serve (.register (some given.toValue) nodeReport pipelineReport layout) =
        (after, .ok (.acknowledged ⟨true, given.located, world.manager.cluster.id⟩)) ∧
      world.manager.Registers request after.manager ∧
      world.Writes given.id (world.manager.completedRecord request).details after := by
  intro request
  have hkept : request.details.Kept := hgiven.kept_located
  have hid : request.details.id = given.id := given.id_located
  rw [serve_register_admitted (world.manager.screen_of_admissible hgiven), ← hid]
  cases hplacing : world.manager.placing request with
  | mk inPlace refusal =>
    obtain rfl : refusal = none := by
      have hnone := (hsound.placing_snd_eq_none_iff hkept).mpr (hid.symm ▸ hfits)
      rwa [hplacing] at hnone
    exact exists_run_register_of_placing hkept rfl hfaultless hreadable hplacing

/-- A registration of a datanode that does not fit is refused. -/
theorem exists_serve_register_of_not_fits (hfits : ¬ world.manager.topology.Fits given.id given.located.location)
    (nodeReport : Option NodeReport) (pipelineReport : Field) (layout : Option LayoutReport) :
    let request : RegistrationRequest := { details := given.located, nodeReport, pipelineReport, layout }
    ∃ after, world.serve (.register (some given.toValue) nodeReport pipelineReport layout) =
        (after, .ok (.acknowledged ⟨false, given.located, world.manager.cluster.id⟩)) ∧
      world.manager.TurnsAway request after.manager ∧ after.tables = world.tables := by
  intro request
  have hkept : request.details.Kept := hgiven.kept_located
  rw [serve_register_admitted (world.manager.screen_of_admissible hgiven)]
  cases hplacing : world.manager.placing request with
  | mk inPlace refusal =>
    cases refusal with
    | none =>
      have hplaced := (hsound.placing_snd_eq_none_iff hkept).mp (congrArg Prod.snd hplacing)
      exact absurd (given.id_located ▸ hplaced) hfits
    | some refusal =>
      obtain ⟨after, hrun, hturned, htables, -⟩ := exists_run_register_of_refusal hplacing
      exact ⟨after, hrun, hturned, htables⟩

end Serving

/-! ## Serving it again -/

/-- What a second registration with the same arguments makes of what the first has left. -/
structure Echoes (world : World) (id : String) (once twice : World × Outcome) : Prop where
  answered : ∃ acknowledgement, once.2 = .ok (.acknowledged acknowledgement)
  outcome : twice.2 = once.2
  settled : once.1.manager.Settled twice.1.manager
  rows : ∀ number, twice.1.rowsOf number = once.1.rowsOf number
  commands : twice.1.manager.commands = once.1.manager.commands ∨ ∃ command, command.kind = .finalizeLayout ∧
    twice.1.manager.commands = once.1.manager.commands.add id command world.clock

/-- In a sound world it makes no difference to register again. -/
theorem echoes_serve_register (hsound : world.manager.Sound)
    (hfaultless : ∀ {number}, world.manager.table = some number → world.IsFaultless number) {given : Details}
    (hgiven : given.Admissible) {nodeReport : Option NodeReport}
    (hreadable : ∀ report ∈ nodeReport, ∃ usage, report.usage = .ok usage) (pipelineReport : Field)
    (layout : Option LayoutReport) :
    let request : OperationRequest := .register (some given.toValue) nodeReport pipelineReport layout
    world.Echoes given.id (world.serve request) ((world.serve request).1.serve request) := by
  intro request
  have hsound' : (world.serve request).1.manager.Sound := sound_serve hsound request
  by_cases hfits : world.manager.topology.Fits given.id given.located.location
  · obtain ⟨once, honce, hregisters, hwrites⟩ :=
      exists_serve_register_of_fits hsound hgiven hreadable hfaultless hfits pipelineReport layout
    rw [show world.serve request = _ from honce] at hsound' ⊢
    have htable : once.manager.table = world.manager.table := congrArg Settings.table hregisters.settings
    have hplaced : once.manager.topology.location? given.id = some given.located.location := by
      rw [hregisters.location?, if_pos given.id_located]
    obtain ⟨twice, htwice, hregisters', hwrites'⟩ :=
      exists_serve_register_of_fits hsound' hgiven hreadable (fun huses ↦ hwrites.faultless (htable.symm.trans huses))
        (hsound'.topology.fits_of_location? hplaced) pipelineReport layout
    rw [show once.serve request = _ from htwice]
    have hcluster : once.manager.cluster.id = world.manager.cluster.id := by rw [hregisters.cluster]; rfl
    rw [hregisters.completedRecord_eq] at hwrites'
    exact
      { answered := ⟨_, rfl⟩
        outcome := by rw [hcluster]
        settled := hregisters.settled hregisters'
        rows := hwrites.rowsOf_eq hwrites' htable hregisters.clock
        commands := by
          have hclock : world.clock = once.manager.clock := hregisters.clock.symm
          rw [hregisters'.commands, ← given.id_located, hclock]
          exact once.manager.finalizing_cases _ _ _ }
  · obtain ⟨once, honce, hturned, htables⟩ :=
      exists_serve_register_of_not_fits hsound hgiven hfits nodeReport pipelineReport layout
    rw [show world.serve request = _ from honce] at hsound' ⊢
    have hfits' : ¬ once.manager.topology.Fits given.id given.located.location :=
      fun hfits' ↦ hfits (hfits'.of_location?_eq fun id ↦ (hturned.location? id).symm)
    obtain ⟨twice, htwice, hturned', htables'⟩ :=
      exists_serve_register_of_not_fits hsound' hgiven hfits' nodeReport pipelineReport layout
    rw [show once.serve request = _ from htwice]
    have hcluster : once.manager.cluster.id = world.manager.cluster.id := by
      rw [hturned.cluster, ClusterContext.id_addError]
      rfl
    exact
      { answered := ⟨_, rfl⟩
        outcome := by rw [hcluster]
        settled := hturned.settled hturned'
        rows := fun number ↦ by
          unfold rowsOf store?
          rw [htables']
        commands := .inl hturned'.commands }

/-- At every moment of a run, while the table in use is faultless, a registration with admissible details, any layout
and reports that can be read is answered.  Made again at the same time with the same arguments it is answered alike,
whether it was accepted or refused.  The registry, all locations, the known datanodes, the marks of those not yet
written, the condition of the cluster and the rows of every table are then as the first one left them, and of the
commands there is at most one more to finalize. -/
theorem registration_repeats_after {start : World} (hempty : start.manager.HasEmptyMemory) (moves : List Move)
    (hfaultless : ∀ {number}, (start.after moves).manager.table = some number → (start.after moves).IsFaultless number)
    {given : Details} (hgiven : given.Admissible) {nodeReport : Option NodeReport}
    (hreadable : ∀ report ∈ nodeReport, ∃ usage, report.usage = .ok usage) (pipelineReport : Field)
    (layout : Option LayoutReport) :
    let world := start.after moves
    let request : OperationRequest := .register (some given.toValue) nodeReport pipelineReport layout
    world.Echoes given.id (world.serve request) ((world.serve request).1.serve request) :=
  echoes_serve_register (sound_after hempty.sound moves) hfaultless hgiven hreadable pipelineReport layout

/-- A new datanode whose metadata lies behind registers with a report, and is known when it registers again. -/
theorem registration_repeats_after_first :
    let world := (initial .default).after []
    let given := Details.sample "/rack1"
    let report : NodeReport := ⟨some [⟨⟨100, 10, 90⟩, false⟩]⟩
    let request : OperationRequest := .register (some given.toValue) (some report) none (some ⟨8, 7⟩)
    let once := world.serve request
    let twice := once.1.serve request
    world.manager.registry.contains given.id = false ∧ once.1.manager.registry.contains given.id = true ∧
      given.Admissible ∧ once.1.manager.commands.count given.id = 1 ∧ twice.1.manager.commands.count given.id = 2 ∧
      world.Echoes given.id once twice := by
  intro world given report request once twice
  have hempty : (initial .default).manager.HasEmptyMemory := hasEmptyMemory_initial .default
  have hgiven : given.Admissible := ⟨by decide +kernel, [], rfl⟩
  have hfaultless {number : Nat} (huses : world.manager.table = some number) : world.IsFaultless number := by
    obtain rfl : 0 = number := Option.some.inj huses
    intro table htable
    obtain rfl : _ = table := Option.some.inj htable
    exact ⟨rfl, trivial⟩
  have hreadable : ∀ given ∈ some report, ∃ usage, given.usage = .ok usage := by
    intro given hmem
    obtain rfl : report = given := Option.some.inj hmem
    exact ⟨_, rfl⟩
  exact ⟨by decide +kernel, by decide +kernel, hgiven, by decide +kernel, by decide +kernel,
    registration_repeats_after hempty [] hfaultless hgiven hreadable none (some ⟨8, 7⟩)⟩

end World

end ClusterMembership
