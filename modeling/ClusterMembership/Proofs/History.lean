import ClusterMembership.Proofs.Operations
import ClusterMembership.Service.Startup

/-!
# Runs of a service

A run is a list of moves, one after another: calls of the service, the passing of time, a change of layout, and
whatever else happens to the node tables.  A call is served to its end before the next move, and it may be
refused or fail at any point.  `stores_agree_after` says what holds of the stores after every run that starts
with nothing in memory: it follows from the soundness of each operation by induction on the moves.
-/

namespace ClusterMembership

inductive Call where
  /-- Register, heartbeat, remove, set an operational state, or follow the primary's. -/
  | operate (request : OperationRequest)
  /-- Queue a command for a datanode. -/
  | queue (id : String) (command : Command)
  /-- Take a command that came in for a datanode. -/
  | take (id : String) (command : Command)
  /-- Drop what waits for a datanode. -/
  | purge (id : String)
  /-- Ask the healthy datanodes in service to refresh their volume usage. -/
  | refreshUsage
  /-- Sweep as of a time, by default the present. -/
  | sweep (moment : Option Instant)
  /-- Load the node table in use. -/
  | load
  /-- Switch to another node table or to none, and load it. -/
  | switch (table : Option Nat)

inductive Move where
  | call (call : Call)
  /-- Time passes, or the clock is set back. -/
  | tick (now : Instant)
  /-- The metadata layout of the service is brought up to its software layout. -/
  | finalizeLayout
  /-- Some later calls of a node table are to fail. -/
  | spoil (table : Nat) (faults : List Fault)
  /-- Others write to the node tables, or replace them. -/
  | exchange (tables : List Table)

namespace Table

def spoil (table : Table) (faults : List Fault) : Table := { table with faults := table.faults ++ faults }

end Table

namespace World

/-- Make a call while nothing else goes on. -/
def call (world : World) : Call → World × Outcome
  | .operate request => world.serve request
  | .queue id command =>
    match world.manager.addCommand id command with
    | .ok manager => (world.withManager manager, .ok .nothing)
    | .error failure => (world, .error failure)
  | .take id command => ({ world with service := world.service.onCommand id command }, .ok .nothing)
  | .purge id =>
    let (manager, dropped) := world.manager.purgeCommands id
    (world.withManager manager, .ok (.count dropped))
  | .refreshUsage =>
    let (service, asked) := world.service.refreshUsage
    ({ world with service := service }, .ok (.count asked))
  | .sweep moment =>
    let (manager, swept) := world.manager.checkHeartbeats (moment.getD world.clock)
    (world.withManager manager, .ok (.value swept.toValue))
  | .load => world.load
  | .switch table => world.reinitialize table

def move (world : World) : Move → World
  | .call call => (world.call call).1
  | .tick now => world.setClock now
  | .finalizeLayout => world.mapManager Manager.finalizeLayout
  | .spoil table faults => { world with tables := world.tables.modify table fun spoilt ↦ spoilt.spoil faults }
  | .exchange tables => { world with tables := tables }

/-- Where a run leads. -/
def after (world : World) (moves : List Move) : World := moves.foldl move world

theorem after_append (world : World) (moves : List Move) (move : Move) :
    world.after (moves ++ [move]) = (world.after moves).move move := by
  unfold after
  rw [List.foldl_append]
  rfl

end World

/-- Something began in a run and has not ended since.  Whether a step begins or ends it may depend on the steps
before. -/
inductive Since {α : Type} (begins ends : List α → α → Prop) : List α → Prop
  | begun {past : List α} {step : α} (h : begins past step) : Since begins ends (past ++ [step])
  | lasting {past : List α} {step : α} (h : Since begins ends past) (hlasts : ¬ ends past step) :
    Since begins ends (past ++ [step])

theorem not_since_nil {α : Type} {begins ends : List α → α → Prop} : ¬ Since begins ends [] := by
  intro h
  generalize hnil : ([] : List α) = steps at h
  cases h with
  | begun _ | lasting _ _ => simp at hnil

/-- A step begins what it was about, or lets it last. -/
theorem since_append_iff {α : Type} {begins ends : List α → α → Prop} {past : List α} {step : α} :
    Since begins ends (past ++ [step]) ↔
      begins past step ∨ Since begins ends past ∧ ¬ ends past step := by
  constructor
  · intro h
    generalize hsteps : past ++ [step] = steps at h
    cases h with
    | begun h =>
      obtain ⟨rfl, hlast⟩ := List.append_inj' hsteps rfl
      exact .inl (List.singleton_inj.mp hlast ▸ h)
    | lasting h hlasts =>
      obtain ⟨rfl, hlast⟩ := List.append_inj' hsteps rfl
      exact .inr ⟨h, List.singleton_inj.mp hlast ▸ hlasts⟩
  · rintro (h | ⟨h, hlasts⟩)
    · exact .begun h
    · exact .lasting h hlasts

namespace Manager

/-- A manager that has nothing in memory. -/
structure HasEmptyMemory (manager : Manager) : Prop where
  registry : manager.registry = .empty
  commands : manager.commands = .empty
  known : manager.known = .empty
  topology : manager.topology = .empty
  unsynced : manager.unsynced = []

/-- The stores of a manager agree with one another. -/
structure Agrees (manager : Manager) : Prop where
  /-- Every record stands under the identity in its details. -/
  keyed : ∀ {id record}, manager.registry.get? id = some record →
    record.details.identity = some (.text id)
  /-- The details of a record repeat the operational state of its status. -/
  stated : ∀ {id record}, manager.registry.get? id = some record →
    record.details.operational = record.status.operational ∧ record.details.expiry = record.status.expiry
  /-- The registry and the topology hold the same datanodes at the same locations. -/
  placed : ∀ id, (manager.topology.location? id).map (fun location ↦ some (Value.text location)) =
    (manager.registry.get? id).map fun record ↦ record.details.networkLocation
  /-- All locations have the same number of segments. -/
  level : ∀ {a b here there}, manager.topology.location? a = some here →
    manager.topology.location? b = some there →
    (Location.segments here.toList).length = (Location.segments there.toList).length
  /-- Every registered datanode is known. -/
  known : ∀ {id}, manager.registry.contains id = true → ∃ descriptor, manager.known.peek id = some descriptor
  /-- Commands wait for registered datanodes only. -/
  queued : ∀ {id}, manager.commands.peek id ≠ [] → manager.registry.contains id = true
  /-- Counts are held of registered datanodes only. -/
  held : ∀ {id counts}, manager.commands.reported? id = some counts → manager.registry.contains id = true
  /-- Only a registered datanode can have a write that failed. -/
  unsynced : ∀ {id}, id ∈ manager.unsynced → manager.registry.contains id = true

theorem HasEmptyMemory.sound {manager : Manager} (hempty : manager.HasEmptyMemory) : manager.Sound :=
  sound_of_empty hempty.registry hempty.commands hempty.topology hempty.unsynced

/-- The stores of a sound manager agree. -/
theorem Sound.agrees {manager : Manager} (hsound : manager.Sound) : manager.Agrees where
  keyed h := by
    have hrecord := hsound.records (standing_eq_some h)
    rw [← hrecord.identified]
    exact hrecord.kept.identity_eq
  stated h :=
    have hrecord := hsound.records (standing_eq_some h)
    ⟨hrecord.operational, hrecord.expiry⟩
  placed id := by
    rw [hsound.placed]
    cases hrecord : manager.registry.get? id with
    | none => simp [standing, hrecord]
    | some record =>
      have hstanding := standing_eq_some hrecord
      rw [hstanding, Option.map_some, Option.map_some, Option.map_some]
      exact congrArg some (hsound.records hstanding).kept.networkLocation_eq.symm
  level ha hb := Nat.succ.inj (hsound.topology.level ha hb)
  known h := Option.ne_none_iff_exists'.mp (hsound.known h)
  queued := hsound.queued
  held h := hsound.held (by simp [h])
  unsynced := hsound.unsynced

/-- Starting and stopping the sweeps leaves the stores alone. -/
theorem stores_startMonitoring (manager : Manager) : manager.startMonitoring.stores = manager.stores := by
  unfold startMonitoring
  split <;> rfl

end Manager

/-- A service that was just made has nothing in memory. -/
theorem Service.hasEmptyMemory_make (settings : ServiceSettings) (configuration : Configuration) :
    (Service.make settings configuration).manager.HasEmptyMemory := by
  have hstores : (Service.make settings configuration).manager.stores =
      (Service.managerFor settings configuration).stores := by
    unfold Service.make
    simp only
    split
    · exact Manager.stores_startMonitoring _
    · rfl
  exact
    { registry := congrArg Stores.registry hstores
      commands := congrArg Stores.commands hstores
      known := congrArg Stores.known hstores
      topology := congrArg Stores.topology hstores
      unsynced := congrArg Stores.unsynced hstores }

/-! ## Primaries -/

namespace Service

/-- A service that is nobody's observer. -/
def IsPrimary (service : Service) : Prop := service.observer = none

variable {service : Service}

theorem IsPrimary.afterRemoval (h : service.IsPrimary) (id : String) (outcome : Outcome) :
    (service.afterRemoval id outcome).IsPrimary := by
  unfold Service.afterRemoval
  split
  · exact congrArg (Option.map fun observer ↦ observer.forget id) h
  · exact h

theorem IsPrimary.heartbeat_eq (h : service.IsPrimary) (details : Details) (report : HeartbeatReport)
    (issuedAt : Instant) :
    service.heartbeat details report issuedAt = service.primaryHeartbeat details report issuedAt := by
  unfold Service.heartbeat
  rw [h]

theorem IsPrimary.start (h : service.IsPrimary) (operation : Operation) :
    (service.start operation).1.IsPrimary := by
  cases operation with
  | heartbeat details report issuedAt =>
    simp only [Service.start, h.heartbeat_eq]
    exact h
  | remove id =>
    have hstarted : (service.started (fun _ ↦ Remainder.removal id)
        (service.manager.beginRemoval id)).1.IsPrimary := h
    unfold Service.start
    simp only
    split
    · next removed outcome hended =>
      rw [hended] at hstarted
      exact hstarted.afterRemoval id outcome
    · next waiting progress _ hwaits =>
      rw [hwaits] at hstarted
      exact hstarted
  | _ => exact h

theorem IsPrimary.finish (h : service.IsPrimary) (remainder : Remainder) (answer : TableAnswer) :
    (service.finish remainder answer).1.IsPrimary := by
  cases remainder with
  | removal id =>
    have hremoved : (service.withManager (service.manager.finishRemoval id answer).1).IsPrimary := h
    exact hremoved.afterRemoval id _
  | _ => exact h

theorem IsPrimary.onCommand_eq (h : service.IsPrimary) (id : String) (command : Command) :
    service.onCommand id command = service.withManager (service.manager.onCommand id command) := by
  unfold Service.onCommand
  rw [h]
  rfl

theorem IsPrimary.refreshUsage_eq (h : service.IsPrimary) :
    service.refreshUsage = (service.withManager service.manager.refreshUsage.1,
      service.manager.refreshUsage.2) := by
  unfold Service.refreshUsage
  rw [h]

end Service

namespace World

variable {world : World}

theorem isPrimary_ask (h : world.service.IsPrimary) (number : Nat) (request : TableRequest) :
    (world.ask number request).1.service.IsPrimary :=
  (world.observer_ask number request).trans h

/-- A primary stays a primary, whatever it is asked to do. -/
theorem isPrimary_run (h : world.service.IsPrimary) (operation : Operation) :
    (world.run operation).1.service.IsPrimary := by
  have hstarted : (world.start operation).1.service.IsPrimary := h.start operation
  unfold run
  split
  · next ended outcome hended => rwa [hended] at hstarted
  · next waiting table request remainder hwaiting =>
    rw [hwaiting] at hstarted
    exact (isPrimary_ask hstarted table request).finish remainder _

theorem isPrimary_serve (h : world.service.IsPrimary) (request : OperationRequest) :
    (world.serve request).1.service.IsPrimary := by
  have hprepared : (world.prepare request).1.service.IsPrimary := by
    cases request <;> exact h
  unfold serve
  split
  · next refused failure hrefused => rwa [hrefused] at hprepared
  · next ready operation hready =>
    rw [hready] at hprepared
    exact isPrimary_run hprepared operation

theorem isPrimary_load (h : world.service.IsPrimary) : world.load.1.service.IsPrimary := by
  apply load_induction (P := fun reached ↦ reached.service.IsPrimary) _ _ _ _ h
  · exact fun number request hreached ↦ isPrimary_ask hreached number request
  · exact fun hreached _ ↦ hreached
  · exact fun hreached _ ↦ isPrimary_run hreached _
  · intro reached number hreached
    unfold iterate
    split <;> exact hreached

theorem isPrimary_move (h : world.service.IsPrimary) (move : Move) :
    (world.move move).service.IsPrimary := by
  cases move with
  | call call =>
    cases call with
    | operate request => exact isPrimary_serve h request
    | queue id command =>
      unfold World.move World.call
      simp only
      split <;> exact h
    | take id command =>
      simp only [World.move, World.call, h.onCommand_eq]
      exact h
    | refreshUsage =>
      simp only [World.move, World.call, h.refreshUsage_eq]
      exact h
    | purge id => exact h
    | sweep moment => exact h
    | load => exact isPrimary_load h
    | switch table =>
      have hswitched : (world.switchTable table).service.IsPrimary := h
      exact isPrimary_load hswitched
  | _ => exact h

theorem isPrimary_after (h : world.service.IsPrimary) (moves : List Move) :
    (world.after moves).service.IsPrimary := by
  unfold after
  induction moves generalizing world with
  | nil => exact h
  | cons move rest ih => exact ih (isPrimary_move h move)

/-! ## Soundness of runs -/

theorem tended_queue (world : World) (id : String) (command : Command) :
    world.manager.Tended (world.call (.queue id command)).1.manager := by
  unfold World.call
  simp only
  split
  · next queued hqueued => exact Manager.tended_of_addCommand hqueued
  · exact .refl world.manager

theorem tended_take (world : World) (id : String) (command : Command) :
    world.manager.Tended (world.call (.take id command)).1.manager := by
  have htaken : world.manager.Tended (world.service.onCommand id command).manager := by
    unfold Service.onCommand
    split
    · exact Manager.tended_note _ _
    · exact Manager.tended_onCommand _ id command
  exact htaken

theorem sound_switchTable (hsound : world.manager.Sound) (table : Option Nat) :
    (world.switchTable table).manager.Sound :=
  hsound.of_stores (fun _ ↦ rfl) (fun _ ↦ rfl) (fun h ↦ h) .inl .inl .inl

/-- Every call keeps a manager sound, however it ends. -/
theorem sound_call (hsound : world.manager.Sound) (call : Call) :
    (world.call call).1.manager.Sound := by
  cases call with
  | operate request => exact sound_serve hsound request
  | queue id command => exact hsound.tended (world.tended_queue id command)
  | take id command => exact hsound.tended (world.tended_take id command)
  | purge id => exact hsound.tended (Manager.tended_purgeCommands _ id)
  | refreshUsage =>
    have hasked : world.service.refreshUsage.1.manager.Sound := by
      unfold Service.refreshUsage
      split
      · exact hsound
      · exact hsound.tended (Manager.tended_refreshUsage _ hsound.keyed)
    exact hasked
  | sweep moment => exact hsound.tended (Manager.tended_checkHeartbeats _ hsound.keyed _)
  | load => exact sound_load hsound
  | switch table => exact sound_load (sound_switchTable hsound table)

/-- Every move keeps a manager sound. -/
theorem sound_move (hsound : world.manager.Sound) (move : Move) :
    (world.move move).manager.Sound := by
  cases move with
  | call call => exact sound_call hsound call
  | tick now =>
    have halike : world.manager.Alike (world.setClock now).manager := ⟨rfl, rfl⟩
    exact hsound.alike halike
  | finalizeLayout => exact hsound.of_stores (fun _ ↦ rfl) (fun _ ↦ rfl) (fun h ↦ h) .inl .inl .inl
  | spoil table faults => exact hsound
  | exchange tables => exact hsound

/-- Every run keeps a manager sound. -/
theorem sound_after (hsound : world.manager.Sound) (moves : List Move) :
    (world.after moves).manager.Sound := by
  unfold after
  induction moves generalizing world with
  | nil => exact hsound
  | cons move rest ih => exact ih (sound_move hsound move)

/-- After every run from empty memory, of a primary or an observer, under either durability and whatever the
node tables answer, the stores agree with one another. -/
theorem stores_agree_after (world : World) (hempty : world.manager.HasEmptyMemory) (moves : List Move) :
    (world.after moves).manager.Agrees :=
  (sound_after hempty.sound moves).agrees

/-- A primary that was just made, over an empty table in memory. -/
def initial (configuration : Configuration) : World :=
  ⟨Service.make { table := some 0, clock := 0 } configuration, [.ofStore (.memory (.create []))]⟩

theorem hasEmptyMemory_initial (configuration : Configuration) :
    (initial configuration).manager.HasEmptyMemory :=
  Service.hasEmptyMemory_make _ _

end World

def Details.sample (location : String) : Details :=
  ⟨[("uuid", .text "6b1d2b5e-3c1a-4e0f-9a53-0d8a7c1f2e44"), ("hostName", .text "dn1"),
    ("ipAddress", .text "10.0.0.1"), ("ports", .list []), ("networkLocation", .text location),
    ("persistedOpState", .text OperationalState.inService.name)]⟩

def Move.sample (location : String) : Move :=
  .call (.operate (.register (some (Details.sample location).toValue) none none none))

namespace World

/-- Under strict durability a datanode is to move to another rack, but the write fails. -/
theorem stores_agree_after_undone_move :
    let world := initial { Configuration.default with durability := "strict" }
    let moves := [Move.sample "/rack1", .spoil 0 [⟨.put, .error "disk full", 1, 0⟩], Move.sample "/rack2"]
    world.manager.HasEmptyMemory ∧ (world.after moves).manager.Agrees ∧
      (world.after moves).manager.topology.location? (Details.sample "").id = some "/rack1" :=
  ⟨hasEmptyMemory_initial _, stores_agree_after _ (hasEmptyMemory_initial _) _, by decide +kernel⟩

end World

end ClusterMembership
