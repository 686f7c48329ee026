import ClusterMembership.Proofs.History
import ClusterMembership.Proofs.MemoryTable

/-!
# The node table as a mirror of the registry

A primary under best-effort durability keeps its node table in step with the registry, apart from the datanodes
whose last write failed, and it knows which these are.  The invariant is `Manager.Mirrored`: every row belongs to
a registered datanode and holds details in their kept form under their own identifier, and the row of a datanode
that is not marked holds exactly the details of the registry.  A load reads such rows back: it changes nothing
about a datanode that is not marked, since registering it with its own details renews them to what they are.

The same invariant holds, with nothing marked, when no call of the table fails.  `Reliance` says which of the
two it is.
-/

namespace ClusterMembership

/-- What a primary relies on when it writes to its table. -/
inductive Reliance where
  /-- No call of the table fails. -/
  | faultless
  /-- A failed write is remembered. -/
  | bestEffort
  deriving DecidableEq

/-- What has to hold of a manager and of the faults of its table. -/
def Reliance.Suits : Reliance → Manager → List Fault → Prop
  | .faultless, manager, faults => faults = [] ∧ manager.unsynced = []
  | .bestEffort, manager, _ => manager.configuration.isStrict = false

namespace Reliance

/-- Marks may go, and faults that are not there do not come. -/
theorem Suits.mono {reliance : Reliance} {before after : Manager} {faults rest : List Fault}
    (hsuits : reliance.Suits before faults) (hsettings : after.settings = before.settings)
    (hunsynced : ∀ id, id ∈ after.unsynced → id ∈ before.unsynced) (hrest : faults = [] → rest = []) :
    reliance.Suits after rest := by
  cases reliance with
  | faultless =>
    refine ⟨hrest hsuits.1, List.eq_nil_iff_forall_not_mem.mpr fun id hmem ↦ ?_⟩
    have hnone := hunsynced id hmem
    rw [hsuits.2] at hnone
    exact List.not_mem_nil hnone
  | bestEffort =>
    exact (congrArg (fun settings : Settings ↦ settings.configuration.isStrict) hsettings).trans hsuits

end Reliance

namespace Manager

/-- The rows of a table mirror the registry, apart from the datanodes whose last write failed. -/
structure Mirrored (manager : Manager) (rows : OrderedMap Field) : Prop where
  registered : ∀ {id field}, rows.get? id = some field → manager.registry.contains id = true
  stored : ∀ {id field}, rows.get? id = some field →
    ∃ details : Details, field = some details.toValue ∧ details.id = id ∧ details.Kept
  synced : ∀ {id standing}, manager.standing id = some standing → id ∉ manager.unsynced →
    rows.get? id = some (some standing.details.toValue)

/-- A manager in which one standing has been renewed in memory. -/
structure Renews (before after : Manager) (id : String) (standing : Standing) : Prop where
  standing : ∀ other, after.standing other = if id = other then some standing else before.standing other
  unsynced : after.unsynced = before.unsynced
  settings : after.settings = before.settings

variable {manager waiting written : Manager} {rows : OrderedMap Field} {id : String} {standing : Standing}

theorem Mirrored.of_standing (h : manager.Mirrored rows)
    (hstanding : ∀ other, written.standing other = manager.standing other)
    (hunsynced : ∀ other, other ∈ manager.unsynced → other ∈ written.unsynced) : written.Mirrored rows where
  registered hrow := by
    rw [contains_eq_isSome_standing, hstanding, ← contains_eq_isSome_standing]
    exact h.registered hrow
  stored := h.stored
  synced hother hmarked := h.synced ((hstanding _).symm.trans hother) fun hmem ↦ hmarked (hunsynced _ hmem)

theorem Mirrored.tended (h : manager.Mirrored rows) (htended : manager.Tended written) :
    written.Mirrored rows :=
  h.of_standing htended.standing fun _ hmem ↦ htended.unsynced.symm ▸ hmem

theorem Renews.contains (h : manager.Renews waiting id standing) {other : String}
    (hother : manager.registry.contains other = true) : waiting.registry.contains other = true := by
  rw [contains_eq_isSome_standing] at hother ⊢
  rw [h.standing]
  split
  · rfl
  · exact hother

theorem Renews.alike (h : manager.Renews waiting id standing) (halike : waiting.Alike written) :
    manager.Renews written id standing where
  standing other := (halike.standing other).trans (h.standing other)
  unsynced := halike.unsynced.trans h.unsynced
  settings := halike.settings.trans h.settings

theorem Renews.contains_self (h : manager.Renews waiting id standing) :
    waiting.registry.contains id = true := by
  rw [contains_eq_isSome_standing, h.standing, if_pos rfl]
  rfl

/-- A registration that is placed renews the standing of its datanode. -/
theorem renews_of_placing (hkeyed : manager.Keyed) {request : RegistrationRequest} {inPlace : Manager}
    (h : manager.placing request = (inPlace, none)) :
    manager.Renews inPlace request.details.id
      (Standing.renewed (manager.standing request.details.id) request.details) := by
  let recorded : Manager := { manager with known := manager.known.record request.details }
  have hinPlace : (recorded.place request.details (request.layout.getD manager.layout.report)
      manager.clock).1 = inPlace := congrArg Prod.fst h
  have hrest : recorded.SameRest inPlace :=
    hinPlace ▸ recorded.sameRest_place request.details _ manager.clock
  have hrecorded : recorded.Keyed := fun hrecord ↦ hkeyed hrecord
  exact ⟨standing_place hrecorded h, hrest.unsynced, hrest.settings⟩

/-- What a registration writes are the details that the registry holds by then. -/
theorem stored_placedBy {request : RegistrationRequest} {inPlace : Manager}
    (hrenews : manager.Renews inPlace request.details.id standing) :
    (manager.placedBy inPlace request).stored = standing.details := by
  have hself : inPlace.standing request.details.id = some standing := by
    rw [hrenews.standing, if_pos rfl]
  obtain ⟨record, hrecord, hsame⟩ := exists_record_of_standing hself
  unfold placedBy
  rw [hrecord, ← hsame]
  rfl

theorem finishRegistration_of_settled {placed : PlacedRegistration} {answer : TableAnswer}
    (h : manager.settleWrite placed.request.details.id answer = (written, .ok ())) :
    manager.finishRegistration placed answer = acknowledge (written.completeRegistration placed) := by
  unfold finishRegistration
  rw [h]

/-- A renewed standing that is written is mirrored by its new row. -/
theorem Mirrored.insert (h : manager.Mirrored rows) (hrenews : manager.Renews waiting id standing)
    (hsound : standing.Sound id) (hwritten : ∀ other, written.standing other = waiting.standing other)
    (hmarks : ∀ other, other ∈ written.unsynced ↔ other ∈ waiting.unsynced ∧ other ≠ id) :
    written.Mirrored (rows.insert id (some standing.details.toValue)) where
  registered := fun {other field} hrow ↦ by
    rw [contains_eq_isSome_standing, hwritten, ← contains_eq_isSome_standing]
    rw [OrderedMap.get?_insert] at hrow
    split at hrow
    · next hsame => exact hsame ▸ hrenews.contains_self
    · exact hrenews.contains (h.registered hrow)
  stored := fun {other field} hrow ↦ by
    rw [OrderedMap.get?_insert] at hrow
    split at hrow
    · next hsame =>
      exact ⟨standing.details, (Option.some.inj hrow).symm, hsame ▸ hsound.identified, hsound.kept⟩
    · exact h.stored hrow
  synced := fun {other current} hother hmarked ↦ by
    rw [hwritten, hrenews.standing] at hother
    rw [OrderedMap.get?_insert]
    split at hother
    · next hsame => rw [if_pos hsame, Option.some.inj hother]
    · next hdifferent =>
      rw [if_neg hdifferent]
      refine h.synced hother fun hmem ↦ hmarked ((hmarks other).mpr ⟨?_, Ne.symm hdifferent⟩)
      exact hrenews.unsynced ▸ hmem

/-- A renewed standing that is not written is marked, and its row is any row that was there. -/
theorem Mirrored.mark (h : manager.Mirrored rows) (hrenews : manager.Renews waiting id standing)
    (hwritten : ∀ other, written.standing other = waiting.standing other)
    (hmarks : ∀ other, other ∈ written.unsynced ↔ other ∈ waiting.unsynced ∨ other = id) :
    written.Mirrored rows where
  registered := fun {other field} hrow ↦ by
    rw [contains_eq_isSome_standing, hwritten, ← contains_eq_isSome_standing]
    exact hrenews.contains (h.registered hrow)
  stored := h.stored
  synced := fun {other current} hother hmarked ↦ by
    rw [hwritten, hrenews.standing] at hother
    split at hother
    · next hsame => exact absurd ((hmarks other).mpr (.inr hsame.symm)) hmarked
    · exact h.synced hother fun hmem ↦ hmarked ((hmarks other).mpr (.inl (hrenews.unsynced ▸ hmem)))

theorem Mirrored.exists_standing (h : manager.Mirrored rows) {field : Field}
    (hrow : rows.get? id = some field) : ∃ standing, manager.standing id = some standing := by
  have hcontains := h.registered hrow
  rw [contains_eq_isSome_standing] at hcontains
  exact Option.isSome_iff_exists.mp hcontains

/-- A datanode that registers with the details of its row renews its standing to what it is, unless it is marked;
then any row will do. -/
theorem Mirrored.renews_stored (h : manager.Mirrored rows) (hsound : manager.Sound) {details : Details}
    (hrow : rows.get? details.id = some (some details.toValue))
    (hrenews : manager.Renews waiting details.id
      (Standing.renewed (manager.standing details.id) details)) : waiting.Mirrored rows := by
  by_cases hmarked : details.id ∈ manager.unsynced
  · refine h.mark hrenews (fun _ ↦ rfl) fun other ↦ ⟨.inl, ?_⟩
    rintro (hmem | rfl)
    · exact hmem
    · exact hrenews.unsynced ▸ hmarked
  · obtain ⟨standing, hstanding⟩ := h.exists_standing hrow
    have hsynced := h.synced hstanding hmarked
    rw [hrow] at hsynced
    have hdetails : details = standing.details :=
      Details.toValue_inj.mp (Option.some.inj (Option.some.inj hsynced))
    have hrenewed : Standing.renewed (manager.standing details.id) details = standing := by
      rw [hstanding, hdetails]
      exact (hsound.records hstanding).renewed_self
    refine h.of_standing (fun other ↦ ?_) fun other hmem ↦ hrenews.unsynced.symm ▸ hmem
    rw [hrenews.standing, hrenewed]
    split
    · next hsame => exact hsame ▸ hstanding.symm
    · rfl

/-- A datanode that is forgotten takes its row along. -/
theorem Mirrored.forget (h : manager.Mirrored rows) (id : String) :
    (manager.forget id).Mirrored (rows.erase id) where
  registered := fun {other field} hrow ↦ by
    rw [OrderedMap.get?_erase] at hrow
    split at hrow
    · simp at hrow
    · next hdifferent =>
      rw [contains_eq_isSome_standing, standing_forget, if_neg hdifferent, ← contains_eq_isSome_standing]
      exact h.registered hrow
  stored := fun {other field} hrow ↦ by
    rw [OrderedMap.get?_erase] at hrow
    split at hrow
    · simp at hrow
    · exact h.stored hrow
  synced := fun {other current} hother hmarked ↦ by
    rw [standing_forget] at hother
    rw [OrderedMap.get?_erase]
    split at hother
    · simp at hother
    · next hdifferent =>
      rw [if_neg hdifferent]
      exact h.synced hother fun hmem ↦
        hmarked ((manager.mem_unsynced_forget id other).mpr ⟨hmem, Ne.symm hdifferent⟩)

end Manager

namespace World

/-- A primary whose table in memory mirrors its registry. -/
structure Mirrors (world : World) (number : Nat) (reliance : Reliance) : Prop where
  sound : world.manager.Sound
  observer : world.service.observer = none
  authority : world.manager.authority = .enforce
  table : world.manager.table = some number
  mirrored : ∃ memory faults, world.Holds number memory faults ∧
    reliance.Suits world.manager faults ∧ world.manager.Mirrored memory.rows

namespace Mirrors

variable {world : World} {number : Nat} {reliance : Reliance}

theorem primary (h : world.Mirrors number reliance) : world.service.IsPrimary := h.observer

/-- A world that is set up in the same way mirrors its registry as soon as its rows do. -/
theorem of_settings (h : world.Mirrors number reliance) {reached : World} (hsound : reached.manager.Sound)
    (hobserver : reached.service.observer = world.service.observer)
    (hsettings : reached.manager.settings = world.manager.settings) {memory : MemoryTable}
    {faults : List Fault} (hholds : reached.Holds number memory faults)
    (hsuits : reliance.Suits reached.manager faults) (hmirrored : reached.manager.Mirrored memory.rows) :
    reached.Mirrors number reliance where
  sound := hsound
  observer := hobserver.trans h.observer
  authority := (congrArg Settings.authority hsettings).trans h.authority
  table := (congrArg Settings.table hsettings).trans h.table
  mirrored := ⟨memory, faults, hholds, hsuits, hmirrored⟩

/-- What tends the manager keeps the mirror. -/
theorem tended (h : world.Mirrors number reliance) {after : Manager} (htended : world.manager.Tended after) :
    (world.withManager after).Mirrors number reliance := by
  obtain ⟨memory, faults, hholds, hsuits, hmirrored⟩ := h.mirrored
  exact h.of_settings (h.sound.tended htended) rfl htended.settings hholds
    (hsuits.mono htended.settings (fun _ hmem ↦ htended.unsynced ▸ hmem) fun hnone ↦ hnone)
    (hmirrored.tended htended)

theorem alike (h : world.Mirrors number reliance) {after : Manager} (halike : world.manager.Alike after) :
    (world.withManager after).Mirrors number reliance :=
  h.tended halike.tended

/-- The row of a renewed standing was written: the mark goes. -/
theorem written (h : world.Mirrors number reliance) {asked : World} {id : String} {standing : Standing}
    (hrenews : world.manager.Renews asked.manager id standing) (hsound : asked.manager.Sound)
    (hobserver : asked.service.observer = world.service.observer) {memory : MemoryTable}
    {faults rest : List Fault} (hholds : world.Holds number memory faults)
    (hheld : asked.Holds number (memory.put id (some standing.details.toValue)) rest)
    (hrest : faults = [] → rest = []) :
    (asked.withManager (asked.manager.markSynced id)).Mirrors number reliance := by
  obtain ⟨held, others, hmemory, hsuits, hmirrored⟩ := h.mirrored
  obtain ⟨rfl, rfl⟩ := hmemory.unique hholds
  have hstanding : standing.Sound id := by
    apply hsound.records
    rw [hrenews.standing, if_pos rfl]
  have hmarks := asked.manager.mem_unsynced_markSynced id
  refine h.of_settings (hsound.markSynced id) hobserver hrenews.settings hheld
    (hsuits.mono hrenews.settings (fun other hother ↦ ?_) hrest)
    (hmirrored.insert hrenews hstanding (fun _ ↦ rfl) hmarks)
  exact hrenews.unsynced ▸ ((hmarks other).mp hother).1

/-- The row of a renewed standing was not written: the mark comes. -/
theorem unwritten (h : world.Mirrors number .bestEffort) {asked : World} {id : String} {standing : Standing}
    (hrenews : world.manager.Renews asked.manager id standing) (hsound : asked.manager.Sound)
    (hobserver : asked.service.observer = world.service.observer) {memory : MemoryTable}
    {faults rest : List Fault} (hholds : world.Holds number memory faults)
    (hheld : asked.Holds number memory rest) (failure : Failure) :
    ∃ marked, asked.manager.settleWrite id (.error failure) = (marked, .ok ()) ∧
      (asked.withManager marked).Mirrors number .bestEffort := by
  obtain ⟨held, others, hmemory, hsuits, hmirrored⟩ := h.mirrored
  obtain ⟨rfl, rfl⟩ := hmemory.unique hholds
  have hstrict : asked.manager.configuration.isStrict = false :=
    (congrArg (fun settings : Settings ↦ settings.configuration.isStrict) hrenews.settings).trans hsuits
  obtain ⟨note, hsettle⟩ := Manager.settleWrite_error_of_not_strict hstrict id failure
  obtain ⟨marks, hmark⟩ := (asked.manager.note note).markUnsynced_eq id
  have hmarks := (asked.manager.note note).mem_unsynced_markUnsynced id
  have hmarked : ((asked.manager.note note).markUnsynced id).Sound :=
    (hsound.tended (Manager.tended_note _ note)).markUnsynced hrenews.contains_self
  refine ⟨_, hsettle, ?_⟩
  rw [hmark] at hmarks hmarked ⊢
  exact h.of_settings hmarked hobserver hrenews.settings hheld hstrict
    (hmirrored.mark hrenews (fun _ ↦ rfl) hmarks)

/-- A renewed standing is written, or it is marked when the write fails. -/
theorem write (h : world.Mirrors number reliance) {waiting : Manager} {id : String} {standing : Standing}
    (hrenews : world.manager.Renews waiting id standing) (hsound : waiting.Sound) {asked : World}
    {answer : TableAnswer}
    (hask : (world.withManager waiting).ask number (.put id standing.details) = (asked, answer)) :
    ∃ written, asked.manager.settleWrite id answer = (written, .ok ()) ∧
      (∀ other, written.standing other = waiting.standing other) ∧
      (asked.withManager written).Mirrors number reliance := by
  obtain ⟨memory, faults, hholds, hsuits, -⟩ := h.mirrored
  have hwaiting : (world.withManager waiting).Holds number memory faults := hholds
  have halike := (world.withManager waiting).alike_ask number (.put id standing.details)
  have hobserver := (world.withManager waiting).observer_ask number (.put id standing.details)
  rw [hask] at halike hobserver
  have hrenewed := hrenews.alike halike
  have hasked : asked.manager.Sound := hsound.alike halike
  have hsame (other : String) : (asked.manager.settleWrite id answer).1.standing other =
      waiting.standing other :=
    (asked.manager.standing_settleWrite id answer other).trans (halike.standing other)
  obtain ⟨rest, hrest, ⟨hanswer, hheld⟩ | ⟨hfaults, ⟨failure, hfailure⟩, hheld⟩⟩ :=
    hwaiting.ask_write (by simp) hask
  · have hanswer : answer = .ok none := hanswer.symm
    subst hanswer
    exact ⟨asked.manager.markSynced id, rfl, hsame,
      h.written hrenewed hasked hobserver hholds hheld hrest⟩
  · subst hfailure
    cases reliance with
    | faultless => exact absurd hsuits.1 hfaults
    | bestEffort =>
      obtain ⟨marked, hsettle, hmirrors⟩ :=
        h.unwritten hrenewed hasked hobserver hholds hheld failure
      rw [hsettle] at hsame
      exact ⟨marked, hsettle, hsame, hmirrors⟩

/-! ## Operations -/

/-- Registrations that are written keep the mirror, also those that are refused. -/
theorem run_register (h : world.Mirrors number reliance) {request : RegistrationRequest}
    (hkept : request.details.Kept) (hpersist : request.persist = true) :
    (world.run (.register request)).1.Mirrors number reliance := by
  cases hplacing : world.manager.placing request with
  | mk inPlace refusal =>
    cases refusal with
    | some refusal =>
      rw [run_register_refused hplacing]
      exact (h.tended (Manager.tended_of_placing_refused hplacing)).alike (Manager.alike_refuse _ _ _)
    | none =>
      obtain ⟨hinPlace, hregistered⟩ := h.sound.placing hkept hplacing
      have hrenews := Manager.renews_of_placing h.sound.keyed hplacing
      have hwrite : (if request.persist then inPlace.table else none) = some number := by
        rw [if_pos hpersist]
        exact (congrArg Settings.table hrenews.settings).trans h.table
      cases hask : world.askedToPut inPlace number request with
      | mk asked answer =>
        rw [run_register_written hplacing hwrite hask]
        unfold World.askedToPut at hask
        rw [Manager.stored_placedBy hrenews] at hask
        obtain ⟨written, hsettled, hsame, hmirrors⟩ := h.write hrenews hinPlace hask
        have hstill : written.registry.contains request.details.id = true := by
          rw [Manager.contains_eq_isSome_standing, hsame, ← Manager.contains_eq_isSome_standing]
          exact hregistered
        rw [Manager.finishRegistration_of_settled hsettled]
        exact hmirrors.tended (Manager.tended_completeRegistration _ hmirrors.sound.keyed hstill)

/-- A removal that succeeds takes the row along; one that fails keeps both. -/
theorem run_remove (h : world.Mirrors number reliance) (id : String) :
    (world.run (.remove id)).1.Mirrors number reliance := by
  cases hregistered : world.manager.registry.contains id with
  | false =>
    rw [run_remove_of_absent hregistered]
    exact h
  | true =>
    cases hask : world.ask number (.delete id) with
    | mk asked answer =>
      obtain ⟨memory, faults, hholds, hsuits, hmirrored⟩ := h.mirrored
      have halike := world.alike_ask number (.delete id)
      have hobserver := world.observer_ask number (.delete id)
      rw [hask] at halike hobserver
      have hsame := hmirrored.tended halike.tended
      have hmono (other : String) (hmem : other ∈ asked.manager.unsynced) :
          other ∈ world.manager.unsynced := halike.unsynced ▸ hmem
      rw [run_remove_written hregistered h.table hask]
      obtain ⟨rest, hrest, ⟨hanswer, hheld⟩ | ⟨-, ⟨failure, hfailure⟩, hheld⟩⟩ :=
        hholds.ask_write (by simp) hask
      · have hanswer : answer = .ok none := hanswer.symm
        rw [hanswer]
        refine h.of_settings ((h.sound.alike halike).forget id) ?_ halike.settings hheld
          (hsuits.mono halike.settings (fun other hother ↦ ?_) hrest) (hsame.forget id)
        · exact (congrArg (Option.map fun observer ↦ observer.forget id) (hobserver.trans h.observer)).trans
            h.observer.symm
        · exact hmono other ((asked.manager.mem_unsynced_forget id other).mp hother).1
      · rw [hfailure]
        have hnoted := asked.manager.alike_note
          { component := Manager.component, level := .error
            message := "Failed to delete datanode from node table"
            context := [("datanodeId", .text id)]
            error := some (.service (failure.wrapPersistence "delete" (some id))) }
        exact h.of_settings (h.sound.alike (halike.trans hnoted)) hobserver halike.settings hheld
          (hsuits.mono halike.settings hmono hrest) (hsame.tended hnoted.tended)

/-- A change of an operational state is written, or it is marked when the write fails. -/
theorem runStateChange (h : world.Mirrors number reliance) (id : String) (state expiry : Field)
    (reply : Reply) :
    (world.runStateChange id (world.manager.beginStateChange id state expiry reply)).1.Mirrors
      number reliance := by
  cases hrecord : world.manager.registry.get? id with
  | none =>
    rw [Manager.beginStateChange_of_absent ((Registry.contains_eq_false_iff _ _).mpr hrecord)]
    exact h
  | some record =>
    obtain ⟨note, hbegin⟩ := Manager.exists_beginStateChange_eq hrecord state expiry reply
    rw [hbegin, h.table]
    let restated := (world.manager.restate id state (Registry.expiryOrNever expiry)
      world.manager.clock).note note
    have hrestated : restated.Sound := (h.sound.restate id state _ _).tended (Manager.tended_note _ note)
    have hrenews : world.manager.Renews restated id
        (record.standing.restated state (Registry.expiryOrNever expiry)) := by
      refine ⟨fun other ↦ ?_, rfl, rfl⟩
      refine (Manager.standing_restate h.sound.keyed id state _ _ other).trans ?_
      rw [Manager.standing_eq_some hrecord, Option.map_some]
    cases hask : (world.withManager restated).ask number
        (.put id (record.standing.restated state (Registry.expiryOrNever expiry)).details) with
    | mk asked answer =>
      obtain ⟨written, hsettled, -, hmirrors⟩ := h.write hrenews hrestated hask
      have hrun : world.runStateChange id (restated, .asking number
          (.put id (record.standing.restated state (Registry.expiryOrNever expiry)).details) reply) =
          (asked.withManager written, .ok reply) := by
        unfold World.runStateChange
        simp only [hask, Manager.finishStateChange, hsettled]
        rfl
      exact hrun ▸ hmirrors

theorem run_reconcile (h : world.Mirrors number reliance) (id : String) (state expiry : Field) :
    (world.run (.reconcile id state expiry)).1.Mirrors number reliance := by
  rw [World.run_reconcile]
  rcases Manager.beginReconcile_cases world.manager id state expiry with
    ⟨outcome, -, hbegin⟩ | ⟨noted, hlogged, hbegin⟩
  · rw [hbegin]
    exact h
  · rw [hbegin]
    exact (h.alike hlogged.alike).runStateChange id state expiry (.changed true)

/-- A primary answers a heartbeat without changing what is mirrored. -/
theorem run_heartbeat (h : world.Mirrors number reliance) (details : Details) (report : HeartbeatReport)
    (issuedAt : Instant) : (world.run (.heartbeat details report issuedAt)).1.Mirrors number reliance := by
  rw [World.run_heartbeat, h.primary.heartbeat_eq]
  exact h.tended (world.manager.tended_heartbeat h.sound.keyed h.authority details report issuedAt)

theorem serve (h : world.Mirrors number reliance) (request : OperationRequest) :
    (world.serve request).1.Mirrors number reliance := by
  cases request with
  | register offered nodeReport pipelineReport layout =>
    obtain ⟨refused, failure, hnoted, hserved⟩ | ⟨details, -, hkept, hserved⟩ :=
      world.serve_register_cases offered nodeReport pipelineReport layout
    · rw [hserved]
      exact h.alike hnoted.alike
    · rw [hserved]
      exact h.run_register hkept rfl
  | heartbeat offered report =>
    cases hdetails : Details.ofField offered with
    | error failure =>
      rw [serve_heartbeat_refused hdetails]
      exact h
    | ok details =>
      rw [serve_heartbeat_admitted hdetails]
      exact h.run_heartbeat details report world.clock
  | remove id => exact h.run_remove id
  | setState id state expiry =>
    have hrun := World.run_setState world id state expiry
    have hchanged := h.runStateChange id state expiry .nothing
    rw [← hrun] at hchanged
    exact hchanged
  | reconcile id state expiry => exact h.run_reconcile id state expiry

/-! ## Loads -/

/-- A stored row that is registered again without being written back keeps the mirror. -/
theorem run_stored (h : world.Mirrors number reliance) {id : String} {field : Field} {details : Details}
    (hrow : world.row? number id = some field)
    (hscreen : world.manager.screen field = (world.manager, .ok details)) :
    (world.run (.register (world.manager.storedRegistration details))).1.Mirrors number reliance := by
  obtain ⟨memory, faults, hholds, hsuits, hmirrored⟩ := h.mirrored
  rw [hholds.row?_eq] at hrow
  obtain ⟨stored, rfl, rfl, hkept⟩ := hmirrored.stored hrow
  obtain rfl := Manager.eq_of_screen_toValue hkept hscreen
  let request := world.manager.storedRegistration details
  cases hplacing : world.manager.placing request with
  | mk inPlace refusal =>
    cases refusal with
    | some refusal =>
      rw [run_register_refused hplacing]
      have htended := Manager.tended_of_placing_refused hplacing
      exact (h.tended htended).alike (Manager.alike_refuse _ _ _)
    | none =>
      obtain ⟨hinPlace, hregistered⟩ := h.sound.placing hkept hplacing
      have hrenews := Manager.renews_of_placing h.sound.keyed hplacing
      have hplaced : inPlace.Mirrored memory.rows := hmirrored.renews_stored h.sound hrow hrenews
      have hmirrors : (world.withManager inPlace).Mirrors number reliance :=
        h.of_settings hinPlace rfl hrenews.settings hholds
          (hsuits.mono hrenews.settings (fun _ hmem ↦ hrenews.unsynced ▸ hmem) fun hnone ↦ hnone) hplaced
      rw [run_register_unwritten hplacing rfl]
      exact hmirrors.tended (Manager.tended_completeRegistration _ hinPlace.keyed hregistered)

/-- Reading on keeps the mirror. -/
theorem read (h : world.Mirrors number reliance) {reached : World} (hread : world.RowsAlike number reached) :
    reached.Mirrors number reliance := by
  obtain ⟨memory, faults, hholds, hsuits, hmirrored⟩ := h.mirrored
  obtain ⟨after, rest, hheld, hrows, hrest⟩ := hread.held hholds
  exact h.of_settings (h.sound.alike hread.alike) hread.observer hread.alike.settings hheld
    (hsuits.mono hread.alike.settings (fun _ hmem ↦ hread.alike.unsynced ▸ hmem) hrest)
    (hrows ▸ hmirrored.tended hread.alike.tended)

/-- Reading the own table back keeps the mirror, however far the load comes. -/
theorem load (h : world.Mirrors number reliance) : world.load.1.Mirrors number reliance := by
  apply load_rows_induction (P := fun reached ↦ reached.Mirrors number reliance) _ _ _ h h.table
  · intro reached hreached
    obtain ⟨memory, faults, hholds, -⟩ := hreached.mirrored
    exact ⟨memory, faults, hholds⟩
  · exact fun hreached hread ↦ hreached.read hread
  · exact fun hreached hrow hscreen ↦ hreached.run_stored hrow hscreen

end Mirrors

end World

/-! ## Runs -/

/-- A move of a primary that keeps to one table: nobody else writes to it, and only itself is switched to. -/
def Move.KeepsTo (number : Nat) : Move → Prop
  | .call (.switch table) => table = some number
  | .exchange _ => False
  | _ => True

/-- A move that makes no call of a table fail. -/
def Move.IsFaultless : Move → Prop
  | .spoil _ _ => False
  | _ => True

namespace World

/-- A primary with nothing in memory over a table in memory without rows. -/
structure StartsOver (world : World) (number : Nat) : Prop where
  memory : world.manager.HasEmptyMemory
  observer : world.service.observer = none
  authority : world.manager.authority = .enforce
  table : world.manager.table = some number
  rows : ∃ iterators faults, world.Holds number ⟨.empty, iterators⟩ faults

theorem StartsOver.mirrors {world : World} {number : Nat} (hstart : world.StartsOver number)
    {reliance : Reliance}
    (hsuits : ∀ {memory faults}, world.Holds number memory faults → reliance.Suits world.manager faults) :
    world.Mirrors number reliance := by
  obtain ⟨iterators, faults, hholds⟩ := hstart.rows
  have hnone (id : String) : world.manager.standing id = none := by
    rw [Manager.standing, hstart.memory.registry]
    rfl
  refine ⟨hstart.memory.sound, hstart.observer, hstart.authority, hstart.table, _, _, hholds,
    hsuits hholds, ?_⟩
  exact
    { registered := fun h ↦ by simp at h
      stored := fun h ↦ by simp at h
      synced := fun h ↦ by simp [hnone] at h }

namespace Mirrors

variable {world : World} {number : Nat} {reliance : Reliance}

theorem call (h : world.Mirrors number reliance) {call : Call} (hkeeps : (Move.call call).KeepsTo number) :
    (world.call call).1.Mirrors number reliance := by
  cases call with
  | operate request => exact h.serve request
  | queue id command =>
    unfold World.call
    simp only
    split
    · next queued hqueued => exact h.tended (Manager.tended_of_addCommand hqueued)
    · exact h
  | take id command =>
    simp only [World.call, h.primary.onCommand_eq]
    exact h.tended (world.manager.tended_onCommand id command)
  | purge id => exact h.tended (world.manager.tended_purgeCommands id)
  | refreshUsage =>
    simp only [World.call, h.primary.refreshUsage_eq]
    exact h.tended (world.manager.tended_refreshUsage h.sound.keyed)
  | sweep moment => exact h.tended (world.manager.tended_checkHeartbeats h.sound.keyed _)
  | load => exact h.load
  | switch table =>
    have htable : table = world.manager.table := Eq.trans hkeeps h.table.symm
    have hswitched : (world.switchTable table).Mirrors number reliance := by
      rw [htable]
      exact h.alike (world.manager.alike_note _)
    exact hswitched.load

/-- Moves that keep to the table keep the mirror; faults may come only where failed writes are remembered. -/
theorem move (h : world.Mirrors number reliance) {move : Move} (hkeeps : move.KeepsTo number)
    (hfaults : reliance = .faultless → move.IsFaultless) : (world.move move).Mirrors number reliance := by
  cases move with
  | call call => exact h.call hkeeps
  | tick now =>
    have halike : world.manager.Alike (world.setClock now).manager := ⟨rfl, rfl⟩
    exact h.alike halike
  | finalizeLayout =>
    obtain ⟨memory, faults, hholds, hsuits, hmirrored⟩ := h.mirrored
    refine ⟨sound_move h.sound .finalizeLayout, h.observer, h.authority, h.table, memory, faults, hholds,
      ?_, hmirrored.of_standing (fun _ ↦ rfl) fun _ hmem ↦ hmem⟩
    cases reliance <;> exact hsuits
  | spoil table added =>
    cases reliance with
    | faultless => exact absurd (hfaults rfl) id
    | bestEffort =>
      obtain ⟨memory, faults, hholds, hsuits, hmirrored⟩ := h.mirrored
      obtain ⟨spoilt, hspoilt⟩ := hholds.spoil table added
      exact ⟨h.sound, h.observer, h.authority, h.table, memory, spoilt, hspoilt, hsuits, hmirrored⟩
  | exchange tables => exact absurd hkeeps id

/-- Runs that keep to the table keep the mirror. -/
theorem after (h : world.Mirrors number reliance) {moves : List Move}
    (hkeeps : ∀ move ∈ moves, move.KeepsTo number)
    (hfaults : reliance = .faultless → ∀ move ∈ moves, move.IsFaultless) :
    (world.after moves).Mirrors number reliance := by
  unfold World.after
  induction moves generalizing world with
  | nil => exact h
  | cons move rest ih =>
    have hmoved := h.move (hkeeps move List.mem_cons_self) fun hreliance ↦
      hfaults hreliance move List.mem_cons_self
    exact ih hmoved (fun other hmem ↦ hkeeps other (List.mem_cons_of_mem move hmem))
      fun hreliance other hmem ↦ hfaults hreliance other (List.mem_cons_of_mem move hmem)

end Mirrors

theorem startsOver_initial (configuration : Configuration) : (initial configuration).StartsOver 0 where
  memory := hasEmptyMemory_initial configuration
  observer := rfl
  authority := rfl
  table := rfl
  rows := ⟨[], [], rfl⟩

end World

end ClusterMembership
