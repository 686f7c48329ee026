import ClusterMembership.Proofs.Durability
import Mathlib.Data.List.Induction

/-!
# The node table under strict durability

Under strict durability a write that fails is raised to the caller.  A registration whose write fails is undone,
and a removal asks the table before it touches the memory, so both leave the rows in step with the registry.  A
change of an operational state is made in memory first and is not undone: when its write fails, the row of the
datanode falls behind and catches up with the next write that succeeds.  `World.Repeats` is the invariant; what
it says of the datanodes that are behind is all that the table can promise of them.
-/

namespace ClusterMembership

/-! ## Rows that are behind -/

namespace Details

/-- Details that agree in everything but the operational state and its expiry. -/
def AgreeButState (details other : Details) : Prop :=
  ∀ {name}, "persistedOpState" ≠ name → "persistedOpStateExpiryEpochSec" ≠ name →
    details.get name = other.get name

theorem agreeButState_withOperational (details : Details) (state expiry : Field) :
    details.AgreeButState (details.withOperational state expiry) := fun hstate hexpiry ↦
  (details.get_withOperational_of_ne state expiry hstate hexpiry).symm

theorem AgreeButState.trans {details other another : Details} (hfirst : details.AgreeButState other)
    (hsecond : other.AgreeButState another) : details.AgreeButState another := fun hstate hexpiry ↦
  (hfirst hstate hexpiry).trans (hsecond hstate hexpiry)

theorem AgreeButState.id {details other : Details} (h : details.AgreeButState other) :
    details.id = other.id := by
  have hidentity : details.identity = other.identity := h (by decide) (by decide)
  rw [Details.id, hidentity, Details.id]

end Details

/-- How a row goes with the standing of its datanode: there is a row exactly when the datanode is registered, and
only when the datanode is behind may the row differ, in the operational state and its expiry. -/
def RowFits (behind : Prop) : Option Standing → Option Field → Prop
  | none, row => row = none
  | some standing, row => ∃ stored : Details, row = some (some stored.toValue) ∧ stored.Kept ∧
    stored.AgreeButState standing.details ∧ (stored = standing.details ∨ behind)

namespace RowFits

variable {behind : Prop} {standing : Standing} {row : Option Field} {id : String}

theorem mono {other : Prop} {standing : Option Standing} (h : RowFits behind standing row)
    (hmono : behind → other) : RowFits other standing row := by
  cases standing with
  | none => exact h
  | some standing =>
    obtain ⟨stored, hrow, hkept, hagree, hsame⟩ := h
    exact ⟨stored, hrow, hkept, hagree, hsame.imp_right hmono⟩

/-- The details of a sound standing are a row that is not behind. -/
theorem of_written (hsound : standing.Sound id) :
    RowFits behind (some standing) (some (some standing.details.toValue)) :=
  ⟨standing.details, rfl, hsound.kept, fun _ _ ↦ rfl, .inl rfl⟩

/-- A row stays when the operational state of its datanode is set, and is behind then. -/
theorem restated (h : RowFits behind (some standing) row) (state expiry : Field) :
    RowFits True (some (standing.restated state expiry)) row := by
  obtain ⟨stored, hrow, hkept, hagree, -⟩ := h
  exact ⟨stored, hrow, hkept, hagree.trans (standing.details.agreeButState_withOperational state expiry),
    .inr trivial⟩

/-- A datanode that registers with the details of its row keeps its operational state, so that the row goes with
its standing as before. -/
theorem renewed {stored : Details} (hsound : standing.Sound id)
    (h : RowFits behind (some standing) (some (some stored.toValue))) :
    RowFits behind (some (Standing.renewed (some standing) stored)) (some (some stored.toValue)) := by
  obtain ⟨details, hrow, hkept, -, hsame⟩ := h
  obtain rfl : stored = details := Details.toValue_inj.mp (Option.some.inj (Option.some.inj hrow))
  refine ⟨stored, rfl, hkept, stored.agreeButState_withOperational _ _, hsame.imp_left ?_⟩
  rintro rfl
  rw [hsound.renewed_self]

theorem isSome (h : RowFits behind standing row) : row.isSome = true := by
  obtain ⟨stored, rfl, -⟩ := h
  rfl

theorem isSome_eq {standing : Option Standing} (h : RowFits behind standing row) :
    row.isSome = standing.isSome := by
  cases standing with
  | none => rw [show row = none from h]; rfl
  | some standing => exact h.isSome

end RowFits

/-- An answer that permits a datanode to take part. -/
def Permits (id : String) (outcome : Outcome) : Prop :=
  ∃ acknowledgement : Acknowledgement, outcome = .ok (.acknowledged acknowledgement) ∧
    acknowledgement.permitted = true ∧ acknowledgement.datanode.id = id

namespace OperationRequest

/-- A change of the operational state of a datanode that was answered with a failure. -/
inductive LeavesBehind (id : String) : OperationRequest → Outcome → Prop
  | setState {state expiry : Field} {failure : Failure} :
    LeavesBehind id (.setState id state expiry) (.error failure)
  | reconcile {state expiry : Field} {failure : Failure} :
    LeavesBehind id (.reconcile id state expiry) (.error failure)

/-- A request that was answered once the row of a datanode was written. -/
inductive CatchesUp (id : String) : OperationRequest → Outcome → Prop
  | register {details pipelineReport : Field} {nodeReport : Option NodeReport}
    {layout : Option LayoutReport} {outcome : Outcome} (h : Permits id outcome) :
    CatchesUp id (.register details nodeReport pipelineReport layout) outcome
  | setState {state expiry : Field} {reply : Reply} : CatchesUp id (.setState id state expiry) (.ok reply)
  | reconcile {state expiry : Field} : CatchesUp id (.reconcile id state expiry) (.ok (.changed true))

end OperationRequest

namespace World

def LeavesBehind (world : World) (id : String) (move : Move) : Prop :=
  ∃ request, move = .call (.operate request) ∧ world.manager.registry.contains id = true ∧
    request.LeavesBehind id (world.serve request).2

def CatchesUp (world : World) (id : String) (move : Move) : Prop :=
  ∃ request, move = .call (.operate request) ∧ request.CatchesUp id (world.serve request).2

/-- A primary under strict durability whose table in memory goes with its registry, apart from the operational
states of the datanodes that are behind. -/
structure Repeats (world : World) (number : Nat) (behind : String → Prop) : Prop where
  sound : world.manager.Sound
  observer : world.service.observer = none
  authority : world.manager.authority = .enforce
  strict : world.manager.configuration.isStrict = true
  table : world.manager.table = some number
  held : ∃ memory faults, world.Holds number memory faults
  rows : ∀ id, RowFits (behind id) (world.manager.standing id) (world.row? number id)

/-- A completed registration permits nobody but its own datanode. -/
theorem id_of_permits_acknowledge {manager : Manager} {placed : PlacedRegistration} {id : String}
    (h : Permits id (Manager.acknowledge (manager.completeRegistration placed)).2) :
    placed.request.details.id = id := by
  obtain ⟨acknowledgement, houtcome, -, hid⟩ := h
  unfold Manager.acknowledge Manager.completeRegistration at houtcome
  simp only at houtcome
  split at houtcome
  · simp [Except.map] at houtcome
  · simp only [Except.map, Except.ok.injEq, Reply.acknowledged.injEq] at houtcome
    rw [← hid, ← houtcome]

namespace Repeats

variable {world : World} {number : Nat} {behind : String → Prop}

theorem isStrict (h : world.Repeats number behind) {after : Manager}
    (hsettings : after.settings = world.manager.settings) : after.configuration.isStrict = true :=
  (congrArg (fun settings : Settings ↦ settings.configuration.isStrict) hsettings).trans h.strict

/-- A world that is set up in the same way keeps to its table as soon as its rows do. -/
theorem of_settings (h : world.Repeats number behind) {reached : World} {later : String → Prop}
    (hsound : reached.manager.Sound) (hobserver : reached.service.observer = world.service.observer)
    (hsettings : reached.manager.settings = world.manager.settings)
    (hheld : ∃ memory faults, reached.Holds number memory faults)
    (hrows : ∀ id, RowFits (later id) (reached.manager.standing id) (reached.row? number id)) :
    reached.Repeats number later where
  sound := hsound
  observer := hobserver.trans h.observer
  authority := (congrArg Settings.authority hsettings).trans h.authority
  strict := h.isStrict hsettings
  table := (congrArg Settings.table hsettings).trans h.table
  held := hheld
  rows := hrows

theorem mono (h : world.Repeats number behind) {later : String → Prop}
    (hmono : ∀ id, behind id → later id) : world.Repeats number later :=
  h.of_settings h.sound rfl rfl h.held fun id ↦ (h.rows id).mono (hmono id)

/-- What tends the manager and keeps the rows changes nothing here. -/
theorem of_tended (h : world.Repeats number behind) {reached : World}
    (htended : world.manager.Tended reached.manager)
    (hobserver : reached.service.observer = world.service.observer)
    (hheld : ∃ memory faults, reached.Holds number memory faults)
    (hrows : ∀ id, reached.row? number id = world.row? number id) : reached.Repeats number behind := by
  refine h.of_settings (h.sound.tended htended) hobserver htended.settings hheld fun id ↦ ?_
  rw [htended.standing, hrows]
  exact h.rows id

theorem tended (h : world.Repeats number behind) {after : Manager} (htended : world.manager.Tended after) :
    (world.withManager after).Repeats number behind :=
  h.of_tended htended rfl h.held fun _ ↦ rfl

theorem alike (h : world.Repeats number behind) {after : Manager} (halike : world.manager.Alike after) :
    (world.withManager after).Repeats number behind :=
  h.tended halike.tended

/-- A renewed standing whose row was written is not behind. -/
theorem written (h : world.Repeats number behind) {waiting : Manager} {id : String} {standing : Standing}
    (hrenews : world.manager.Renews waiting id standing) (hwaiting : waiting.Sound) {asked : World}
    (hobserver : asked.service.observer = world.service.observer) (halike : waiting.Alike asked.manager)
    (hheld : ∃ memory faults, asked.Holds number memory faults)
    (hrows : ∀ other, asked.row? number other =
      if id = other then some (some standing.details.toValue) else world.row? number other) :
    (asked.withManager (asked.manager.markSynced id)).Repeats number fun other ↦ behind other ∧ id ≠ other := by
  have hstanding (other : String) : (asked.manager.markSynced id).standing other =
      if id = other then some standing else world.manager.standing other :=
    (halike.standing other).trans (hrenews.standing other)
  have hsound : standing.Sound id := hwaiting.records (by rw [hrenews.standing, if_pos rfl])
  refine h.of_settings ((hwaiting.alike halike).markSynced id) hobserver
    (halike.settings.trans hrenews.settings) hheld fun other ↦ ?_
  have hrow : (asked.withManager (asked.manager.markSynced id)).row? number other = _ := hrows other
  have hmanager : (asked.withManager (asked.manager.markSynced id)).manager.standing other = _ :=
    hstanding other
  rw [hrow, hmanager]
  by_cases hsame : id = other
  · rw [if_pos hsame, if_pos hsame]
    exact .of_written hsound
  · rw [if_neg hsame, if_neg hsame]
    exact (h.rows other).mono fun hbehind ↦ ⟨hbehind, hsame⟩

/-- A write is carried out, or it fails and the rows stay. -/
theorem ask_put (h : world.Repeats number behind) {waiting : Manager} {id : String} {details : Details}
    {asked : World} {answer : TableAnswer}
    (hask : (world.withManager waiting).ask number (.put id details) = (asked, answer)) :
    (∃ memory faults, asked.Holds number memory faults) ∧
      (answer = .ok none ∧ (∀ other, asked.row? number other =
          if id = other then some (some details.toValue) else world.row? number other) ∨
        (∃ failure, answer = .error failure) ∧ ∀ other, asked.row? number other = world.row? number other) := by
  obtain ⟨memory, faults, hholds⟩ := h.held
  have hwaiting : (world.withManager waiting).Holds number memory faults := hholds
  obtain ⟨rest, after, hheld, -, ⟨hanswer, hrows⟩ | ⟨-, hfailed, hrows⟩⟩ := hwaiting.ask_rows hask
  · exact ⟨⟨after, rest, hheld⟩, .inl ⟨hanswer.symm, hrows⟩⟩
  · exact ⟨⟨after, rest, hheld⟩, .inr ⟨hfailed, hrows⟩⟩

/-! ## Operations -/

/-- A registration that is permitted has its row written; every other one leaves all rows as they go. -/
theorem run_register (h : world.Repeats number behind) {request : RegistrationRequest}
    (hkept : request.details.Kept) (hpersist : request.persist = true) :
    (world.run (.register request)).1.Repeats number fun id ↦
      behind id ∧ ¬ Permits id (world.run (.register request)).2 := by
  cases hplacing : world.manager.placing request with
  | mk inPlace refusal =>
    cases refusal with
    | some refusal =>
      have htended := (Manager.tended_of_placing_refused hplacing).trans
        (Manager.alike_refuse inPlace request.details refusal).tended
      rw [run_register_refused hplacing]
      refine (h.tended htended).mono fun id hbehind ↦ ⟨hbehind, ?_⟩
      rintro ⟨acknowledgement, houtcome, hpermitted, -⟩
      simp only [Except.ok.injEq, Reply.acknowledged.injEq] at houtcome
      rw [← houtcome] at hpermitted
      exact Bool.false_ne_true hpermitted
    | none =>
      obtain ⟨hinPlace, hregistered⟩ := h.sound.placing hkept hplacing
      have hrenews := Manager.renews_of_placing h.sound.keyed hplacing
      have hwrite : (if request.persist then inPlace.table else none) = some number := by
        rw [if_pos hpersist]
        exact (congrArg Settings.table hrenews.settings).trans h.table
      cases hask : world.askedToPut inPlace number request with
      | mk asked answer =>
        have halike := world.alike_askedToPut inPlace number request
        have hobserver : (world.askedToPut inPlace number request).1.service.observer = _ :=
          (world.withManager inPlace).observer_ask number _
        rw [hask] at halike hobserver
        rw [run_register_written hplacing hwrite hask]
        unfold World.askedToPut at hask
        rw [Manager.stored_placedBy hrenews] at hask
        obtain ⟨hheld, ⟨rfl, hrows⟩ | ⟨⟨failure, rfl⟩, hrows⟩⟩ := h.ask_put hask
        · have hwritten := h.written hrenews hinPlace hobserver halike hheld hrows
          have hstill : (asked.manager.markSynced request.details.id).registry.contains
              request.details.id = true := halike.registry ▸ hregistered
          rw [Manager.finishRegistration_of_settled rfl]
          have hcompleted : (asked.manager.markSynced request.details.id).Tended
              ((asked.manager.markSynced request.details.id).completeRegistration
                (world.manager.placedBy inPlace request)).1 :=
            Manager.tended_completeRegistration _ hwritten.sound.keyed hstill
          refine (hwritten.tended hcompleted).mono fun id hbehind ↦ ⟨hbehind.1, fun hpermits ↦ ?_⟩
          exact hbehind.2 (id_of_permits_acknowledge hpermits)
        · obtain ⟨note, raised, hsettle⟩ := Manager.settleWrite_error_of_strict
            (h.isStrict (halike.settings.trans hrenews.settings)) request.details.id failure
          have hundone : world.manager.Tended
              ((asked.manager.note note).undoPlacement (world.manager.placedBy inPlace request)) :=
            Manager.tended_undoPlacement h.sound hkept rfl rfl hplacing
              (halike.trans (asked.manager.alike_note note))
          have hfinish : asked.manager.finishRegistration (world.manager.placedBy inPlace request)
              (.error failure) = ((asked.manager.note note).undoPlacement
                (world.manager.placedBy inPlace request), .error raised) := by
            unfold Manager.finishRegistration
            rw [show (world.manager.placedBy inPlace request).request.details.id = request.details.id
              from rfl, hsettle]
          rw [hfinish]
          have hkeeps : (asked.withManager ((asked.manager.note note).undoPlacement
              (world.manager.placedBy inPlace request))).Repeats number behind :=
            h.of_tended hundone hobserver hheld hrows
          refine hkeeps.mono fun id hbehind ↦ ⟨hbehind, ?_⟩
          rintro ⟨acknowledgement, houtcome, -⟩
          simp at houtcome

/-- A removal that succeeds takes the row along; one that fails keeps both. -/
theorem run_remove (h : world.Repeats number behind) (id : String) :
    (world.run (.remove id)).1.Repeats number behind := by
  cases hregistered : world.manager.registry.contains id with
  | false =>
    rw [run_remove_of_absent hregistered]
    exact h
  | true =>
    cases hask : world.ask number (.delete id) with
    | mk asked answer =>
      have halike := world.alike_ask number (.delete id)
      have hobserver := world.observer_ask number (.delete id)
      rw [hask] at halike hobserver
      rw [run_remove_written hregistered h.table hask]
      obtain ⟨memory, faults, hholds⟩ := h.held
      obtain ⟨rest, after, hheld, -, ⟨hanswer, hrows⟩ | ⟨-, ⟨failure, rfl⟩, hrows⟩⟩ := hholds.ask_rows hask
      · obtain rfl : answer = .ok none := hanswer.symm
        have hforgot : (asked.finish (.removal id) (.ok none)).1.service.observer = none :=
          congrArg (Option.map fun observer : Observer ↦ observer.forget id) (hobserver.trans h.observer)
        refine h.of_settings ((h.sound.alike halike).forget id) (hforgot.trans h.observer.symm)
          halike.settings ⟨after, rest, hheld⟩ fun other ↦ ?_
        have hstanding : (asked.finish (.removal id) (.ok none)).1.manager.standing other =
            if id = other then none else world.manager.standing other := by
          rw [← halike.standing]
          exact asked.manager.standing_forget id other
        have hrow : (asked.finish (.removal id) (.ok none)).1.row? number other =
            if id = other then none else world.row? number other := hrows other
        rw [hstanding, hrow]
        split
        · rfl
        · exact h.rows other
      · have hnoted := asked.manager.alike_note
          { component := Manager.component, level := .error
            message := "Failed to delete datanode from node table"
            context := [("datanodeId", .text id)]
            error := some (.service (failure.wrapPersistence "delete" (some id))) }
        exact h.of_tended (halike.trans hnoted).tended hobserver ⟨after, rest, hheld⟩ hrows

/-- A renewed standing whose row was not written is behind. -/
theorem unwritten (h : world.Repeats number behind) {asked : World} {id : String} {previous : Standing}
    (hprevious : world.manager.standing id = some previous) {state expiry : Field}
    (hrenews : world.manager.Renews asked.manager id (previous.restated state expiry))
    (hsound : asked.manager.Sound) (hobserver : asked.service.observer = world.service.observer)
    (hheld : ∃ memory faults, asked.Holds number memory faults)
    (hrows : ∀ other, asked.row? number other = world.row? number other) :
    asked.Repeats number fun other ↦ behind other ∨ id = other := by
  refine h.of_settings hsound hobserver hrenews.settings hheld fun other ↦ ?_
  have hfits := h.rows other
  rw [hrenews.standing, hrows]
  split
  · next hsame =>
    subst hsame
    rw [hprevious] at hfits
    exact (hfits.restated state expiry).mono fun _ ↦ .inr rfl
  · exact hfits.mono .inl

/-- A change of an operational state is refused when the datanode is not registered, it is written, or the row of
the datanode falls behind. -/
theorem runStateChange (h : world.Repeats number behind) {id : String} {state expiry : Field}
    {reply : Reply} {reached : World} {outcome : Outcome}
    (hrun : world.runStateChange id (world.manager.beginStateChange id state expiry reply) =
      (reached, outcome)) :
    (∃ failure, outcome = .error failure) ∧ reached.Repeats number behind ∧
        world.manager.registry.contains id = false ∨
      outcome = .ok reply ∧ reached.Repeats number (fun other ↦ behind other ∧ id ≠ other) ∨
      (∃ failure, outcome = .error failure) ∧ reached.Repeats number (fun other ↦ behind other ∨ id = other) ∧
        world.manager.registry.contains id = true := by
  cases hrecord : world.manager.registry.get? id with
  | none =>
    have habsent : world.manager.registry.contains id = false :=
      (Registry.contains_eq_false_iff _ _).mpr hrecord
    rw [Manager.beginStateChange_of_absent habsent] at hrun
    obtain ⟨rfl, rfl⟩ := Prod.mk.inj hrun
    exact .inl ⟨⟨_, rfl⟩, h, habsent⟩
  | some record =>
    have hprevious := Manager.standing_eq_some hrecord
    obtain ⟨note, hbegin⟩ := Manager.exists_beginStateChange_eq hrecord state expiry reply
    rw [hbegin, h.table] at hrun
    let standing := record.standing.restated state (Registry.expiryOrNever expiry)
    let restated := (world.manager.restate id state (Registry.expiryOrNever expiry)
      world.manager.clock).note note
    have hrestated : restated.Sound := (h.sound.restate id state _ _).tended (Manager.tended_note _ note)
    have hrenews : world.manager.Renews restated id standing := by
      refine ⟨fun other ↦ ?_, rfl, rfl⟩
      refine (Manager.standing_restate h.sound.keyed id state _ _ other).trans ?_
      rw [hprevious, Option.map_some]
    cases hask : (world.withManager restated).ask number (.put id standing.details) with
    | mk asked answer =>
      have halike := (world.withManager restated).alike_ask number (.put id standing.details)
      have hobserver := (world.withManager restated).observer_ask number (.put id standing.details)
      rw [hask] at halike hobserver
      have hended : world.runStateChange id (restated, .asking number (.put id standing.details) reply) =
          (asked.withManager (asked.manager.finishStateChange id reply answer).1,
            (asked.manager.finishStateChange id reply answer).2) := by
        unfold World.runStateChange
        simp only [hask]
      obtain ⟨rfl, rfl⟩ := Prod.mk.inj (hended.symm.trans hrun)
      obtain ⟨hheld, ⟨rfl, hrows⟩ | ⟨⟨failure, rfl⟩, hrows⟩⟩ := h.ask_put hask
      · exact .inr (.inl ⟨rfl, h.written hrenews hrestated hobserver halike hheld hrows⟩)
      · obtain ⟨raisedNote, raised, hsettle⟩ := Manager.settleWrite_error_of_strict
          (h.isStrict (halike.settings.trans hrenews.settings)) id failure
        have hraised : asked.manager.finishStateChange id reply (.error failure) =
            (asked.manager.note raisedNote, .error raised) := by
          unfold Manager.finishStateChange
          rw [hsettle]
          rfl
        have hnoted := halike.trans (asked.manager.alike_note raisedNote)
        rw [hraised]
        have hunwritten : (asked.withManager (asked.manager.note raisedNote)).Repeats number
            fun other ↦ behind other ∨ id = other :=
          h.unwritten hprevious (hrenews.alike hnoted) (hrestated.alike hnoted) hobserver hheld hrows
        exact .inr (.inr ⟨⟨raised, rfl⟩, hunwritten, contains_of_get? hrecord⟩)

/-- A primary answers a heartbeat without changing what is stored. -/
theorem run_heartbeat (h : world.Repeats number behind) (details : Details) (report : HeartbeatReport)
    (issuedAt : Instant) : (world.run (.heartbeat details report issuedAt)).1.Repeats number behind := by
  have hprimary : world.service.IsPrimary := h.observer
  rw [World.run_heartbeat, hprimary.heartbeat_eq]
  exact h.tended (world.manager.tended_heartbeat h.sound.keyed h.authority details report issuedAt)

/-- A request that changes the operational state of a datanode leaves this one behind at most, and catches up when
it is answered. -/
theorem restating (h : world.Repeats number behind) {id : String} {state expiry : Field} {reply : Reply}
    {request : OperationRequest} {reached : World} {outcome : Outcome}
    (hfails : ∀ failure, request.LeavesBehind id (.error failure))
    (hcatches : ∀ {other given}, request.CatchesUp other given → id = other ∧ ∃ value, given = .ok value)
    (hrun : world.runStateChange id (world.manager.beginStateChange id state expiry reply) =
      (reached, outcome)) :
    reached.Repeats number fun other ↦
      world.manager.registry.contains other = true ∧ request.LeavesBehind other outcome ∨
        behind other ∧ ¬ request.CatchesUp other outcome := by
  have hfailed (other : String) (failure : Failure) : ¬ request.CatchesUp other (.error failure) := by
    intro hcaught
    obtain ⟨-, value, hvalue⟩ := hcatches hcaught
    simp at hvalue
  obtain ⟨⟨failure, rfl⟩, hreached, -⟩ | ⟨rfl, hreached⟩ | ⟨⟨failure, rfl⟩, hreached, hregistered⟩ :=
    h.runStateChange hrun
  · exact hreached.mono fun other hbehind ↦ .inr ⟨hbehind, hfailed other failure⟩
  · exact hreached.mono fun other hbehind ↦
      .inr ⟨hbehind.1, fun hcaught ↦ hbehind.2 (hcatches hcaught).1⟩
  · refine hreached.mono fun other hbehind ↦ ?_
    rcases hbehind with hbehind | rfl
    · exact .inr ⟨hbehind, hfailed other failure⟩
    · exact .inl ⟨hregistered, hfails failure⟩

/-- A request leaves behind at most the datanode whose operational state it fails to write. -/
theorem serve (h : world.Repeats number behind) (request : OperationRequest) :
    (world.serve request).1.Repeats number fun id ↦
      world.manager.registry.contains id = true ∧ request.LeavesBehind id (world.serve request).2 ∨
        behind id ∧ ¬ request.CatchesUp id (world.serve request).2 := by
  cases request with
  | register offered nodeReport pipelineReport layout =>
    have hpermits {id : String} {outcome : Outcome}
        (hcaught : OperationRequest.CatchesUp id (.register offered nodeReport pipelineReport layout)
          outcome) : Permits id outcome := by
      cases hcaught with
      | register hpermits => exact hpermits
    obtain ⟨refused, failure, hnoted, hserved⟩ | ⟨details, -, hkept, hserved⟩ :=
      world.serve_register_cases offered nodeReport pipelineReport layout
    · rw [hserved]
      refine (h.alike hnoted.alike).mono fun id hbehind ↦ .inr ⟨hbehind, fun hcaught ↦ ?_⟩
      obtain ⟨acknowledgement, houtcome, -⟩ := hpermits hcaught
      simp at houtcome
    · rw [hserved]
      exact (h.run_register hkept rfl).mono fun id hbehind ↦
        .inr ⟨hbehind.1, fun hcaught ↦ hbehind.2 (hpermits hcaught)⟩
  | heartbeat offered report =>
    have hnever (id : String) (outcome : Outcome) :
        ¬ OperationRequest.CatchesUp id (.heartbeat offered report) outcome := by
      rintro ⟨⟩
    cases hdetails : Details.ofField offered with
    | error failure =>
      rw [serve_heartbeat_refused hdetails]
      exact h.mono fun id hbehind ↦ .inr ⟨hbehind, hnever id _⟩
    | ok details =>
      rw [serve_heartbeat_admitted hdetails]
      exact (h.run_heartbeat details report world.clock).mono fun id hbehind ↦
        .inr ⟨hbehind, hnever id _⟩
  | remove id =>
    refine (h.run_remove id).mono fun other hbehind ↦ .inr ⟨hbehind, ?_⟩
    rintro ⟨⟩
  | setState id state expiry =>
    rw [serve_setState, run_setState]
    refine h.restating (fun _ ↦ .setState) (fun hcaught ↦ ?_) rfl
    cases hcaught
    exact ⟨rfl, _, rfl⟩
  | reconcile id state expiry =>
    rw [serve_reconcile, World.run_reconcile]
    rcases Manager.beginReconcile_cases world.manager id state expiry with
      ⟨outcome, hunchanged, hbegin⟩ | ⟨noted, hlogged, hbegin⟩
    · rw [hbegin]
      refine h.mono fun other hbehind ↦ .inr ⟨hbehind, fun hcaught ↦ hunchanged ?_⟩
      cases hcaught
      rfl
    · rw [hbegin]
      cases hrun : world.runStateChange id (noted.beginStateChange id state expiry (.changed true)) with
      | mk reached outcome =>
        have hcatches {other : String} {given : Outcome}
            (hcaught : OperationRequest.CatchesUp other (.reconcile id state expiry) given) :
            id = other ∧ ∃ value, given = .ok value := by
          cases hcaught
          exact ⟨rfl, _, rfl⟩
        have hrestated := (h.alike hlogged.alike).restating (fun _ ↦ .reconcile) hcatches hrun
        refine hrestated.mono fun other hbehind ↦ hbehind.imp_left fun hleft ↦ ⟨?_, hleft.2⟩
        rw [← hlogged.alike.registry]
        exact hleft.1

/-! ## Loads -/

/-- Reading on changes nothing that is stored. -/
theorem read (h : world.Repeats number behind) {reached : World} (hread : world.RowsAlike number reached) :
    reached.Repeats number behind := by
  obtain ⟨memory, faults, hholds⟩ := h.held
  obtain ⟨after, rest, hheld, -⟩ := hread.held hholds
  exact h.of_tended hread.alike.tended hread.observer ⟨after, rest, hheld⟩ (hread.row? hholds)

/-- A stored row that is registered again goes with the standing that comes of it. -/
theorem run_stored (h : world.Repeats number behind) {id : String} {field : Field} {details : Details}
    (hrow : world.row? number id = some field)
    (hscreen : world.manager.screen field = (world.manager, .ok details)) :
    (world.run (.register (world.manager.storedRegistration details))).1.Repeats number behind := by
  obtain ⟨standing, hstanding⟩ : ∃ standing, world.manager.standing id = some standing := by
    have hfits := (h.rows id).isSome_eq
    rw [hrow] at hfits
    exact Option.isSome_iff_exists.mp hfits.symm
  have hfits := h.rows id
  rw [hstanding, hrow] at hfits
  obtain ⟨stored, hfield, hkept, hagree, -⟩ := hfits
  obtain rfl : field = some stored.toValue := Option.some.inj hfield
  obtain rfl := Manager.eq_of_screen_toValue hkept hscreen
  obtain rfl : details.id = id := hagree.id.trans (h.sound.records hstanding).identified
  cases hplacing : world.manager.placing (world.manager.storedRegistration details) with
  | mk inPlace refusal =>
    cases refusal with
    | some refusal =>
      rw [run_register_refused hplacing]
      have htended := Manager.tended_of_placing_refused hplacing
      exact h.tended (htended.trans (Manager.alike_refuse _ _ _).tended)
    | none =>
      obtain ⟨hinPlace, hregistered⟩ := h.sound.placing hkept hplacing
      have hrenews := Manager.renews_of_placing h.sound.keyed hplacing
      have hplaced : (world.withManager inPlace).Repeats number behind := by
        refine h.of_settings hinPlace rfl hrenews.settings h.held fun other ↦ ?_
        have hother : (world.withManager inPlace).manager.standing other = _ := hrenews.standing other
        rw [hother]
        split
        · next hsame =>
          have hstored : (world.withManager inPlace).row? number other = some (some details.toValue) :=
            hsame ▸ hrow
          have hrequest : Standing.renewed (world.manager.standing
              (world.manager.storedRegistration details).details.id)
              (world.manager.storedRegistration details).details =
                Standing.renewed (some standing) details :=
            congrArg (fun previous ↦ Standing.renewed previous details) hstanding
          rw [hrequest, hstored]
          have hfits := h.rows details.id
          rw [hstanding, hrow] at hfits
          exact hsame ▸ hfits.renewed (h.sound.records hstanding)
        · exact h.rows other
      rw [run_register_unwritten hplacing rfl]
      exact hplaced.tended (Manager.tended_completeRegistration _ hinPlace.keyed hregistered)

/-- Reading the own table back keeps what the rows say, however far the load comes. -/
theorem load (h : world.Repeats number behind) : world.load.1.Repeats number behind := by
  apply load_rows_induction (P := fun reached ↦ reached.Repeats number behind) _ _ _ h h.table
  · exact fun hreached ↦ hreached.held
  · exact fun hreached hread ↦ hreached.read hread
  · exact fun hreached hrow hscreen ↦ hreached.run_stored hrow hscreen

/-! ## Runs -/

/-- A move leaves a row behind when it changes an operational state that it fails to write, and no row that was
written stays behind. -/
theorem move (h : world.Repeats number behind) {move : Move} (hkeeps : move.KeepsTo number) :
    (world.move move).Repeats number fun id ↦
      world.LeavesBehind id move ∨ behind id ∧ ¬ world.CatchesUp id move := by
  -- Only requests are told apart; every other move keeps what is stored.
  have hquiet {moved : World} (hmoved : moved.Repeats number behind)
      (hnever : ∀ request, move ≠ .call (.operate request)) :
      moved.Repeats number fun id ↦ world.LeavesBehind id move ∨ behind id ∧ ¬ world.CatchesUp id move :=
    hmoved.mono fun id hbehind ↦ .inr ⟨hbehind, fun ⟨request, hmove, _⟩ ↦ hnever request hmove⟩
  have hprimary : world.service.IsPrimary := h.observer
  cases move with
  | call call =>
    cases call with
    | operate request =>
      refine (h.serve request).mono fun id hbehind ↦ ?_
      refine hbehind.imp (fun hleft ↦ ⟨request, rfl, hleft.1, hleft.2⟩) fun hlasting ↦ ⟨hlasting.1, ?_⟩
      rintro ⟨other, hother, hcaught⟩
      obtain rfl : request = other := by simpa using hother
      exact hlasting.2 hcaught
    | queue id command =>
      refine hquiet ?_ (by simp)
      unfold World.move World.call
      simp only
      split
      · next queued hqueued => exact h.tended (Manager.tended_of_addCommand hqueued)
      · exact h
    | take id command =>
      refine hquiet ?_ (by simp)
      simp only [World.move, World.call, hprimary.onCommand_eq]
      exact h.tended (world.manager.tended_onCommand id command)
    | purge id => exact hquiet (h.tended (world.manager.tended_purgeCommands id)) (by simp)
    | refreshUsage =>
      refine hquiet ?_ (by simp)
      simp only [World.move, World.call, hprimary.refreshUsage_eq]
      exact h.tended (world.manager.tended_refreshUsage h.sound.keyed)
    | sweep moment =>
      exact hquiet (h.tended (world.manager.tended_checkHeartbeats h.sound.keyed _)) (by simp)
    | load => exact hquiet h.load (by simp)
    | switch table =>
      have htable : table = world.manager.table := Eq.trans hkeeps h.table.symm
      have hswitched : (world.switchTable table).Repeats number behind := by
        rw [htable]
        exact h.alike (world.manager.alike_note _)
      exact hquiet hswitched.load (by simp)
  | tick now =>
    have halike : world.manager.Alike (world.setClock now).manager := ⟨rfl, rfl⟩
    exact hquiet (h.alike halike) (by simp)
  | finalizeLayout =>
    exact hquiet ⟨sound_move h.sound .finalizeLayout, h.observer, h.authority, h.strict, h.table, h.held,
      h.rows⟩ (by simp)
  | spoil table added =>
    obtain ⟨memory, faults, hholds⟩ := h.held
    obtain ⟨spoilt, hspoilt⟩ := hholds.spoil table added
    refine hquiet ⟨h.sound, h.observer, h.authority, h.strict, h.table, ⟨memory, spoilt, hspoilt⟩,
      fun id ↦ ?_⟩ (by simp)
    rw [hspoilt.row?_eq, ← hholds.row?_eq]
    exact h.rows id
  | exchange tables => exact absurd hkeeps id

end Repeats

theorem StartsOver.repeats {world : World} {number : Nat} (hstart : world.StartsOver number)
    (hstrict : world.manager.configuration.isStrict = true) (behind : String → Prop) :
    world.Repeats number behind := by
  obtain ⟨iterators, faults, hholds⟩ := hstart.rows
  refine ⟨hstart.memory.sound, hstart.observer, hstart.authority, hstrict, hstart.table, ⟨_, _, hholds⟩,
    fun id ↦ ?_⟩
  have hnone : world.manager.standing id = none := by
    rw [Manager.standing, hstart.memory.registry]
    rfl
  rw [hnone, hholds.row?_eq]
  rfl

/-- The operational state of a datanode was changed in a run without being written, and no write of its row was
answered since. -/
def IsBehind (world : World) (moves : List Move) (id : String) : Prop :=
  Since (fun past move ↦ (world.after past).LeavesBehind id move)
    (fun past move ↦ (world.after past).CatchesUp id move) moves

theorem StartsOver.repeats_after {world : World} {number : Nat} (hstart : world.StartsOver number)
    (hstrict : world.manager.configuration.isStrict = true) (moves : List Move)
    (hkeeps : ∀ move ∈ moves, move.KeepsTo number) :
    (world.after moves).Repeats number (world.IsBehind moves) := by
  induction moves using List.reverseRecOn with
  | nil => exact hstart.repeats hstrict _
  | append_singleton moves move ih =>
    have hpast := ih fun other hmem ↦ hkeeps other (List.mem_append_left _ hmem)
    have hmoved := hpast.move (hkeeps move (List.mem_append_right _ List.mem_cons_self))
    rw [after_append]
    exact hmoved.mono fun id hbehind ↦ since_append_iff.mpr hbehind

/-- In every run of a primary under strict durability over one table that starts without rows, and of whose calls
any may fail, the rows are those of the registered datanodes, and each row agrees with the details of the registry
but for the operational state and its expiry.  The row of a datanode is equal to these details unless a change of
its operational state could not be written and no write of its row was answered since. -/
theorem rows_repeat_registry_after (world : World) (number : Nat) (hstart : world.StartsOver number)
    (hstrict : world.manager.configuration.isStrict = true) (moves : List Move)
    (hkeeps : ∀ move ∈ moves, move.KeepsTo number) :
    (∀ id, ((world.after moves).row? number id).isSome = (world.after moves).manager.registry.contains id) ∧
    ∀ id record, (world.after moves).manager.registry.get? id = some record →
      ∃ stored : Details, (world.after moves).row? number id = some (some stored.toValue) ∧
        stored.AgreeButState record.details ∧ (¬ world.IsBehind moves id → stored = record.details) := by
  have hrepeats := hstart.repeats_after hstrict moves hkeeps
  constructor
  · intro id
    rw [Manager.contains_eq_isSome_standing]
    exact (hrepeats.rows id).isSome_eq
  · intro id record hrecord
    have hfits := hrepeats.rows id
    rw [Manager.standing_eq_some hrecord] at hfits
    obtain ⟨stored, hrow, -, hagree, hsame⟩ := hfits
    exact ⟨stored, hrow, hagree, fun hcurrent ↦ hsame.resolve_right hcurrent⟩

/-- A datanode goes into maintenance, which cannot be written: its row still says that it is in service. -/
theorem rows_repeat_registry_after_lost_change :
    let world := initial { Configuration.default with durability := "strict" }
    let id := (Details.sample "").id
    let maintenance := some (Value.text OperationalState.inMaintenance.name)
    let moves := [Move.sample "/rack1", .spoil 0 [⟨.put, .error "disk full", 1, 0⟩],
      .call (.operate (.setState id maintenance none))]
    world.StartsOver 0 ∧ world.IsBehind moves id ∧
      ((world.after moves).manager.registry.get? id).map (fun record ↦ record.details.operational) =
        some maintenance ∧
      (world.after moves).row? 0 id = some (some (Details.sample "/rack1").toValue) := by
  intro world id maintenance moves
  have hstart : world.StartsOver 0 := startsOver_initial _
  have hkeeps : ∀ move ∈ moves, move.KeepsTo 0 := by simp [moves, Move.KeepsTo, Move.sample]
  have hstate : ((world.after moves).manager.registry.get? id).map
      (fun record ↦ record.details.operational) = some maintenance := by decide +kernel
  have hrow : (world.after moves).row? 0 id = some (some (Details.sample "/rack1").toValue) := by
    decide +kernel
  refine ⟨hstart, Classical.byContradiction fun hcurrent ↦ ?_, hstate, hrow⟩
  obtain ⟨record, hrecord, hoperational⟩ := Option.map_eq_some_iff.mp hstate
  obtain ⟨stored, hstored, -, hsame⟩ :=
    (rows_repeat_registry_after world 0 hstart rfl moves hkeeps).2 id record hrecord
  have hsample : stored = Details.sample "/rack1" :=
    Details.toValue_inj.mp (Option.some.inj (Option.some.inj (hstored.symm.trans hrow)))
  rw [← hsame hcurrent, hsample] at hoperational
  exact absurd hoperational (by decide)

end World

end ClusterMembership
