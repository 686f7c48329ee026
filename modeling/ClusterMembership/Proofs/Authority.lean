import ClusterMembership.Proofs.Health
import ClusterMembership.Proofs.Rephrasing

/-!
# Who rules the operational states

Under the authority of a primary a datanode does not rule its own operational state.  The claim compares two
runs from one start: the second is the first with other valid operational states in its heartbeats and in the
registrations of datanodes that are registered already.  `World.Rephrased` says so, move by move along the first
run.  Each move keeps the two worlds the same but for their logs, so that registry and tables stay equal.

Along one run, `World.exists_cause` finds what changed the operational state of a datanode: a call that sets it,
or a removal and a registration after it.
-/

namespace ClusterMembership

/-! ## Runs that differ in what datanodes report -/

/-- A move and the same move with another valid operational state reported: by a heartbeat, or by the
registration of a datanode that is registered already. -/
inductive Move.Rephrases (registry : Registry) : Move → Move → Prop
  | same (move : Move) : Rephrases registry move move
  | heartbeat {details other : Details} (h : details.Rephrases other) (report : HeartbeatReport) :
      Rephrases registry (.call (.operate (.heartbeat (some details.toValue) report)))
        (.call (.operate (.heartbeat (some other.toValue) report)))
  | register {details other : Details} (h : details.Rephrases other)
      (hregistered : registry.contains details.id = true)
      (hdetails : Validation.StateValid details.operational details.expiry)
      (hother : Validation.StateValid other.operational other.expiry) (nodeReport : Option NodeReport)
      (pipelineReport : Field) (layout : Option LayoutReport) :
      Rephrases registry
        (.call (.operate (.register (some details.toValue) nodeReport pipelineReport layout)))
        (.call (.operate (.register (some other.toValue) nodeReport pipelineReport layout)))

namespace World

/-- Two runs that differ in the operational states that datanodes report, the first from a world. -/
inductive Rephrased : World → List Move → List Move → Prop
  | nil (world : World) : Rephrased world [] []
  | cons {world : World} {move other : Move} {moves others : List Move}
      (h : move.Rephrases world.manager.registry other) (hrest : Rephrased (world.move move) moves others) :
      Rephrased world (move :: moves) (other :: others)

/-- A primary under whose authority the operational states stand. -/
structure Governs (world : World) : Prop where
  sound : world.manager.Sound
  primary : world.service.IsPrimary
  enforced : world.manager.authority = .enforce

variable {world : World}

theorem authority_move (hsound : world.manager.Sound) (move : Move) :
    (world.move move).manager.authority = world.manager.authority := by
  cases hsweep : world.sweepTime? move with
  | none => exact (spares_move hsweep).authority
  | some time =>
    obtain ⟨moment, rfl, -⟩ := exists_sweep hsweep
    exact congrArg Settings.authority (world.manager.tended_checkHeartbeats hsound.keyed _).settings

theorem Governs.move (h : world.Governs) (move : Move) : (world.move move).Governs where
  sound := sound_move h.sound move
  primary := isPrimary_move h.primary move
  enforced := (authority_move h.sound move).trans h.enforced

theorem Governs.after (h : world.Governs) (moves : List Move) : (world.after moves).Governs := by
  unfold World.after
  induction moves generalizing world with
  | nil => exact h
  | cons move rest ih => exact ih (h.move move)

/-- A move and its rephrasing lead to worlds that are the same but for the log. -/
theorem Governs.move_rephrased (h : world.Governs) {move other : Move}
    (hrephrases : move.Rephrases world.manager.registry other) :
    (world.move move).SameButLog (world.move other) := by
  cases hrephrases with
  | same => exact .refl _
  | @heartbeat details other hdetails report =>
    have hread (details : Details) : Details.ofField (some details.toValue) = .ok details := rfl
    change (world.serve _).1.SameButLog (world.serve _).1
    rw [serve_heartbeat_admitted (hread details), serve_heartbeat_admitted (hread other)]
    exact run_heartbeat_rephrased h.primary h.enforced hdetails report world.clock
  | @register details other hdetails hregistered hvalid hvalid' nodeReport pipelineReport layout =>
    change (world.serve _).1.SameButLog (world.serve _).1
    obtain ⟨refused, failure, hrefused, hrefused'⟩ | ⟨kept, rephrased, hkept, hkept', hid, hrephrases⟩ :=
      world.manager.screen_rephrased hdetails hvalid hvalid'
    · rw [serve_register_refused hrefused, serve_register_refused hrefused']
      exact .refl _
    · rw [serve_register_admitted hkept, serve_register_admitted hkept']
      have hform := (Manager.kept_of_screen hkept).2.1
      let request : RegistrationRequest := { details := kept, nodeReport, pipelineReport, layout }
      have hregistered' : world.manager.registry.contains request.details.id = true := hid ▸ hregistered
      have hsame := run_register_rephrased h.sound hform hregistered' hrephrases
      exact hsame ▸ .refl _

/-- Runs that differ in what datanodes report stay the same but for the log. -/
theorem Rephrased.sameButLog_after {moves others : List Move} (h : world.Rephrased moves others)
    (hgoverns : world.Governs) {reached : World} (hsame : world.SameButLog reached) (count : Nat) :
    (world.after (moves.take count)).SameButLog (reached.after (others.take count)) := by
  induction h generalizing reached count with
  | nil world => simpa [after] using hsame
  | cons hmove hrest ih =>
    cases count with
    | zero => exact hsame
    | succ count => exact ih (hgoverns.move _) ((hgoverns.move_rephrased hmove).trans (hsame.move _)) count

end World

/-! ## What changes an operational state -/

/-- The operational state of a registered datanode and its expiry. -/
def Manager.stated? (manager : Manager) (id : String) : Option (Field × Field) :=
  (manager.registry.get? id).map fun record ↦ (record.status.operational, record.status.expiry)

namespace Move

/-- A move that a primary can make: only an observer follows the operational states of another service. -/
def SuitsPrimary : Move → Prop
  | .call (.operate (.reconcile _ _ _)) => False
  | _ => True

/-- A call that sets the operational state of a datanode. -/
def SetsState (move : Move) (id : String) : Prop :=
  ∃ state expiry, move = .call (.operate (.setState id state expiry))

/-- A call that may register a datanode: its registration, or a load of the node table. -/
def Registers (move : Move) (id : String) : Prop :=
  match move with
  | .call (.operate (.register offered _ _ _)) => ∃ details, Details.ofField offered = .ok details ∧ details.id = id
  | .call .load | .call (.switch _) => True
  | _ => False

end Move

namespace World

/-- A removal that takes a registered datanode out. -/
structure Removes (world : World) (move : Move) (id : String) : Prop where
  removal : move = .call (.operate (.remove id))
  before : world.manager.registry.contains id = true
  after : (world.move move).manager.registry.contains id = false

/-- A registration that brings a datanode in that is not registered. -/
structure Admits (world : World) (move : Move) (id : String) : Prop where
  registration : move.Registers id
  before : world.manager.registry.contains id = false
  after : (world.move move).manager.registry.contains id = true

end World

namespace Manager

variable {before after : Manager} {id : String}

theorem stated?_eq_map_standing (manager : Manager) (id : String) :
    manager.stated? id = (manager.standing id).map fun standing ↦ (standing.operational, standing.expiry) := by
  unfold stated? standing
  rw [Option.map_map]
  rfl

theorem contains_eq_isSome_stated? (manager : Manager) (id : String) :
    manager.registry.contains id = (manager.stated? id).isSome :=
  (Option.isSome_map (x := manager.registry.get? id)).symm

theorem stated?_of_standing (h : after.standing id = before.standing id) : after.stated? id = before.stated? id := by
  rw [stated?_eq_map_standing, stated?_eq_map_standing, h]

theorem Tended.stated? (h : before.Tended after) (id : String) : after.stated? id = before.stated? id :=
  stated?_of_standing (h.standing id)

end Manager

namespace World

variable {world : World}

/-- A registration sets the operational state of a datanode that was not registered before, and of no other. -/
theorem stated?_run_register (hsound : world.manager.Sound) {request : RegistrationRequest}
    (hkept : request.details.Kept) (id : String) :
    (world.run (.register request)).1.manager.stated? id = world.manager.stated? id ∨
      request.details.id = id ∧ world.manager.registry.contains id = false := by
  obtain hleft | ⟨inPlace, hplacing, hplaced⟩ := standing_run_register hsound hkept
  · exact .inl (Manager.stated?_of_standing (hleft id))
  · have hstanding := Manager.standing_place (hsound.record request.details).keyed hplacing id
    have hrecorded (id : String) :
        ({ world.manager with known := world.manager.known.record request.details } : Manager).standing id =
          world.manager.standing id := rfl
    rw [← hplaced, hrecorded, hrecorded] at hstanding
    by_cases hid : request.details.id = id
    · rw [if_pos hid, hid] at hstanding
      cases hprevious : world.manager.standing id with
      | none =>
        refine .inr ⟨hid, ?_⟩
        rw [Manager.contains_eq_isSome_standing, hprevious]
        rfl
      | some standing =>
        left
        rw [Manager.stated?_eq_map_standing, Manager.stated?_eq_map_standing, hstanding, hprevious]
        rfl
    · rw [if_neg hid] at hstanding
      exact .inl (Manager.stated?_of_standing hstanding)

/-- A load keeps every registered datanode in its operational state. -/
theorem stated?_load (hsound : world.manager.Sound) {id : String} {given : Field × Field}
    (h : world.manager.stated? id = some given) : world.load.1.manager.stated? id = some given := by
  have hload : world.load.1.manager.Sound ∧ world.load.1.manager.stated? id = some given := by
    apply load_induction (P := fun reached ↦ reached.manager.Sound ∧ reached.manager.stated? id = some given)
      _ _ _ _ ⟨hsound, h⟩
    · intro reached number request ⟨hready, hstated⟩
      have halike := reached.alike_ask number request
      exact ⟨hready.alike halike, (halike.tended.stated? id).trans hstated⟩
    · intro reached after ⟨hready, hstated⟩ hnoted
      exact ⟨hready.alike hnoted.alike, (hnoted.alike.tended.stated? id).trans hstated⟩
    · intro reached field details ⟨hready, hstated⟩ hscreen
      have hkept : (reached.manager.storedRegistration details).details.Kept :=
        (Manager.kept_of_screen hscreen).2.1
      refine ⟨sound_run_register hready _ hkept, ?_⟩
      obtain hsame | ⟨-, habsent⟩ := stated?_run_register hready hkept id
      · exact hsame.trans hstated
      · rw [Manager.contains_eq_isSome_stated?, hstated] at habsent
        cases habsent
    · intro reached number hreached
      rwa [manager_iterate]
  exact hload.2

/-- What a move of a primary can mean for the operational state of a datanode. -/
inductive Cause (world : World) (move : Move) (id : String) : Prop
  | kept (h : (world.move move).manager.stated? id = world.manager.stated? id)
  | stated (h : move.SetsState id)
      (hcontains : (world.move move).manager.registry.contains id = world.manager.registry.contains id)
  | removed (h : world.Removes move id)
  | admitted (h : world.Admits move id)

/-- What keeps every datanode that is registered in its operational state keeps the others out or admits them. -/
theorem Cause.of_kept {move : Move} {id : String} (hregisters : move.Registers id)
    (h : ∀ given, world.manager.stated? id = some given → (world.move move).manager.stated? id = some given) :
    world.Cause move id := by
  cases hbefore : world.manager.stated? id with
  | some given => exact .kept ((h given hbefore).trans hbefore.symm)
  | none =>
    cases hafter : (world.move move).manager.stated? id with
    | none => exact .kept (hafter.trans hbefore.symm)
    | some given =>
      exact .admitted
        { registration := hregisters
          before := by rw [Manager.contains_eq_isSome_stated?, hbefore]; rfl
          after := by rw [Manager.contains_eq_isSome_stated?, hafter]; rfl }

theorem Governs.cause_register (h : world.Governs) (offered : Field) (nodeReport : Option NodeReport)
    (pipelineReport : Field) (layout : Option LayoutReport) (id : String) :
    world.Cause (.call (.operate (.register offered nodeReport pipelineReport layout))) id := by
  have hmove : world.move (.call (.operate (.register offered nodeReport pipelineReport layout))) =
      (world.serve (.register offered nodeReport pipelineReport layout)).1 := rfl
  obtain ⟨refused, failure, hnoted, hserved⟩ | ⟨details, hscreen, hkept, hserved⟩ :=
    world.serve_register_cases offered nodeReport pipelineReport layout
  · refine .kept ?_
    rw [hmove, hserved]
    exact hnoted.alike.tended.stated? id
  · let request : RegistrationRequest := { details, nodeReport, pipelineReport, layout }
    have hadmitted : request.details.Kept := hkept
    have hrun := stated?_run_register h.sound hadmitted id
    rw [← hserved] at hrun
    obtain hsame | ⟨hid, habsent⟩ := hrun
    · exact .kept hsame
    · obtain ⟨given, hgiven, hsame⟩ := Manager.exists_offered_of_screen hscreen
      refine .of_kept ⟨given, hgiven, hsame.trans hid⟩ fun stated hstated ↦ ?_
      rw [Manager.contains_eq_isSome_stated?, hstated] at habsent
      cases habsent

theorem Governs.cause_remove (_ : world.Governs) (removed id : String) :
    world.Cause (.call (.operate (.remove removed))) id := by
  have hmove : world.move (.call (.operate (.remove removed))) = (world.run (.remove removed)).1 := rfl
  obtain hsame | hgone := world.standing_run_remove removed
  · exact .kept (Manager.stated?_of_standing (hsame id))
  · have hstanding := hgone id
    rw [← hmove] at hstanding
    by_cases hid : removed = id
    · rw [if_pos hid] at hstanding
      have hafter : (world.move (.call (.operate (.remove removed)))).manager.registry.contains id = false := by
        rw [Manager.contains_eq_isSome_standing, hstanding]
        rfl
      cases hbefore : world.manager.registry.contains id with
      | true => exact .removed ⟨hid ▸ rfl, hbefore, hafter⟩
      | false =>
        rw [Manager.contains_eq_isSome_stated?, Option.isSome_eq_false_iff, Option.isNone_iff_eq_none]
          at hbefore hafter
        exact .kept (hafter.trans hbefore.symm)
    · rw [if_neg hid] at hstanding
      exact .kept (Manager.stated?_of_standing hstanding)

theorem Governs.cause_setState (h : world.Governs) (changed : String) (state expiry : Field) (id : String) :
    world.Cause (.call (.operate (.setState changed state expiry))) id := by
  have hstanding := standing_runStateChange h.sound.keyed changed state expiry .nothing id
  rw [← run_setState] at hstanding
  by_cases hid : changed = id
  · subst hid
    rw [if_pos rfl] at hstanding
    refine .stated ⟨state, expiry, rfl⟩ ?_
    rw [Manager.contains_eq_isSome_standing, Manager.contains_eq_isSome_standing]
    exact (congrArg Option.isSome hstanding).trans Option.isSome_map
  · rw [if_neg hid] at hstanding
    exact .kept (Manager.stated?_of_standing hstanding)

theorem Governs.cause_heartbeat (h : world.Governs) (offered : Field) (report : HeartbeatReport) (id : String) :
    world.Cause (.call (.operate (.heartbeat offered report))) id := by
  have hmove : world.move (.call (.operate (.heartbeat offered report))) =
      (world.serve (.heartbeat offered report)).1 := rfl
  refine .kept ?_
  cases hdetails : Details.ofField offered with
  | error failure => rw [hmove, serve_heartbeat_refused hdetails]
  | ok details =>
    rw [hmove, serve_heartbeat_admitted hdetails, run_heartbeat, h.primary.heartbeat_eq]
    exact (world.manager.tended_heartbeat h.sound.keyed h.enforced details report world.clock).stated? id

theorem Governs.cause_load (h : world.Governs) (id : String) : world.Cause (.call .load) id :=
  .of_kept trivial fun _ hgiven ↦ stated?_load h.sound hgiven

/-- Every move of a primary keeps the operational state of a datanode, sets it, takes the datanode out or brings
it in. -/
theorem Governs.cause (h : world.Governs) {move : Move} (hsuits : move.SuitsPrimary) (id : String) :
    world.Cause move id := by
  cases move with
  | call call =>
    cases call with
    | operate request =>
      cases request with
      | register offered nodeReport pipelineReport layout =>
        exact h.cause_register offered nodeReport pipelineReport layout id
      | heartbeat offered report => exact h.cause_heartbeat offered report id
      | remove removed => exact h.cause_remove removed id
      | setState changed state expiry => exact h.cause_setState changed state expiry id
      | reconcile changed state expiry => exact hsuits.elim
    | queue target command =>
      refine .kept ?_
      unfold World.move World.call
      simp only
      split
      · next queued hqueued => exact (Manager.tended_of_addCommand hqueued).stated? id
      · rfl
    | take target command =>
      refine .kept ?_
      simp only [World.move, World.call, h.primary.onCommand_eq]
      exact (world.manager.tended_onCommand target command).stated? id
    | purge target => exact .kept ((world.manager.tended_purgeCommands target).stated? id)
    | refreshUsage =>
      refine .kept ?_
      simp only [World.move, World.call, h.primary.refreshUsage_eq]
      exact (world.manager.tended_refreshUsage h.sound.keyed).stated? id
    | sweep moment => exact .kept ((world.manager.tended_checkHeartbeats h.sound.keyed _).stated? id)
    | load => exact h.cause_load id
    | switch table =>
      exact .of_kept trivial fun _ hgiven ↦ stated?_load (sound_switchTable h.sound table) hgiven
  | _ => exact .kept rfl

/-! ## Runs -/

/-- A datanode that comes to be registered in a run is brought in by one of the moves. -/
theorem Governs.exists_admits (h : world.Governs) {moves : List Move} {id : String}
    (hsuits : ∀ move ∈ moves, move.SuitsPrimary) (hbefore : world.manager.registry.contains id = false)
    (hafter : (world.after moves).manager.registry.contains id = true) :
    ∃ front fresh back, moves = front ++ fresh :: back ∧ (world.after front).Admits fresh id := by
  induction moves generalizing world with
  | nil => exact absurd (hbefore.symm.trans hafter) (by decide)
  | cons move rest ih =>
    cases hmoved : (world.move move).manager.registry.contains id with
    | true =>
      have hadmits : world.Admits move id := by
        have hchanged : ¬ (world.move move).manager.registry.contains id =
            world.manager.registry.contains id := by simp [hmoved, hbefore]
        cases h.cause (hsuits move List.mem_cons_self) id with
        | kept hkept =>
          rw [Manager.contains_eq_isSome_stated?, Manager.contains_eq_isSome_stated?, hkept] at hchanged
          exact absurd rfl hchanged
        | stated _ hcontains => exact absurd hcontains hchanged
        | removed hremoves => exact absurd (hbefore.symm.trans hremoves.before) (by decide)
        | admitted hadmits => exact hadmits
      exact ⟨[], move, rest, rfl, hadmits⟩
    | false =>
      obtain ⟨front, fresh, back, hrest, hadmits⟩ := ih (h.move move)
        (fun other hmem ↦ hsuits other (List.mem_cons_of_mem move hmem)) hmoved hafter
      exact ⟨move :: front, fresh, back, congrArg (List.cons move) hrest, hadmits⟩

/-- Between two different operational states of a registered datanode there is a call that sets it, or the
datanode was removed and brought in again. -/
theorem Governs.exists_cause (h : world.Governs) {moves : List Move} {id : String}
    (hsuits : ∀ move ∈ moves, move.SuitsPrimary) {given changed : Field × Field}
    (hgiven : world.manager.stated? id = some given)
    (hchanged : (world.after moves).manager.stated? id = some changed) (hne : given ≠ changed) :
    (∃ move ∈ moves, move.SetsState id) ∨
      ∃ front removal middle fresh back, moves = front ++ removal :: (middle ++ fresh :: back) ∧
        (world.after front).Removes removal id ∧
        (world.after (front ++ removal :: middle)).Admits fresh id := by
  induction moves generalizing world with
  | nil => exact absurd (Option.some.inj (hgiven.symm.trans hchanged)) hne
  | cons move rest ih =>
    have hsuitsRest : ∀ other ∈ rest, other.SuitsPrimary := fun other hmem ↦
      hsuits other (List.mem_cons_of_mem move hmem)
    cases h.cause (hsuits move List.mem_cons_self) id with
    | kept hkept =>
      obtain ⟨setting, hmem, hsets⟩ | ⟨front, removal, middle, fresh, back, hrest, hremoves, hadmits⟩ :=
        ih (h.move move) hsuitsRest (hkept.trans hgiven) hchanged
      · exact .inl ⟨setting, List.mem_cons_of_mem move hmem, hsets⟩
      · exact .inr ⟨move :: front, removal, middle, fresh, back, congrArg (List.cons move) hrest, hremoves,
          hadmits⟩
    | stated hsets _ => exact .inl ⟨move, List.mem_cons_self, hsets⟩
    | removed hremoves =>
      have hregistered : ((world.move move).after rest).manager.registry.contains id = true := by
        rw [Manager.contains_eq_isSome_stated?]
        exact congrArg Option.isSome hchanged
      obtain ⟨middle, fresh, back, hrest, hadmits⟩ :=
        (h.move move).exists_admits hsuitsRest hremoves.after hregistered
      exact .inr ⟨[], move, middle, fresh, back, congrArg (List.cons move) hrest, hremoves, hadmits⟩
    | admitted hadmits =>
      have hregistered := world.manager.contains_eq_isSome_stated? id
      rw [hadmits.before, hgiven] at hregistered
      cases hregistered

/-- A primary with nothing in memory that enforces the operational states of its registry runs twice, the second
time with other valid operational states in the heartbeats and in the registrations of registered datanodes.  After
every move the registries and the tables of the two runs are the same.  And whatever a primary does between two
different operational states of a datanode, there is a call among it that sets the state, or a removal of the
datanode and after it a registration. -/
theorem state_ruled_by_control_plane {world : World} (hempty : world.manager.HasEmptyMemory)
    (hprimary : world.service.IsPrimary) (henforced : world.manager.authority = .enforce)
    {moves others : List Move} (hrephrased : world.Rephrased moves others) :
    (∀ count,
      (world.after (moves.take count)).manager.registry = (world.after (others.take count)).manager.registry ∧
        (world.after (moves.take count)).tables = (world.after (others.take count)).tables) ∧
    ∀ (before between : List Move) (id : String) (given changed : Field × Field),
      (∀ move ∈ between, move.SuitsPrimary) →
      (world.after before).manager.stated? id = some given →
      (world.after (before ++ between)).manager.stated? id = some changed → given ≠ changed →
      (∃ move ∈ between, move.SetsState id) ∨
        ∃ front removal middle fresh back, between = front ++ removal :: (middle ++ fresh :: back) ∧
          (world.after (before ++ front)).Removes removal id ∧
          (world.after (before ++ (front ++ removal :: middle))).Admits fresh id := by
  have hgoverns : world.Governs := ⟨hempty.sound, hprimary, henforced⟩
  refine ⟨fun count ↦ ?_, ?_⟩
  · obtain ⟨entries, hafter⟩ := hrephrased.sameButLog_after hgoverns (.refl world) count
    rw [hafter]
    exact ⟨rfl, rfl⟩
  · intro before between id given changed hsuits hgiven hchanged hne
    have happend (moves : List Move) : world.after (before ++ moves) = (world.after before).after moves :=
      List.foldl_append
    simp only [happend] at hchanged ⊢
    exact (hgoverns.after before).exists_cause hsuits hgiven hchanged hne

/-- A datanode that is to be decommissioned may say that it is in service or in maintenance: its record and its
row say the same, and the state that they say came from the call that set it. -/
theorem state_ruled_by_control_plane_over_reports :
    let world := initial .default
    let honest := Details.sample "/rack1"
    let claimed := honest.withOperational (some (.text OperationalState.inMaintenance.name)) none
    let setting : Move := .call (.operate (.setState honest.id
      (some (.text OperationalState.decommissioning.name)) none))
    let reports (details : Details) : List Move :=
      [.call (.operate (.heartbeat (some details.toValue) {})),
        .call (.operate (.register (some details.toValue) none none none))]
    let moves := Move.sample "/rack1" :: setting :: reports honest
    let others := Move.sample "/rack1" :: setting :: reports claimed
    (world.manager.HasEmptyMemory ∧ world.service.IsPrimary ∧ world.manager.authority = .enforce ∧
      world.Rephrased moves others) ∧
    ((world.after moves).manager.registry = (world.after others).manager.registry ∧
      (world.after moves).tables = (world.after others).tables) ∧
    ∃ move ∈ setting :: reports honest, move.SetsState honest.id := by
  intro world honest claimed setting reports moves others
  have hempty : world.manager.HasEmptyMemory := hasEmptyMemory_initial .default
  have hclaimed : honest.Rephrases claimed := by
    unfold Details.Rephrases
    decide
  have hrephrased : world.Rephrased moves others :=
    .cons (.same _) (.cons (.same _) (.cons (.heartbeat hclaimed _)
      (.cons (.register hclaimed (by decide +kernel) (by decide) (by decide) none none none) (.nil _))))
  obtain ⟨hsame, hcause⟩ := state_ruled_by_control_plane hempty rfl rfl hrephrased
  refine ⟨⟨hempty, rfl, rfl, hrephrased⟩, hsame 4, ?_⟩
  have hset := hcause [Move.sample "/rack1"] (setting :: reports honest) honest.id
    (some (.text OperationalState.inService.name), none)
    (some (.text OperationalState.decommissioning.name), some (.number 0))
    (by simp [setting, reports, Move.SuitsPrimary]) (by decide +kernel) (by decide +kernel) (by decide)
  obtain hsets | ⟨front, removal, middle, fresh, back, hbetween, hremoves, -⟩ := hset
  · exact hsets
  · have hremoval : removal ∈ setting :: reports honest := by
      rw [hbetween]
      simp
    rw [hremoves.removal] at hremoval
    simp [setting, reports] at hremoval

end World

end ClusterMembership
