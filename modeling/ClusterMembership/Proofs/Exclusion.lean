import ClusterMembership.Proofs.LockOrder

/-!
# Exclusion under locks

Where every task keeps to the lock that it was started for, the chained tails exclude, whatever the run: at most one
task of a lock is at work, tasks of a lock begin in the order in which they were started, a task that no earlier one of
its lock precedes begins though no other task ends, and a tail is kept for a lock exactly while a task that was started
for it has not ended.
-/

namespace ClusterMembership

/-- A move that starts at most a task that keeps to its lock. -/
def StageMove.KeepsToLock : StageMove → Prop
  | .start _ id body => BodyKeepsTo id body
  | _ => True

namespace Stage

/-! ## How many turns can be taken -/

theorem sum_weight_set {strands : List Strand} {number : Nat} {strand : Strand}
    (hstrand : strands[number]? = some strand) (next : Strand) :
    ((strands.set number next).map Strand.weight).sum + strand.weight =
      (strands.map Strand.weight).sum + next.weight := by
  induction strands generalizing number with
  | nil => cases hstrand
  | cons first rest ih =>
    cases number with
    | zero =>
      obtain rfl : first = strand := Option.some.inj hstrand
      rw [List.set_cons_zero, List.map_cons, List.map_cons, List.sum_cons, List.sum_cons]
      omega
    | succ number =>
      have hrest := ih hstrand
      rw [List.set_cons_succ, List.map_cons, List.map_cons, List.sum_cons, List.sum_cons]
      omega

section Bound

variable {stage : Stage} {asked : List String}

/-- A step gives up at least what its turn costs. -/
theorem weight_advance_le (horderly : stage.Orderly asked) (number : Nat) :
    (stage.advance number).weight ≤ stage.weight := by
  cases hstrand : stage.strands[number]? with
  | none => exact Nat.le_of_eq (congrArg weight (advance_of_none hstrand))
  | some strand =>
    obtain ⟨id, hasked, hstepped⟩ := horderly.exists_stepped hstrand
    generalize stage.advance number = after at hstepped ⊢
    unfold Stage.weight
    cases hstepped with
    | idle _ => exact Nat.le_refl _
    | working next new _ _ _ hset _ hturns _ hweight =>
      have hstrands := sum_weight_set hstrand next
      rw [hset, (hturns.map Turn.cost).sum_nat, List.map_append, List.sum_append]
      omega
    | ended name frame request outcome heq hid hrequest =>
      generalize hpassed :
        ({ stage with locks := stage.locks.release id request } : Stage).grantNext request = passed
      have hsettled : Strand.weight ⟨name, [], .settled outcome⟩ = 0 := rfl
      change ((passed.strands.set number _).map _).sum + (passed.turns.map _).sum ≤ _
      obtain ⟨-, ⟨-, hstrands, hturns⟩ | ⟨second, rest, waiting, -, hne, hwaiting, hstand, hstrands, hturns⟩⟩ :=
        horderly.grantNext_cases hasked ⟨name, frame, outcome, heq ▸ hstrand, hid, hrequest⟩ hpassed
      · have hset := sum_weight_set hstrand ⟨name, [], .settled outcome⟩
        rw [hstrands, hturns]
        omega
      · have hgrant := sum_weight_set hwaiting { waiting with stand := .granted }
        have hstill : passed.strands[number]? = some strand := by
          rw [hstrands, List.getElem?_set_ne hne.symm, hstrand]
        have hset := sum_weight_set hstill ⟨name, [], .settled outcome⟩
        have hwait : waiting.weight = Strand.weight { waiting with stand := .granted } + 3 := by
          simp only [Strand.weight, hstand, Stand.weight]
        rw [hstrands] at hset
        rw [hstrands, hturns, List.map_append, List.sum_append, List.map_singleton, List.sum_singleton]
        simp only [Turn.cost, Turn.handover]
        omega

theorem weight_passTurn_lt (horderly : stage.Orderly asked) (hturns : stage.turns ≠ []) :
    stage.passTurn.weight < stage.weight := by
  obtain ⟨turn, rest, hcons⟩ := List.exists_cons_of_ne_nil hturns
  have hrest : ({ stage with turns := rest } : Stage).Orderly asked := horderly.of_same rfl rfl
  have hweight : stage.weight = ({ stage with turns := rest } : Stage).weight + turn.cost := by
    simp only [Stage.weight, hcons, List.map_cons, List.sum_cons]
    omega
  have hcost : 0 < turn.cost := Nat.succ_pos _
  unfold passTurn
  rw [hcons]
  dsimp only
  split
  · have hle := weight_advance_le hrest turn.task
    omega
  · next hwait =>
    have hpassed : turn.passed.cost < turn.cost := by
      simp only [Turn.isDue, decide_eq_true_eq] at hwait
      simp only [Turn.cost, Turn.passed]
      omega
    rw [hweight]
    simp only [Stage.weight, List.map_append, List.sum_append, List.map_singleton, List.sum_singleton]
    omega

end Bound

/-- What holds between moves. -/
structure Steady (stage : Stage) (asked : List String) : Prop extends stage.Orderly asked where
  inTurn : stage.GrantsInTurn
  isPatient : stage.IsPatient

theorem steady_empty : ({} : Stage).Steady [] where
  length_eq := rfl
  within := by
    intro number strand id hstrand
    cases hstrand
  guarded := guarded_empty
  serves id := by
    refine ⟨[], rfl, ?_, ?_, ?_⟩ <;> intro number hnumber <;> cases hnumber
  inTurn := by
    intro number hgranted
    cases hgranted
  isPatient := by
    intro turn hturn
    cases hturn

theorem Steady.move {stage : Stage} {asked : List String} (hsteady : stage.Steady asked) {move : StageMove}
    (hkeeps : move.KeepsToLock) : (stage.move move).Steady (asked ++ move.asked?.toList) := by
  cases move with
  | start name id body =>
    have horderly : ({ stage with log := [] } : Stage).Orderly asked := hsteady.toOrderly.of_same rfl rfl
    have hgrants : ({ stage with log := [] } : Stage).GrantsInTurn :=
      hsteady.inTurn.of_same rfl (List.Subset.refl _)
    have hpatient : ({ stage with log := [] } : Stage).IsPatient := hsteady.isPatient
    exact ⟨start_orderly horderly name hkeeps, start_grantsInTurn hgrants name id body,
      start_isPatient hpatient name id body⟩
  | openGate gate =>
    change Steady _ (asked ++ [])
    rw [List.append_nil]
    exact ⟨hsteady.toOrderly.of_same rfl rfl, hsteady.inTurn.of_same rfl (List.subset_append_left _ _),
      openGate_isPatient hsteady.isPatient gate⟩
  | go number =>
    change Steady _ (asked ++ [])
    rw [List.append_nil]
    exact ⟨hsteady.toOrderly.advance number,
      hsteady.toOrderly.grantsInTurn_advance fun other _ hgranted ↦ hsteady.inTurn other hgranted,
      hsteady.toOrderly.isPatient_advance hsteady.isPatient number⟩
  | turn =>
    change Steady _ (asked ++ [])
    rw [List.append_nil]
    exact ⟨passTurn_orderly hsteady.toOrderly, passTurn_grantsInTurn hsteady.toOrderly hsteady.inTurn,
      passTurn_isPatient hsteady.toOrderly hsteady.isPatient⟩

theorem Steady.after {stage : Stage} {asked : List String} (hsteady : stage.Steady asked) {moves : List StageMove}
    (hkeeps : ∀ move ∈ moves, move.KeepsToLock) :
    (stage.after moves).Steady (asked ++ moves.filterMap StageMove.asked?) := by
  induction moves generalizing stage asked with
  | nil => rwa [List.filterMap_nil, List.append_nil]
  | cons move rest ih =>
    have hmove := hsteady.move (hkeeps move List.mem_cons_self)
    have hrest := ih hmove fun other hother ↦ hkeeps other (List.mem_cons_of_mem move hother)
    rw [List.append_assoc] at hrest
    rw [List.filterMap_cons]
    cases move with
    | start name id body => exact hrest
    | _ => exact hrest

/-! ## Turns that pass -/

theorem passTurn_of_nil {stage : Stage} (hturns : stage.turns = []) : stage.passTurn = stage := by
  unfold passTurn
  rw [hturns]

theorem settleWithin_of_nil {stage : Stage} (hturns : stage.turns = []) (bound : Nat) :
    settleWithin bound stage = stage := by
  cases bound with
  | zero => rfl
  | succ bound =>
    unfold settleWithin
    rw [hturns]

theorem settleWithin_succ (bound : Nat) (stage : Stage) :
    settleWithin (bound + 1) stage = settleWithin bound stage.passTurn := by
  cases hturns : stage.turns with
  | nil => rw [settleWithin_of_nil hturns, passTurn_of_nil hturns, settleWithin_of_nil hturns]
  | cons turn rest =>
    simp only [settleWithin, passTurn, hturns]
    split <;> rfl

/-- Turns that pass are moves. -/
theorem settleWithin_eq_after (bound : Nat) (stage : Stage) :
    settleWithin bound stage = stage.after (List.replicate bound .turn) := by
  induction bound generalizing stage with
  | zero => rfl
  | succ bound ih =>
    rw [settleWithin_succ, ih]
    rfl

/-- With enough turns, no strand can go on. -/
theorem turns_settleWithin {stage : Stage} {asked : List String} (horderly : stage.Orderly asked) {bound : Nat}
    (hbound : stage.weight ≤ bound) : (settleWithin bound stage).turns = [] := by
  induction bound generalizing stage with
  | zero =>
    by_cases hturns : stage.turns = []
    · exact hturns
    · have hlt := weight_passTurn_lt horderly hturns
      omega
  | succ bound ih =>
    by_cases hturns : stage.turns = []
    · rw [settleWithin_of_nil hturns, hturns]
    · have hlt := weight_passTurn_lt horderly hturns
      rw [settleWithin_succ]
      exact ih (passTurn_orderly horderly) (by omega)

theorem Steady.weight_le {stage : Stage} {asked : List String} (hsteady : stage.Steady asked) :
    stage.weight ≤ stage.turnsLeft := by
  have hstrand (strand : Strand) (hmem : strand ∈ stage.strands) : strand.weight ≤ 16 * strand.size := by
    obtain ⟨number, hnumber⟩ := List.mem_iff_getElem?.mp hmem
    obtain ⟨id, -, hwithin⟩ := hsteady.toOrderly.exists_within hnumber
    exact hwithin.weight_le
  have hstrands : (stage.strands.map Strand.weight).sum ≤ 16 * (stage.strands.map Strand.size).sum := by
    rw [← List.sum_map_mul_left]
    exact List.sum_le_sum hstrand
  have hturns : (stage.turns.map Turn.cost).sum ≤ stage.turns.length * 4 := by
    have hle : (stage.turns.map Turn.cost).sum ≤ (stage.turns.map fun _ ↦ 4).sum :=
      List.sum_le_sum fun turn hturn ↦ Nat.succ_le_succ (hsteady.isPatient turn hturn)
    rwa [List.map_const', List.sum_replicate_nat] at hle
  have hsize : stage.strands.foldl (fun total strand ↦ total + strand.size) 0 =
      (stage.strands.map Strand.size).sum := by
    rw [List.sum_eq_foldl, List.foldl_map]
  unfold weight turnsLeft
  dsimp only
  rw [hsize]
  omega

/-- The bound on the turns that a script lets pass is enough. -/
theorem Steady.turns_settle {stage : Stage} {asked : List String} (hsteady : stage.Steady asked) :
    stage.settle.turns = [] :=
  turns_settleWithin hsteady.toOrderly hsteady.weight_le

/-! ## Tasks that have ended -/

theorem HasEnded.settleWithin {stage : Stage} {asked : List String} (horderly : stage.Orderly asked) {task : Nat}
    (hended : stage.HasEnded task) (bound : Nat) : (Stage.settleWithin bound stage).HasEnded task := by
  rw [settleWithin_eq_after]
  exact (horderly.guarded.after (List.replicate bound .turn)).ended hended

/-! ## Exclusion -/

/-- What the locks promise of tasks, whatever they do; task `n` was started for the lock that stands at `n`. -/
structure Exclusive (stage : Stage) (asked : List String) : Prop where
  /-- At most one task of a lock is at work. -/
  alone : ∀ {id : String} {number other : Nat}, asked[number]? = some id → asked[other]? = some id →
    stage.IsAtWork number → stage.IsAtWork other → number = other
  /-- When a task has begun, all that were started before it for its lock have ended. -/
  inOrder : ∀ {id : String} {number earlier : Nat}, earlier < number → asked[earlier]? = some id →
    asked[number]? = some id → stage.HasBegun number → stage.HasEnded earlier
  /-- A task whose lock no earlier task keeps has begun or begins with its own next step, and that step comes
  though no gate is opened and no other task ends. -/
  prompt : ∀ {id : String} {number : Nat}, asked[number]? = some id →
    (∀ earlier < number, asked[earlier]? = some id → stage.HasEnded earlier) →
    (stage.HasBegun number ∨ stage.stand? number = some .granted ∧ (stage.advance number).HasBegun number) ∧
      stage.settle.HasBegun number
  /-- A section that a task enters under its lock is for the lock it has, and runs at once without a request. -/
  nested : ∀ {number : Nat} {name id : String} {frame : Frame} {outer : List Frame} {body rest : List Instruction}
    {catches : Bool}, stage.strands[number]? = some ⟨name, frame :: outer, .running⟩ →
    frame.rest = .enter id body catches :: rest →
    asked[number]? = some id ∧
      stage.advance number =
        (stage.setStrand number
          ⟨name, { id, held := frame.held, rest := body, catches } ::
            { frame with rest, paused := true } :: outer, .running⟩).goOn number
  /-- A lock is taken exactly while some task that was started for it has not ended. -/
  locked : ∀ id, stage.locks.isLocked id = true ↔ ∃ number, asked[number]? = some id ∧ ¬ stage.HasEnded number
  /-- When all tasks have ended, no tail is kept. -/
  clean : (∀ number < asked.length, stage.HasEnded number) → stage.locks.tails = .empty

namespace Orderly

variable {stage : Stage} {asked : List String} {id : String} {number : Nat}

/-- The line of a lock holds the tasks that were started for it and have not ended. -/
theorem mem_line_iff (horderly : stage.Orderly asked) :
    number ∈ stage.locks.line id ↔ asked[number]? = some id ∧ ¬ stage.HasEnded number := by
  obtain ⟨ended, htasks, hended, hhead, htail⟩ := horderly.serves id
  rw [← mem_tasksOf, htasks]
  constructor
  · intro hmem
    refine ⟨List.mem_append_right ended hmem, ?_⟩
    cases hline : stage.locks.line id with
    | nil => simp [hline] at hmem
    | cons first rest =>
      rw [hline] at hmem hhead htail
      obtain rfl | hmem := List.mem_cons.mp hmem
      · exact (hhead number rfl).not_ended
      · rintro ⟨stand, hstand, hsettled⟩
        rw [htail number hmem] at hstand
        rw [← Option.some.inj hstand] at hsettled
        exact hsettled
  · rintro ⟨hmem, hnot⟩
    exact (List.mem_append.mp hmem).resolve_left fun hbefore ↦ hnot (hended number hbefore)

/-- Who was started after one that stands in the line of its lock waits. -/
theorem waits_of_lt (horderly : stage.Orderly asked) {earlier : Nat} (hlt : earlier < number)
    (hearlier : earlier ∈ stage.locks.line id) (hasked : asked[number]? = some id) :
    stage.stand? number = some .waiting := by
  obtain ⟨ended, htasks, -, -, htail⟩ := horderly.serves id
  have hmem := mem_tasksOf.mpr hasked
  have hordered := pairwise_tasksOf asked id
  rw [htasks] at hmem hordered
  obtain ⟨-, hline, hcross⟩ := List.pairwise_append.mp hordered
  obtain hmem | hmem := List.mem_append.mp hmem
  · exact absurd (hcross number hmem earlier hearlier) (Nat.lt_asymm hlt)
  · obtain ⟨first, rest, hcons⟩ := List.exists_cons_of_ne_nil (List.ne_nil_of_mem hmem)
    rw [hcons] at hmem hearlier hline htail
    obtain rfl | hmem := List.mem_cons.mp hmem
    · obtain rfl | hearlier := List.mem_cons.mp hearlier
      · exact absurd hlt (Nat.lt_irrefl earlier)
      · exact absurd ((List.pairwise_cons.mp hline).1 earlier hearlier) (Nat.lt_asymm hlt)
    · exact htail number hmem

/-- A task that no earlier one of its lock precedes has been let in, or has ended. -/
theorem isLetIn_or_hasEnded (horderly : stage.Orderly asked) (hasked : asked[number]? = some id)
    (hearlier : ∀ earlier < number, asked[earlier]? = some id → stage.HasEnded earlier) :
    stage.IsLetIn number ∨ stage.HasEnded number := by
  by_cases hended : stage.HasEnded number
  · exact .inr hended
  · have hmem := horderly.mem_line_iff.mpr ⟨hasked, hended⟩
    obtain ⟨first, rest, hcons⟩ := List.exists_cons_of_ne_nil (List.ne_nil_of_mem hmem)
    obtain ⟨ended, htasks, -, hhead, -⟩ := horderly.serves id
    have hordered := pairwise_tasksOf asked id
    rw [htasks, hcons] at hordered
    rw [hcons] at hmem hhead
    obtain rfl | hrest := List.mem_cons.mp hmem
    · exact .inl (hhead number rfl)
    · have hlt := (List.pairwise_cons.mp (List.pairwise_append.mp hordered).2.1).1 number hrest
      obtain ⟨hfirst, hnot⟩ := horderly.mem_line_iff.mp (hcons ▸ List.mem_cons_self : first ∈ stage.locks.line id)
      exact absurd (hearlier first hlt hfirst) hnot

theorem alone (horderly : stage.Orderly asked) {other : Nat} (hnumber : asked[number]? = some id)
    (hother : asked[other]? = some id) (hin : stage.IsLetIn number) (hinOther : stage.IsLetIn other) :
    number = other := by
  obtain ⟨rest, hline⟩ := horderly.line_eq_cons hnumber hin
  obtain ⟨restOther, hlineOther⟩ := horderly.line_eq_cons hother hinOther
  exact (List.cons.inj (hline.symm.trans hlineOther)).1

theorem inOrder (horderly : stage.Orderly asked) {earlier : Nat} (hlt : earlier < number)
    (hearlier : asked[earlier]? = some id) (hasked : asked[number]? = some id) (hbegun : stage.HasBegun number) :
    stage.HasEnded earlier := by
  refine Classical.byContradiction fun hnot ↦ ?_
  exact hbegun.not_waiting (horderly.waits_of_lt hlt (horderly.mem_line_iff.mpr ⟨hearlier, hnot⟩) hasked)

/-- A section for the lock that a task has runs at once. -/
theorem nested (horderly : stage.Orderly asked) {name : String} {frame : Frame} {outer : List Frame}
    {body rest : List Instruction} {catches : Bool}
    (hstrand : stage.strands[number]? = some ⟨name, frame :: outer, .running⟩)
    (hrest : frame.rest = .enter id body catches :: rest) :
    asked[number]? = some id ∧
      stage.advance number =
        (stage.setStrand number
          ⟨name, { id, held := frame.held, rest := body, catches } ::
            { frame with rest, paused := true } :: outer, .running⟩).goOn number := by
  obtain ⟨own, hasked, hwithin⟩ := horderly.exists_within hstrand
  have hframe : frame.Under own := by
    cases hwithin with
    | running name hnested => exact hnested.head_under
  have hbody := hframe.rest
  rw [hrest] at hbody
  obtain rfl : id = own := hbody.1.1
  have hheld : id ∈ frame.held := by
    rw [hframe.held]
    exact List.mem_singleton_self id
  refine ⟨hasked, ?_⟩
  unfold Stage.advance
  rw [hstrand]
  dsimp only
  rw [hrest]
  exact enterSection_of_held hheld stage number name _ body catches

theorem clean (horderly : stage.Orderly asked) (hall : ∀ number < asked.length, stage.HasEnded number) :
    stage.locks.tails = .empty := by
  refine horderly.guarded.chained.tails_eq_empty fun id ↦ List.eq_nil_iff_forall_not_mem.mpr fun number hmem ↦ ?_
  obtain ⟨hasked, hnot⟩ := horderly.mem_line_iff.mp hmem
  exact hnot (hall number (List.getElem?_eq_some_iff.mp hasked).1)

theorem isLocked_iff (horderly : stage.Orderly asked) :
    stage.locks.isLocked id = true ↔ ∃ number, asked[number]? = some id ∧ ¬ stage.HasEnded number := by
  rw [horderly.guarded.chained.isLocked_iff]
  constructor
  · intro hline
    exact (List.exists_mem_of_ne_nil _ hline).imp fun number ↦ horderly.mem_line_iff.mp
  · rintro ⟨number, hnumber⟩
    exact List.ne_nil_of_mem (horderly.mem_line_iff.mpr hnumber)

end Orderly

namespace Steady

variable {stage : Stage} {asked : List String} {id : String} {number : Nat}

/-- A task that was let in begins with its own next step. -/
theorem begins (hsteady : stage.Steady asked) (hgranted : stage.stand? number = some .granted) :
    (stage.advance number).HasBegun number := by
  obtain ⟨strand, hstrand, hstand⟩ := Option.map_eq_some_iff.mp hgranted
  obtain ⟨id, -, hstepped⟩ := hsteady.toOrderly.exists_stepped hstrand
  generalize stage.advance number = after at hstepped ⊢
  cases hstepped with
  | idle hidle =>
    rw [hstand] at hidle
    exact hidle.elim Stand.noConfusion False.elim
  | working next new _ _ hwork hset =>
    exact .inl ⟨next.stand, stand?_replaced hset (Option.isSome_of_mem hgranted), hwork⟩
  | ended name frame request outcome heq =>
    rw [heq] at hstand
    cases hstand

theorem settle (hsteady : stage.Steady asked) : stage.settle.Steady asked := by
  have hkeeps (move : StageMove) (hmove : move ∈ List.replicate stage.turnsLeft .turn) : move.KeepsToLock := by
    rw [List.eq_of_mem_replicate hmove]
    trivial
  have hafter := hsteady.after hkeeps
  rw [List.filterMap_replicate_of_none rfl, List.append_nil] at hafter
  rwa [Stage.settle, settleWithin_eq_after]

/-- Turns that pass let a task begin that no earlier one of its lock precedes. -/
theorem begun_settle (hsteady : stage.Steady asked) (hasked : asked[number]? = some id)
    (hearlier : ∀ earlier < number, asked[earlier]? = some id → stage.HasEnded earlier) :
    stage.settle.HasBegun number := by
  have hsettle := hsteady.settle
  obtain ⟨stand, hstand, rfl | hwork⟩ | hended :=
    hsettle.toOrderly.isLetIn_or_hasEnded hasked fun earlier hlt hother ↦
      HasEnded.settleWithin hsteady.toOrderly (hearlier earlier hlt hother) stage.turnsLeft
  · obtain ⟨turn, hturn, -⟩ := hsettle.inTurn number hstand
    rw [hsteady.turns_settle] at hturn
    cases hturn
  · exact .inl ⟨stand, hstand, hwork⟩
  · exact .inr hended

theorem exclusive (hsteady : stage.Steady asked) : stage.Exclusive asked where
  alone hnumber hother hwork hworkOther :=
    hsteady.toOrderly.alone hnumber hother hwork.isLetIn hworkOther.isLetIn
  inOrder hlt hearlier hasked hbegun := hsteady.toOrderly.inOrder hlt hearlier hasked hbegun
  prompt hasked hearlier := by
    refine ⟨?_, hsteady.begun_settle hasked hearlier⟩
    obtain ⟨stand, hstand, rfl | hwork⟩ | hended := hsteady.toOrderly.isLetIn_or_hasEnded hasked hearlier
    · exact .inr ⟨hstand, hsteady.begins hstand⟩
    · exact .inl (.inl ⟨stand, hstand, hwork⟩)
    · exact .inl (.inr hended)
  nested hstrand hrest := hsteady.toOrderly.nested hstrand hrest
  locked id := hsteady.toOrderly.isLocked_iff
  clean hall := hsteady.toOrderly.clean hall

end Steady

/-- Whatever tasks are started and in whatever order they go on and end, the locks exclude. -/
theorem exclusive_after {moves : List StageMove} (hkeeps : ∀ move ∈ moves, move.KeepsToLock) :
    (({} : Stage).after moves).Exclusive (moves.filterMap StageMove.asked?) :=
  (steady_empty.after hkeeps).exclusive

/-- Two tasks for one lock, of which the first enters it again and then fails, and one task for another lock. -/
def sampleMoves : List StageMove :=
  [.start "first" "dn1" [.enter "dn1" [.log "inner"] false, .fail "lost"],
    .start "second" "dn1" [.wait "gate", .answer .null],
    .start "third" "dn2" [.wait "gate"],
    .go 0, .go 0, .go 0, .turn, .go 0, .go 0, .go 0, .go 0, .turn, .turn, .turn, .go 1]

theorem exclusive_after_failed_task :
    (∀ move ∈ sampleMoves, move.KeepsToLock) ∧
      (({} : Stage).after sampleMoves).Exclusive ["dn1", "dn1", "dn2"] ∧
      (({} : Stage).after sampleMoves).locks.tails.entries = [("dn1", 1), ("dn2", 2)] := by
  have hkeeps : ∀ move ∈ sampleMoves, move.KeepsToLock := by
    simp [sampleMoves, StageMove.KeepsToLock, BodyKeepsTo, Instruction.KeepsTo]
  exact ⟨hkeeps, exclusive_after hkeeps, by decide +kernel⟩

/-! ## Scripts -/

/-- The move that a step of a script begins with. -/
def stepMove : ScriptStep → StageMove
  | .start name id body => .start name id body
  | .openGate gate => .openGate gate

theorem perform_eq_settle (stage : Stage) (step : ScriptStep) :
    stage.perform step = (stage.move (stepMove step)).settle := by
  cases step <;> rfl

theorem Steady.performAll {stage : Stage} {asked : List String} (hsteady : stage.Steady asked)
    {steps : List ScriptStep} (hkeeps : ∀ step ∈ steps, (stepMove step).KeepsToLock) :
    (steps.foldl perform stage).Steady (asked ++ steps.filterMap fun step ↦ (stepMove step).asked?) := by
  induction steps generalizing stage asked with
  | nil => rwa [List.filterMap_nil, List.append_nil]
  | cons step rest ih =>
    have hmove := (hsteady.move (hkeeps step List.mem_cons_self)).settle
    rw [← perform_eq_settle] at hmove
    have hrest := ih hmove fun other hother ↦ hkeeps other (List.mem_cons_of_mem step hother)
    rw [List.append_assoc] at hrest
    cases step <;> exact hrest

/-- The locks exclude between the steps of a script, and no strand can go on there. -/
theorem exclusive_performAll {steps : List ScriptStep} {step : ScriptStep}
    (hkeeps : ∀ other ∈ steps ++ [step], (stepMove other).KeepsToLock) :
    ((steps ++ [step]).foldl perform {}).Exclusive
        ((steps ++ [step]).filterMap fun other ↦ (stepMove other).asked?) ∧
      ((steps ++ [step]).foldl perform {}).turns = [] := by
  refine ⟨(steady_empty.performAll hkeeps).exclusive, ?_⟩
  have hsteps := steady_empty.performAll fun other hother ↦ hkeeps other (List.mem_append_left [step] hother)
  have hstep := hsteps.move (hkeeps step (List.mem_append_right steps List.mem_cons_self))
  rw [List.foldl_append, List.foldl_cons, List.foldl_nil, perform_eq_settle]
  exact hstep.turns_settle

end Stage

end ClusterMembership
