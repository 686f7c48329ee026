import ClusterMembership.Proofs.GuardedLines

/-!
# The order in which locks are passed on

Where every task keeps to the lock that it was started for, the line of a lock holds exactly the tasks that were
started for it and have not ended, in the order in which they were started; the first of them was let in, and all
others wait.  `Stage.Orderly` says so, and it is kept when a strand makes a step, when a task is started and when
turns pass: a new task goes to the end of its line, and a task that ends is the first of its line and passes the
lock on to the second.
-/

namespace ClusterMembership

namespace Stage

/-! ## The tasks of a lock -/

/-- The tasks that were started for a lock, in order; task `n` was started for the lock that stands at `n`. -/
def tasksOf (asked : List String) (id : String) : List Nat :=
  (List.range asked.length).filter fun number ↦ asked[number]? = some id

theorem mem_tasksOf {asked : List String} {id : String} {number : Nat} :
    number ∈ tasksOf asked id ↔ asked[number]? = some id := by
  rw [tasksOf, List.mem_filter, List.mem_range, decide_eq_true_eq]
  exact ⟨And.right, fun h ↦ ⟨(List.getElem?_eq_some_iff.mp h).1, h⟩⟩

theorem pairwise_tasksOf (asked : List String) (id : String) : (tasksOf asked id).Pairwise (· < ·) :=
  List.pairwise_lt_range.filter _

theorem tasksOf_append (asked : List String) (new id : String) :
    tasksOf (asked ++ [new]) id = if new = id then tasksOf asked id ++ [asked.length] else tasksOf asked id := by
  have hold : (List.range asked.length).filter (fun number ↦ (asked ++ [new])[number]? = some id) =
      tasksOf asked id := by
    refine List.filter_congr fun number hnumber ↦ ?_
    rw [List.getElem?_append_left (List.mem_range.mp hnumber)]
  unfold tasksOf at hold ⊢
  rw [List.length_append, List.length_singleton, List.range_succ, List.filter_append, hold]
  by_cases h : new = id
  · simp [h]
  · simp [h]

/-- The line of a lock as it should be: the tasks before it have ended, the first in it was let in, and the others
wait. -/
def Serves (stage : Stage) (tasks line : List Nat) : Prop :=
  ∃ ended, tasks = ended ++ line ∧ (∀ number ∈ ended, stage.HasEnded number) ∧
    (∀ number, line.head? = some number → stage.IsLetIn number) ∧
    ∀ number ∈ line.tail, stage.stand? number = some .waiting

/-- A line stays as it should be while tasks that were let in are let in and the others stand where they stood. -/
theorem Serves.mono {stage after : Stage} {tasks line : List Nat} (hserves : stage.Serves tasks line)
    (hstands : ∀ number ∈ tasks, after.stand? number = stage.stand? number ∨
      stage.IsLetIn number ∧ after.IsLetIn number) :
    after.Serves tasks line := by
  obtain ⟨ended, rfl, hended, hhead, htail⟩ := hserves
  refine ⟨ended, rfl, fun number hnumber ↦ ?_, fun number hnumber ↦ ?_, fun number hnumber ↦ ?_⟩
  · obtain hsame | ⟨hin, -⟩ := hstands number (List.mem_append_left line hnumber)
    · exact (hended number hnumber).imp fun stand h ↦ ⟨hsame.trans h.1, h.2⟩
    · exact absurd (hended number hnumber) hin.not_ended
  · obtain hsame | ⟨-, hin⟩ := hstands number (List.mem_append_right ended (List.mem_of_head? hnumber))
    · exact (hhead number hnumber).imp fun stand h ↦ ⟨hsame.trans h.1, h.2⟩
    · exact hin
  · obtain hsame | ⟨hin, -⟩ := hstands number (List.mem_append_right ended (List.mem_of_mem_tail hnumber))
    · exact hsame.trans (htail number hnumber)
    · exact absurd (htail number hnumber) hin.not_waiting

/-- Every task keeps to the lock that it was started for. -/
def AllWithin (strands : List Strand) (asked : List String) : Prop :=
  ∀ (number : Nat) (strand : Strand) (id : String), strands[number]? = some strand →
    asked[number]? = some id → strand.Within id

theorem AllWithin.set {strands : List Strand} {asked : List String} (hwithin : AllWithin strands asked)
    {number : Nat} {id : String} {next : Strand} (hasked : asked[number]? = some id) (hnext : next.Within id) :
    AllWithin (strands.set number next) asked := by
  intro other found foundId hfound hother
  rw [List.getElem?_set] at hfound
  by_cases h : number = other
  · subst h
    obtain rfl : id = foundId := Option.some.inj (hasked.symm.trans hother)
    rw [if_pos rfl] at hfound
    split at hfound
    · obtain rfl : next = found := Option.some.inj hfound
      exact hnext
    · cases hfound
  · rw [if_neg h] at hfound
    exact hwithin other found foundId hfound hother

/-- A task is about to end, with a request that it has made for its lock. -/
def IsEnding (stage : Stage) (number : Nat) (id : String) (request : Nat) : Prop :=
  ∃ name frame outcome, stage.strands[number]? = some ⟨name, [frame], .ending outcome⟩ ∧ frame.id = id ∧
    frame.request? = some request

theorem IsEnding.isLetIn {stage : Stage} {number : Nat} {id : String} {request : Nat}
    (hending : stage.IsEnding number id request) : stage.IsLetIn number := by
  obtain ⟨name, frame, outcome, hstrand, -⟩ := hending
  exact ⟨_, stand?_of_some hstrand, .inr trivial⟩

/-- What holds throughout: every task keeps to the lock that it was started for, the tails guard the locks, and every
line is as it should be. -/
structure Orderly (stage : Stage) (asked : List String) : Prop where
  length_eq : stage.strands.length = asked.length
  within : AllWithin stage.strands asked
  guarded : stage.Guarded
  serves : ∀ id, stage.Serves (tasksOf asked id) (stage.locks.line id)

namespace Orderly

variable {stage after : Stage} {asked : List String} {number : Nat} {id : String} {strand next : Strand}

/-- A task that was let into its lock is the first in its line. -/
theorem line_eq_cons (horderly : stage.Orderly asked) (hasked : asked[number]? = some id)
    (hin : stage.IsLetIn number) : ∃ rest, stage.locks.line id = number :: rest := by
  obtain ⟨ended, htasks, hended, -, htail⟩ := horderly.serves id
  have hmem := mem_tasksOf.mpr hasked
  rw [htasks, List.mem_append] at hmem
  obtain hmem | hmem := hmem
  · exact absurd (hended number hmem) hin.not_ended
  · cases hline : stage.locks.line id with
    | nil => simp [hline] at hmem
    | cons first rest =>
      rw [hline] at hmem htail
      obtain rfl | hmem := List.mem_cons.mp hmem
      · exact ⟨rest, rfl⟩
      · exact absurd (htail number hmem) hin.not_waiting

/-- A task that was let into its lock goes on. -/
theorem working (horderly : stage.Orderly asked) (hasked : asked[number]? = some id)
    (hin : stage.IsLetIn number) (hnext : next.Within id) (hletIn : next.stand.IsLetIn)
    (hset : after.strands = stage.strands.set number next) (hlocks : after.locks = stage.locks)
    (hguarded : after.Guarded) : after.Orderly asked where
  length_eq := by rw [hset, List.length_set, horderly.length_eq]
  within := hset ▸ horderly.within.set hasked hnext
  guarded := hguarded
  serves other := by
    rw [hlocks]
    refine (horderly.serves other).mono fun task _ ↦ ?_
    by_cases h : number = task
    · subst h
      exact .inr ⟨hin, next.stand, stand?_replaced hset hin.isSome, hletIn⟩
    · exact .inl (stand?_of_ne hset h)

/-- The first in a line has ended, the second is let in, and the others stand where they stood. -/
theorem serves_release (horderly : stage.Orderly asked) {request : Nat} {rest : List Nat}
    (hfirst : (stage.locks.pending id).head? = some request) (hline : stage.locks.line id = number :: rest)
    (hlocks : after.locks = stage.locks.release id request)
    (hended : after.HasEnded number) (hsecond : ∀ task, rest.head? = some task → after.IsLetIn task)
    (hothers : ∀ task, task ≠ number → rest.head? ≠ some task → after.stand? task = stage.stand? task)
    (other : String) : after.Serves (tasksOf asked other) (after.locks.line other) := by
  have hserves := horderly.serves id
  rw [hline] at hserves
  obtain ⟨ended, htasks, hbefore, -, htail⟩ := hserves
  rw [hlocks, LockTails.line_release_of_head hfirst]
  by_cases h : id = other
  · subst h
    have hlt := pairwise_tasksOf asked id
    rw [htasks, List.pairwise_append, List.pairwise_cons] at hlt
    obtain ⟨-, ⟨hfrom, hrest⟩, hcross⟩ := hlt
    rw [if_pos rfl, hline]
    refine ⟨ended ++ [number], by rw [htasks, List.append_assoc]; rfl, fun task htask ↦ ?_, hsecond,
      fun task htask ↦ ?_⟩
    · obtain htask | htask := List.mem_append.mp htask
      · have hsame : after.stand? task = stage.stand? task := by
          refine hothers task (Nat.ne_of_lt (hcross task htask number List.mem_cons_self)) fun hhead ↦ ?_
          exact Nat.lt_irrefl task
            (hcross task htask task (List.mem_cons_of_mem number (List.mem_of_head? hhead)))
        exact (hbefore task htask).imp fun stand h ↦ ⟨hsame.trans h.1, h.2⟩
      · rw [List.mem_singleton.mp htask]
        exact hended
    · obtain _ | ⟨first, others⟩ := rest
      · cases htask
      · have hfirstLt := (List.pairwise_cons.mp hrest).1 task htask
        have hsame : after.stand? task = stage.stand? task := by
          refine hothers task (Nat.ne_of_gt (hfrom task (List.mem_cons_of_mem first htask))) fun hhead ↦ ?_
          exact Nat.ne_of_lt hfirstLt (Option.some.inj hhead)
        exact hsame.trans (htail task (List.mem_cons_of_mem first htask))
  · rw [if_neg h]
    refine (horderly.serves other).mono fun task htask ↦ .inl ?_
    have hnot : task ∉ number :: rest := by
      intro hmem
      have hid := mem_tasksOf.mp (htasks ▸ List.mem_append_right ended hmem)
      exact h (Option.some.inj (hid.symm.trans (mem_tasksOf.mp htask)))
    refine hothers task (fun heq ↦ hnot (heq ▸ List.mem_cons_self)) fun hhead ↦ ?_
    exact hnot (List.mem_cons_of_mem number (List.mem_of_head? hhead))

/-- The request of a task that is about to end is the first that is left for its lock. -/
theorem first_eq (horderly : stage.Orderly asked) (hasked : asked[number]? = some id) {request : Nat}
    (hending : stage.IsEnding number id request) : (stage.locks.pending id).head? = some request := by
  obtain ⟨rest, hline⟩ := horderly.line_eq_cons hasked hending.isLetIn
  obtain ⟨name, frame, outcome, hstrand, rfl, hrequest⟩ := hending
  have hmade : (frame.id, request) ∈ (Strand.mk name [frame] (.ending outcome)).requests := by
    rw [Strand.requests, requestsOf_cons_of_some hrequest]
    exact List.mem_cons_self
  exact (horderly.guarded.made hstrand _ hmade).head? (horderly.guarded.nodup _) (hline ▸ List.head?_cons)

/-- The lock of a task is passed on to the second in its line, if there is one. -/
theorem grantNext_cases (horderly : stage.Orderly asked) (hasked : asked[number]? = some id) {request : Nat}
    (hending : stage.IsEnding number id request) {passed : Stage}
    (hpassed : ({ stage with locks := stage.locks.release id request } : Stage).grantNext request = passed) :
    passed.locks = stage.locks.release id request ∧
      (stage.locks.line id = [number] ∧ passed.strands = stage.strands ∧ passed.turns = stage.turns ∨
        ∃ second rest waiting, stage.locks.line id = number :: second :: rest ∧ number ≠ second ∧
          stage.strands[second]? = some waiting ∧ waiting.stand = .waiting ∧
          passed.strands = stage.strands.set second { waiting with stand := .granted } ∧
          passed.turns = stage.turns ++ [⟨second, Turn.handover⟩]) := by
  have hin := hending.isLetIn
  obtain ⟨others, hline⟩ := horderly.line_eq_cons hasked hin
  let left : Stage := { stage with locks := stage.locks.release id request }
  have hsuccessor : left.locks.successor? request = others.head? := by
    rw [horderly.guarded.chained.successor?_release (horderly.first_eq hasked hending), hline, List.tail_cons]
  obtain ⟨ended, htasks, -, -, htail⟩ := horderly.serves id
  rw [hline] at htasks htail
  cases others with
  | nil =>
    rw [grantNext_of_none hsuccessor] at hpassed
    subst hpassed
    exact ⟨rfl, .inl ⟨hline, rfl, rfl⟩⟩
  | cons second rest =>
    have hwaiting := htail second List.mem_cons_self
    obtain ⟨waiting, hstrand, hstand⟩ := Option.map_eq_some_iff.mp hwaiting
    have hne : number ≠ second := by
      rintro rfl
      exact hin.not_waiting hwaiting
    rw [grantNext_of_some hsuccessor hstrand] at hpassed
    subst hpassed
    exact ⟨rfl, .inr ⟨second, rest, waiting, hline, hne, hstrand, hstand, rfl, rfl⟩⟩

/-- A task at work ends. -/
theorem ended (horderly : stage.Orderly asked) (hasked : asked[number]? = some id) {request : Nat}
    (hending : stage.IsEnding number id request) (name : String) (outcome : SectionOutcome)
    (hguarded : ((({ stage with locks := stage.locks.release id request } : Stage).grantNext request).setStrand number
      ⟨name, [], .settled outcome⟩).Guarded) :
    ((({ stage with locks := stage.locks.release id request } : Stage).grantNext request).setStrand number
      ⟨name, [], .settled outcome⟩).Orderly asked := by
  generalize hpassed :
    ({ stage with locks := stage.locks.release id request } : Stage).grantNext request = passed at hguarded ⊢
  have hsettled : ({ name, frames := [], stand := .settled outcome } : Strand).Within id := .settled name outcome
  have hin := hending.isLetIn
  have hfirst := horderly.first_eq hasked hending
  obtain ⟨hlocks, ⟨hline, hstrands, -⟩ |
    ⟨second, rest, waiting, hline, hne, hwaiting, hstand, hstrands, -⟩⟩ :=
    horderly.grantNext_cases hasked hending hpassed
  · have hset : (passed.setStrand number ⟨name, [], .settled outcome⟩).strands =
        stage.strands.set number ⟨name, [], .settled outcome⟩ := by
      rw [← hstrands]
      rfl
    refine ⟨?_, hset ▸ horderly.within.set hasked hsettled, hguarded,
      horderly.serves_release hfirst hline hlocks ⟨_, stand?_replaced hset hin.isSome, trivial⟩ ?_ ?_⟩
    · rw [hset, List.length_set, horderly.length_eq]
    · intro task htask
      cases htask
    · intro task hother _
      exact stand?_of_ne hset hother.symm
  · have hsecond : asked[second]? = some id := by
      obtain ⟨ended, htasks, -⟩ := horderly.serves id
      refine mem_tasksOf.mp ?_
      rw [htasks, hline]
      exact List.mem_append_right _ (List.mem_cons_of_mem _ List.mem_cons_self)
    have hgranted := horderly.within.set hsecond ((horderly.within second waiting id hwaiting hsecond).grant hstand)
    have hnumber := stand?_of_ne hstrands hne.symm
    refine ⟨?_, (hstrands ▸ hgranted).set hasked hsettled, hguarded,
      horderly.serves_release hfirst hline hlocks ⟨_, stand?_replaced rfl (hnumber ▸ hin.isSome), trivial⟩ ?_ ?_⟩
    · exact List.length_set.trans (by rw [hstrands, List.length_set, horderly.length_eq])
    · intro task htask
      obtain rfl : second = task := Option.some.inj htask
      refine ⟨.granted, ?_, .inl rfl⟩
      rw [stand?_of_ne rfl hne, stand?_replaced hstrands]
      simp [stand?, hwaiting]
    · intro task hother hsecond
      rw [stand?_of_ne rfl hother.symm, stand?_of_ne hstrands fun h ↦ hsecond (congrArg some h)]

/-- Every strand was started for a lock and keeps to it. -/
theorem exists_within (horderly : stage.Orderly asked) (hstrand : stage.strands[number]? = some strand) :
    ∃ id, asked[number]? = some id ∧ strand.Within id := by
  have hlt := (List.getElem?_eq_some_iff.mp hstrand).1
  rw [horderly.length_eq] at hlt
  have hasked := List.getElem?_eq_getElem hlt
  exact ⟨_, hasked, horderly.within number strand _ hstrand hasked⟩

/-- A step of a strand is one of those of its lock. -/
theorem exists_stepped (horderly : stage.Orderly asked) (hstrand : stage.strands[number]? = some strand) :
    ∃ id, asked[number]? = some id ∧ Stepped stage number id strand (stage.advance number) := by
  obtain ⟨id, hasked, hwithin⟩ := horderly.exists_within hstrand
  exact ⟨id, hasked, stepped_advance hstrand hwithin⟩

theorem advance (horderly : stage.Orderly asked) (number : Nat) : (stage.advance number).Orderly asked := by
  cases hstrand : stage.strands[number]? with
  | none => rwa [advance_of_none hstrand]
  | some strand =>
    obtain ⟨id, hasked, hstepped⟩ := horderly.exists_stepped hstrand
    have hin (hstand : strand.stand.IsLetIn) : stage.IsLetIn number :=
      ⟨strand.stand, stand?_of_some hstrand, hstand⟩
    have hguarded := (horderly.guarded.advance number).guarded
    generalize stage.advance number = after at hstepped hguarded ⊢
    cases hstepped with
    | idle _ => exact horderly
    | working next new hstand hnext hwork hset hlocks =>
      exact horderly.working hasked (hin hstand) hnext (.inr hwork) hset hlocks hguarded
    | ended name frame request outcome heq hid hrequest =>
      exact horderly.ended hasked ⟨name, frame, outcome, heq ▸ hstrand, hid, hrequest⟩ name outcome hguarded

end Orderly

/-- Every task that was let in and has not begun stands in the line of turns. -/
def GrantsInTurn (stage : Stage) : Prop :=
  ∀ number, stage.stand? number = some .granted → stage.InTurn number

theorem InTurn.mono {stage after : Stage} {number : Nat} (hturn : stage.InTurn number)
    (hsub : stage.turns ⊆ after.turns) : after.InTurn number := by
  obtain ⟨turn, hmem, htask⟩ := hturn
  exact ⟨turn, hsub hmem, htask⟩

/-- The task that is let in when a lock is passed on gets a turn, and nobody loses one. -/
theorem Orderly.inTurn_grantNext {stage passed : Stage} {asked : List String} (horderly : stage.Orderly asked)
    {number request : Nat} {id : String} (hasked : asked[number]? = some id)
    (hending : stage.IsEnding number id request)
    (hpassed : ({ stage with locks := stage.locks.release id request } : Stage).grantNext request = passed)
    {other : Nat} (hother : stage.stand? other = some .granted → stage.InTurn other)
    (hgranted : passed.stand? other = some .granted) : passed.InTurn other := by
  obtain ⟨-, ⟨-, hstrands, hturns⟩ | ⟨second, rest, waiting, -, -, -, -, hstrands, hturns⟩⟩ :=
    horderly.grantNext_cases hasked hending hpassed
  · rw [stand?, hstrands] at hgranted
    exact (hother hgranted).mono fun turn hturn ↦ hturns ▸ hturn
  · by_cases h : second = other
    · have hgiven : (⟨second, Turn.handover⟩ : Turn) ∈ passed.turns := by
        rw [hturns]
        exact List.mem_append_right _ List.mem_cons_self
      exact ⟨_, hgiven, h⟩
    · have hkept : stage.turns ⊆ passed.turns := by
        rw [hturns]
        exact List.subset_append_left _ _
      rw [stand?_of_ne hstrands h] at hgranted
      exact (hother hgranted).mono hkept

/-- The strand that makes a step need not stand in the line of turns. -/
theorem Orderly.grantsInTurn_advance {stage : Stage} {asked : List String} (horderly : stage.Orderly asked)
    {number : Nat}
    (hothers : ∀ other, number ≠ other → stage.stand? other = some .granted → stage.InTurn other) :
    (stage.advance number).GrantsInTurn := by
  intro other hgranted
  cases hstrand : stage.strands[number]? with
  | none =>
    rw [advance_of_none hstrand] at hgranted ⊢
    refine hothers other ?_ hgranted
    rintro rfl
    simp [stand?, hstrand] at hgranted
  | some strand =>
    obtain ⟨id, hasked, hstepped⟩ := horderly.exists_stepped hstrand
    have hstand := stand?_of_some hstrand
    generalize stage.advance number = after at hstepped hgranted ⊢
    cases hstepped with
    | idle hidle =>
      refine hothers other ?_ hgranted
      rintro rfl
      rw [Option.some.inj (hstand.symm.trans hgranted)] at hidle
      exact hidle.elim Stand.noConfusion fun h ↦ h
    | working next new hin hnext hwork hset hlocks hturns =>
      by_cases h : number = other
      · subst h
        rw [← stand_eq_of_replaced hset hgranted] at hwork
        exact hwork.elim
      · rw [stand?_of_ne hset h] at hgranted
        exact (hothers other h hgranted).mono fun turn hturn ↦
          hturns.mem_iff.mpr (List.mem_append_right new hturn)
    | ended name frame request outcome heq hid hrequest =>
      generalize hpassed :
        ({ stage with locks := stage.locks.release id request } : Stage).grantNext request = passed at hgranted ⊢
      have hne : number ≠ other := by
        rintro rfl
        cases stand_eq_of_replaced rfl hgranted
      rw [stand?_of_ne rfl hne] at hgranted
      have hending : stage.IsEnding number id request := ⟨name, frame, outcome, heq ▸ hstrand, hid, hrequest⟩
      exact horderly.inTurn_grantNext hasked hending hpassed (hothers other hne) hgranted

/-- No turn lets more than three others pass. -/
def IsPatient (stage : Stage) : Prop := ∀ turn ∈ stage.turns, turn.wait ≤ 3

theorem Orderly.isPatient_advance {stage : Stage} {asked : List String} (horderly : stage.Orderly asked)
    (hpatient : stage.IsPatient) (number : Nat) : (stage.advance number).IsPatient := by
  cases hstrand : stage.strands[number]? with
  | none => rwa [advance_of_none hstrand]
  | some strand =>
    obtain ⟨id, hasked, hstepped⟩ := horderly.exists_stepped hstrand
    generalize stage.advance number = after at hstepped ⊢
    cases hstepped with
    | idle _ => exact hpatient
    | working next new _ _ _ _ _ hturns hnew _ =>
      intro turn hturn
      exact (List.mem_append.mp (hturns.mem_iff.mp hturn)).elim (hnew turn) (hpatient turn)
    | ended name frame request outcome heq hid hrequest =>
      generalize hpassed :
        ({ stage with locks := stage.locks.release id request } : Stage).grantNext request = passed
      obtain ⟨-, ⟨-, -, hturns⟩ | ⟨second, -, -, -, -, -, -, -, hturns⟩⟩ :=
        horderly.grantNext_cases hasked ⟨name, frame, outcome, heq ▸ hstrand, hid, hrequest⟩ hpassed
      · intro turn hturn
        exact hpatient turn (hturns ▸ hturn)
      · intro turn hturn
        obtain hturn | hturn := List.mem_append.mp (hturns ▸ hturn)
        · exact hpatient turn hturn
        · rw [List.mem_singleton.mp hturn]
          exact Nat.le_succ 2

/-! ## A new task -/

section Added

variable {stage after : Stage} {asked : List String} {new : Strand} {id : String}

theorem stand?_added (hadd : after.strands = stage.strands ++ [new]) :
    after.stand? stage.strands.length = some new.stand := by
  rw [stand?, hadd, List.getElem?_concat_length]
  rfl

theorem stand?_of_added (hadd : after.strands = stage.strands ++ [new]) {number : Nat}
    (h : number ≠ stage.strands.length) : after.stand? number = stage.stand? number := by
  unfold stand?
  rw [hadd]
  obtain hlt | hge := Nat.lt_or_ge number stage.strands.length
  · rw [List.getElem?_append_left hlt]
  · rw [List.getElem?_eq_none hge, List.getElem?_eq_none]
    rw [List.length_append, List.length_singleton]
    omega

/-- A task that is started from outside any lock asks for its lock; it is let in at once when its request is chained to
none that is not resolved. -/
theorem addStrand_eq (stage : Stage) (name id : String) (body : List Instruction) :
    stage.addStrand name [] id body =
      let request := stage.locks.requests.length
      let frame : Frame := { id, request? := some request, held := [id], rest := body }
      let number := stage.strands.length
      let admitted := (stage.locks.ask id number).isAdmitted request
      { stage with
        strands := stage.strands ++ [⟨name, [frame], if admitted then .granted else .waiting⟩]
        locks := stage.locks.ask id number
        turns := stage.turns ++ if admitted then [⟨number, 1⟩] else [] } := by
  have hset (strand : Strand) :
      (stage.strands ++ [(⟨name, [], .waiting⟩ : Strand)]).set stage.strands.length strand =
        stage.strands ++ [strand] := by
    rw [List.set_append_right _ _ (Nat.le_refl _), Nat.sub_self]
    rfl
  unfold addStrand enterSection setStrand enqueue
  dsimp only
  rw [if_neg (by simp)]
  cases (stage.locks.ask id stage.strands.length).isAdmitted stage.locks.requests.length with
  | true => simp [hset]
  | false => simp [hset]

theorem AllWithin.added {strands : List Strand} (hwithin : AllWithin strands asked)
    (hlength : strands.length = asked.length) (hnew : new.Within id) :
    AllWithin (strands ++ [new]) (asked ++ [id]) := by
  intro number strand found hstrand hfound
  obtain hlt | hge := Nat.lt_or_ge number asked.length
  · rw [List.getElem?_append_left (hlength ▸ hlt)] at hstrand
    rw [List.getElem?_append_left hlt] at hfound
    exact hwithin number strand found hstrand hfound
  · rw [List.getElem?_append_right (hlength ▸ hge), List.getElem?_singleton] at hstrand
    rw [List.getElem?_append_right hge, List.getElem?_singleton] at hfound
    split at hfound
    · split at hstrand
      · obtain rfl : new = strand := Option.some.inj hstrand
        obtain rfl : id = found := Option.some.inj hfound
        exact hnew
      · cases hstrand
    · cases hfound

/-- A task that joins a line is the last in it. -/
theorem Serves.added {tasks line : List Nat} (hserves : stage.Serves tasks line)
    (hold : ∀ task ∈ tasks, after.stand? task = stage.stand? task) {number : Nat}
    (hnumber : after.stand? number = some (if line = [] then .granted else .waiting)) :
    after.Serves (tasks ++ [number]) (line ++ [number]) := by
  obtain ⟨ended, rfl, hended, hhead, htail⟩ := hserves.mono fun task htask ↦ .inl (hold task htask)
  refine ⟨ended, by rw [List.append_assoc], hended, fun task htask ↦ ?_, fun task htask ↦ ?_⟩
  · cases line with
    | nil =>
      obtain rfl : number = task := Option.some.inj htask
      exact ⟨.granted, hnumber, .inl rfl⟩
    | cons first rest => exact hhead task htask
  · cases line with
    | nil => cases htask
    | cons first rest =>
      obtain htask | htask := List.mem_append.mp htask
      · exact htail task htask
      · rw [List.mem_singleton.mp htask]
        exact hnumber

theorem Orderly.added (horderly : stage.Orderly asked) (hadd : after.strands = stage.strands ++ [new])
    (hlocks : after.locks = stage.locks.ask id stage.strands.length) (hnew : new.Within id)
    (hstand : new.stand = if after.locks.isAdmitted stage.locks.requests.length then .granted else .waiting)
    (hguarded : after.Guarded) : after.Orderly (asked ++ [id]) where
  length_eq := by
    rw [hadd, List.length_append, List.length_append, horderly.length_eq]
    rfl
  within := hadd ▸ horderly.within.added horderly.length_eq hnew
  guarded := hguarded
  serves other := by
    have hold (task : Nat) (htask : task ∈ tasksOf asked other) : after.stand? task = stage.stand? task := by
      have hlt := (List.getElem?_eq_some_iff.mp (mem_tasksOf.mp htask)).1
      exact stand?_of_added hadd (Nat.ne_of_lt (horderly.length_eq ▸ hlt))
    rw [hlocks, LockTails.line_ask, tasksOf_append, horderly.length_eq]
    by_cases h : id = other
    · subst h
      rw [if_pos rfl, if_pos rfl]
      refine (horderly.serves id).added hold ?_
      have hadmitted := horderly.guarded.chained.isAdmitted_ask_iff id stage.strands.length
      rw [← horderly.length_eq, stand?_added hadd, hstand, hlocks]
      by_cases hline : stage.locks.line id = []
      · rw [if_pos hline, if_pos (hadmitted.mpr hline)]
      · rw [if_neg hline, if_neg fun htrue ↦ hline (hadmitted.mp htrue)]
    · rw [if_neg h, if_neg h]
      exact (horderly.serves other).mono fun task htask ↦ .inl (hold task htask)

end Added

/-! ## Turns and gates -/

/-- A change of the line of turns and of gates alone. -/
theorem Orderly.of_same {stage after : Stage} {asked : List String} (horderly : stage.Orderly asked)
    (hstrands : after.strands = stage.strands) (hlocks : after.locks = stage.locks) : after.Orderly asked where
  length_eq := hstrands ▸ horderly.length_eq
  within := hstrands ▸ horderly.within
  guarded := (horderly.guarded.of_same hstrands hlocks).guarded
  serves id := by
    rw [hlocks]
    refine (horderly.serves id).mono fun task _ ↦ .inl ?_
    rw [stand?, hstrands]
    rfl

theorem GrantsInTurn.of_same {stage after : Stage} (hgrants : stage.GrantsInTurn)
    (hstrands : after.strands = stage.strands) (hturns : stage.turns ⊆ after.turns) : after.GrantsInTurn := by
  intro number hgranted
  rw [stand?, hstrands] at hgranted
  exact (hgrants number hgranted).mono hturns

section Steps

variable {stage : Stage} {asked : List String}

theorem start_orderly (horderly : stage.Orderly asked) (name : String) {id : String} {body : List Instruction}
    (hbody : BodyKeepsTo id body) : (stage.addStrand name [] id body).Orderly (asked ++ [id]) := by
  have hguarded := (horderly.guarded.addStrand name [] id body).guarded
  rw [addStrand_eq] at hguarded ⊢
  refine horderly.added rfl rfl ?_ rfl hguarded
  split
  · exact .granted name ⟨rfl, rfl, hbody⟩ rfl
  · exact .waiting name ⟨rfl, rfl, hbody⟩ rfl

theorem start_grantsInTurn (hgrants : stage.GrantsInTurn) (name id : String) (body : List Instruction) :
    (stage.addStrand name [] id body).GrantsInTurn := by
  intro number hgranted
  rw [addStrand_eq] at hgranted ⊢
  by_cases h : number = stage.strands.length
  · subst h
    rw [stand?_added rfl] at hgranted
    refine ⟨⟨stage.strands.length, 1⟩, List.mem_append_right _ ?_, rfl⟩
    split
    · exact List.mem_cons_self
    · next hfalse =>
      rw [if_neg hfalse] at hgranted
      cases hgranted
  · rw [stand?_of_added rfl h] at hgranted
    exact (hgrants number hgranted).mono (List.subset_append_left _ _)

theorem passTurn_orderly (horderly : stage.Orderly asked) : stage.passTurn.Orderly asked := by
  unfold passTurn
  split
  · exact horderly
  · next turn rest _ =>
    have hrest : ({ stage with turns := rest } : Stage).Orderly asked := horderly.of_same rfl rfl
    dsimp only
    split
    · exact hrest.advance turn.task
    · exact horderly.of_same rfl rfl

theorem passTurn_grantsInTurn (horderly : stage.Orderly asked) (hgrants : stage.GrantsInTurn) :
    stage.passTurn.GrantsInTurn := by
  unfold passTurn
  split
  · exact hgrants
  · next turn rest hturns =>
    have hrest : ({ stage with turns := rest } : Stage).Orderly asked := horderly.of_same rfl rfl
    dsimp only
    split
    · refine hrest.grantsInTurn_advance fun other hother hgranted ↦ ?_
      obtain ⟨found, hmem, htask⟩ := hgrants other hgranted
      rw [hturns] at hmem
      obtain rfl | hmem := List.mem_cons.mp hmem
      · exact absurd htask hother
      · exact ⟨found, hmem, htask⟩
    · intro number hgranted
      obtain ⟨found, hmem, htask⟩ := hgrants number hgranted
      rw [hturns] at hmem
      obtain rfl | hmem := List.mem_cons.mp hmem
      · exact ⟨found.passed, List.mem_append_right _ List.mem_cons_self, htask⟩
      · exact ⟨found, List.mem_append_left _ hmem, htask⟩

theorem start_isPatient (hpatient : stage.IsPatient) (name id : String) (body : List Instruction) :
    (stage.addStrand name [] id body).IsPatient := by
  rw [addStrand_eq]
  intro turn hturn
  obtain hturn | hturn := List.mem_append.mp hturn
  · exact hpatient turn hturn
  · split at hturn
    · rw [List.mem_singleton.mp hturn]
      exact (by decide : 1 ≤ 3)
    · cases hturn

theorem openGate_isPatient (hpatient : stage.IsPatient) (gate : String) : (stage.openGate gate).IsPatient := by
  intro turn hturn
  obtain hturn | hturn := List.mem_append.mp hturn
  · exact hpatient turn hturn
  · obtain ⟨entry, -, rfl⟩ := List.mem_map.mp hturn
    exact (by decide : 1 ≤ 3)

theorem passTurn_isPatient (horderly : stage.Orderly asked) (hpatient : stage.IsPatient) :
    stage.passTurn.IsPatient := by
  unfold passTurn
  split
  · exact hpatient
  · next turn rest hturns =>
    have hrest : ({ stage with turns := rest } : Stage).Orderly asked := horderly.of_same rfl rfl
    have hpatientRest : ({ stage with turns := rest } : Stage).IsPatient := fun other hother ↦
      hpatient other (hturns ▸ List.mem_cons_of_mem turn hother)
    have hturn := hpatient turn (hturns ▸ List.mem_cons_self)
    dsimp only
    split
    · exact hrest.isPatient_advance hpatientRest turn.task
    · intro other hother
      obtain hother | hother := List.mem_append.mp hother
      · exact hpatientRest other hother
      · rw [List.mem_singleton.mp hother]
        exact Nat.le_trans (Nat.sub_le turn.wait 1) hturn

end Steps

end Stage

end ClusterMembership
