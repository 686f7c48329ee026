import ClusterMembership.Overlap.Task
import ClusterMembership.Proofs.Clock
import ClusterMembership.Proofs.Logging

/-!
# Completing what is under way

Work that is under way can be completed: `World.complete` does at once all that is left of it, and
`World.inTurn` completes the work of several tasks one after another.  A request that has come in and waits for
its lock is completed as it would be served, whatever was done meanwhile, but for the log: while it was prepared
nothing was read but the clock, and the clock stands still.
-/

namespace ClusterMembership

namespace World

/-! ## One after another -/

/-- Act on a world for one item after another, and collect the outcomes. -/
def inTurn {α : Type} (act : World → α → World × Outcome) : World → List α → World × List Outcome
  | world, [] => (world, [])
  | world, item :: rest =>
    let (acted, outcome) := act world item
    let (ended, outcomes) := acted.inTurn act rest
    (ended, outcome :: outcomes)

section InTurn

variable {α : Type} {act : World → α → World × Outcome}

theorem inTurn_cons (world : World) (item : α) (rest : List α) :
    world.inTurn act (item :: rest) =
      (((act world item).1.inTurn act rest).1, (act world item).2 :: ((act world item).1.inTurn act rest).2) :=
  rfl

theorem inTurn_append (world : World) (first second : List α) :
    world.inTurn act (first ++ second) =
      (((world.inTurn act first).1.inTurn act second).1,
        (world.inTurn act first).2 ++ ((world.inTurn act first).1.inTurn act second).2) := by
  induction first generalizing world with
  | nil => rfl
  | cons item rest ih => rw [List.cons_append, inTurn_cons, inTurn_cons, ih, List.cons_append]

/-- Each outcome is that of its item in the world that those before it lead to. -/
theorem getElem?_inTurn {items : List α} {number : Nat} {item : α} (hitem : items[number]? = some item)
    (world : World) :
    (world.inTurn act items).2[number]? = some (act (world.inTurn act (items.take number)).1 item).2 := by
  induction items generalizing number world with
  | nil => simp at hitem
  | cons first rest ih =>
    cases number with
    | zero =>
      rw [List.getElem?_cons_zero, Option.some.injEq] at hitem
      rw [hitem]
      rfl
    | succ number => exact ih (by simpa using hitem) (act world first).1

theorem clock_inTurn (hact : ∀ world item, (act world item).1.clock = world.clock) (world : World)
    (items : List α) : (world.inTurn act items).1.clock = world.clock := by
  induction items generalizing world with
  | nil => rfl
  | cons item rest ih => exact (ih _).trans (hact world item)

theorem exists_relog_inTurn
    (hact : ∀ (world : World) entries item, ∃ rest,
      act (world.relog entries) item = ((act world item).1.relog rest, (act world item).2))
    (world : World) (entries : List LogEntry) (items : List α) :
    ∃ rest, (world.relog entries).inTurn act items =
      ((world.inTurn act items).1.relog rest, (world.inTurn act items).2) := by
  induction items generalizing world entries with
  | nil => exact ⟨entries, rfl⟩
  | cons item items ih =>
    obtain ⟨rest, hacted⟩ := hact world entries item
    obtain ⟨last, hended⟩ := ih (act world item).1 rest
    refine ⟨last, ?_⟩
    rw [inTurn_cons, inTurn_cons, hacted, hended]

end InTurn

/-! ## Requests that come in -/

/-- What comes of a request does not depend on the world it comes in to, but for the clock. -/
theorem prepare_snd {world other : World} (h : other.clock = world.clock) (request : OperationRequest) :
    (other.prepare request).2 = (world.prepare request).2 := by
  cases request with
  | register offered nodeReport pipelineReport layout =>
    have hscreen : (other.manager.screen offered).2 = (world.manager.screen offered).2 := by
      unfold Manager.screen
      split
      · rfl
      · rfl
      · split <;> rfl
    exact congrArg (Except.map _) hscreen
  | heartbeat offered report =>
    unfold prepare
    rw [h]
  | _ => rfl

/-- A request that comes in is logged at most. -/
theorem exists_prepare_fst (world : World) (request : OperationRequest) :
    ∃ entries, (world.prepare request).1 = world.relog entries := by
  cases request with
  | register offered nodeReport pipelineReport layout =>
    have hscreen : ∃ entries, (world.manager.screen offered).1 = world.manager.relog entries := by
      unfold Manager.screen
      split
      · exact ⟨world.manager.trace.entries, rfl⟩
      · exact ⟨world.manager.trace.entries, rfl⟩
      · split
        · exact ⟨world.manager.trace.entries, rfl⟩
        · exact ⟨_, rfl⟩
    obtain ⟨entries, hscreened⟩ := hscreen
    exact ⟨entries, congrArg world.withManager hscreened⟩
  | _ => exact ⟨world.manager.trace.entries, rfl⟩

/-! ## Completing work -/

/-- Do all that is left of the work on an operation. -/
def complete (world : World) : Work → World × Outcome
  | .waiting (.operate operation) | .granted (.operate operation) => world.run operation
  | .asking table request (.operation _ remainder) =>
    let (asked, answer) := world.ask table request
    asked.finish remainder answer
  | .answered answer (.operation _ remainder) => world.finish remainder answer
  | .leaving _ outcome | .settled outcome => (world, outcome)
  | _ => (world, .ok .nothing)

theorem clock_complete (world : World) (work : Work) : (world.complete work).1.clock = world.clock := by
  unfold complete
  split
  · exact world.clock_run _
  · exact world.clock_run _
  · exact (clock_finish _ _ _).trans (world.clock_ask _ _)
  · exact world.clock_finish _ _
  · rfl
  · rfl
  · rfl

theorem exists_relog_complete (world : World) (entries : List LogEntry) (work : Work) :
    ∃ rest, (world.relog entries).complete work =
      ((world.complete work).1.relog rest, (world.complete work).2) := by
  unfold complete
  split
  · exact world.exists_relog_run entries _
  · exact world.exists_relog_run entries _
  · next table request _ remainder =>
    obtain ⟨rest, hasked⟩ := world.exists_relog_ask entries table request
    rw [hasked]
    exact exists_relog_finish _ rest remainder _
  · exact world.exists_relog_finish entries _ _
  · exact ⟨entries, rfl⟩
  · exact ⟨entries, rfl⟩
  · exact ⟨entries, rfl⟩

end World

/-- The work on a request that has come in: one that is refused is settled, any other waits for its lock. -/
def Work.ofPrepared : Except Failure Operation → Work
  | .error failure => .settled (.error failure)
  | .ok operation => .waiting (.operate operation)

namespace World

/-- A request that came in earlier at the same time is completed as if it were served now. -/
theorem exists_complete_prepared {world earlier : World} (hclock : earlier.clock = world.clock)
    (entries : List LogEntry) (request : OperationRequest) :
    ∃ rest, (world.relog entries).complete (.ofPrepared (earlier.prepare request).2) =
      ((world.serve request).1.relog rest, (world.serve request).2) := by
  obtain ⟨prepared, hprepared⟩ := world.exists_prepare_fst request
  rw [prepare_snd hclock]
  unfold serve
  cases hready : world.prepare request with
  | mk ready outcome =>
    rw [hready] at hprepared
    cases outcome with
    | error failure =>
      simp only [Work.ofPrepared, complete]
      exact ⟨entries, by rw [show ready = world.relog prepared from hprepared]; rfl⟩
    | ok operation =>
      obtain ⟨rest, hrun⟩ := world.exists_relog_run entries operation
      obtain ⟨last, hrun'⟩ := world.exists_relog_run prepared operation
      simp only [Work.ofPrepared, complete]
      refine ⟨rest, ?_⟩
      rw [show ready = world.relog prepared from hprepared, hrun, hrun']
      rfl

end World

end ClusterMembership
