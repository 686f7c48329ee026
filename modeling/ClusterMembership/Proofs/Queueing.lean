import ClusterMembership.Proofs.Completion
import Mathlib.Algebra.BigOperators.Ring.List
import Mathlib.Algebra.Order.BigOperators.Group.List
import Mathlib.Algebra.Order.Ring.Nat

/-!
# Operations that queue for one datanode

Requests for operations on one datanode come in one after another, and their tasks make steps in any order.  The
tasks stand as `Overlap.Serial` says: some have ended, the first that has not is under the lock, and those behind
it wait in the order in which they came.  Only the task under the lock can make a step, and what would come of
completing all tasks in their order stays the same.  A request that comes in adds to it what serving the request
would.
-/

namespace ClusterMembership

/-! ## Where tasks stand -/

/-- A task that is no part of a load. -/
def Task.alone (work : Work) : Task := { work }

@[simp]
theorem Task.work_alone (work : Work) : (Task.alone work).work = work := rfl

namespace Work

def IsSettled (work : Work) : Prop := ∃ outcome, work = .settled outcome

def WaitsFor (id : String) (work : Work) : Prop :=
  ∃ operation : Operation, operation.datanode = id ∧ work = .waiting (.operate operation)

inductive IsUnder (id : String) : Work → Prop
  | granted {operation : Operation} (h : operation.datanode = id) : IsUnder id (.granted (.operate operation))
  | asking (table : Nat) (request : TableRequest) (remainder : Remainder) :
      IsUnder id (.asking table request (.operation id remainder))
  | answered (answer : TableAnswer) (remainder : Remainder) :
      IsUnder id (.answered answer (.operation id remainder))
  | leaving (outcome : Outcome) : IsUnder id (.leaving id outcome)

def stepsLeft : Work → Nat
  | .waiting _ | .granted _ => 4
  | .asking _ _ _ => 3
  | .answered _ _ => 2
  | .leaving _ _ => 1
  | .keeping _ | .resuming _ | .settled _ => 0

/-- The numbers of the tasks that wait, the first task having a given number. -/
def waitingFrom (first : Nat) : List Work → List Nat
  | [] => []
  | .waiting _ :: rest => first :: waitingFrom (first + 1) rest
  | _ :: rest => waitingFrom (first + 1) rest

end Work

/-- A request for an operation on one datanode, if it is for any. -/
def OperationRequest.Concerns (request : OperationRequest) (id : String) : Prop :=
  match request with
  | .register offered _ _ _ | .heartbeat offered _ => ∀ details, Details.ofField offered = .ok details → details.id = id
  | .remove other | .setState other _ _ | .reconcile other _ _ => other = id

namespace Overlap

/-- How the tasks stand at the lock of a datanode. -/
inductive Stands (overlap : Overlap) (id : String) : Prop
  /-- All have ended. -/
  | free (ended : List Work) (tasks : overlap.tasks = ended.map Task.alone)
      (settled : ∀ work ∈ ended, work.IsSettled) (line : overlap.locks.line id = [])
  /-- One is under the lock; those behind it wait, or were refused before they came to the lock. -/
  | busy (ended : List Work) (holding : Work) (behind : List Work)
      (tasks : overlap.tasks = (ended ++ holding :: behind).map Task.alone)
      (settled : ∀ work ∈ ended, work.IsSettled) (holds : holding.IsUnder id)
      (waits : ∀ work ∈ behind, work.IsSettled ∨ work.WaitsFor id)
      (line : overlap.locks.line id = ended.length :: Work.waitingFrom (ended.length + 1) behind)

/-- Tasks that want the lock of one datanode and stand in its line. -/
structure Serial (overlap : Overlap) (id : String) : Prop where
  tidy : overlap.locks.Tidy
  others : ∀ other, other ≠ id → overlap.locks.line other = []
  stands : overlap.Stands id

/-- What comes of completing all tasks in their order. -/
def completeAll (overlap : Overlap) : World × List Outcome :=
  overlap.world.inTurn World.complete (overlap.tasks.map Task.work)

/-- The number of steps that are left of all tasks. -/
def stepsLeft (overlap : Overlap) : Nat := (overlap.tasks.map fun task ↦ task.work.stepsLeft).sum

/-- Tasks that were let make steps in their order: completing all of them comes to the same. -/
structure Continues (before after : Overlap) (id : String) : Prop where
  serial : after.Serial id
  completes : after.completeAll = before.completeAll
  length : after.tasks.length = before.tasks.length
  notMore : after.stepsLeft ≤ before.stepsLeft

/-- Tasks of which one was let make a step under the lock. -/
structure Furthers (before after : Overlap) (id : String) : Prop extends before.Continues after id where
  fewer : after.stepsLeft < before.stepsLeft

end Overlap

/-! ## Lists of tasks -/

theorem map_work_alone (works : List Work) : (works.map Task.alone).map Task.work = works := by
  rw [List.map_map]
  exact List.map_id works

theorem getElem?_alone (ended : List Work) (holding : Work) (behind : List Work) :
    ((ended ++ holding :: behind).map Task.alone)[ended.length]? = some (Task.alone holding) := by
  simp

theorem set_alone (ended : List Work) (holding next : Work) (behind : List Work) :
    ((ended ++ holding :: behind).map Task.alone).set ended.length (Task.alone next) =
      (ended ++ next :: behind).map Task.alone := by
  rw [← List.map_set]
  simp

/-- A task other than the one under the lock has ended or stands behind it. -/
theorem mem_of_getElem?_alone {ended : List Work} {holding : Work} {behind : List Work} {number : Nat}
    {task : Task} (h : ((ended ++ holding :: behind).map Task.alone)[number]? = some task)
    (hother : number ≠ ended.length) : ∃ work, task = .alone work ∧ (work ∈ ended ∨ work ∈ behind) := by
  rw [List.getElem?_map, Option.map_eq_some_iff] at h
  obtain ⟨work, hwork, rfl⟩ := h
  refine ⟨work, rfl, ?_⟩
  obtain hlt | hge := Nat.lt_or_ge number ended.length
  · rw [List.getElem?_append_left hlt] at hwork
    exact .inl (List.mem_of_getElem? hwork)
  · rw [List.getElem?_append_right hge] at hwork
    cases hindex : number - ended.length with
    | zero => omega
    | succ index =>
      rw [hindex, List.getElem?_cons_succ] at hwork
      exact .inr (List.mem_of_getElem? hwork)

namespace Work

variable {id : String}

theorem waitingFrom_append (first : Nat) (works added : List Work) :
    waitingFrom first (works ++ added) = waitingFrom first works ++ waitingFrom (first + works.length) added := by
  induction works generalizing first with
  | nil => rfl
  | cons work rest ih =>
    have hlength : first + 1 + rest.length = first + (rest.length + 1) := by omega
    cases work <;> simp [waitingFrom, ih, hlength]

theorem waitingFrom_of_settled {works : List Work} (h : ∀ work ∈ works, work.IsSettled) (first : Nat) :
    waitingFrom first works = [] := by
  induction works generalizing first with
  | nil => rfl
  | cons work rest ih =>
    obtain ⟨outcome, rfl⟩ := h work List.mem_cons_self
    exact ih (fun other hother ↦ h other (List.mem_cons_of_mem _ hother)) (first + 1)

/-- Of tasks that wait or have ended either all have ended, or there is a first one that waits. -/
theorem exists_first_waiting {works : List Work} (h : ∀ work ∈ works, work.IsSettled ∨ work.WaitsFor id) :
    (∀ work ∈ works, work.IsSettled) ∨ ∃ front operation back,
      works = front ++ .waiting (.operate operation) :: back ∧ (∀ work ∈ front, work.IsSettled) ∧
        operation.datanode = id := by
  induction works with
  | nil => exact .inl (by simp)
  | cons work rest ih =>
    obtain hsettled | ⟨operation, hid, rfl⟩ := h work List.mem_cons_self
    · obtain hall | ⟨front, operation, back, rfl, hfront, hid⟩ :=
        ih fun other hother ↦ h other (List.mem_cons_of_mem _ hother)
      · exact .inl (by simpa using ⟨hsettled, hall⟩)
      · exact .inr ⟨work :: front, operation, back, rfl, by simpa using ⟨hsettled, hfront⟩, hid⟩
    · exact .inr ⟨[], operation, rest, rfl, by simp, hid⟩

end Work

namespace World

/-! ## Completing a list of tasks -/

/-- Work that has ended keeps its outcome and leaves the world as it is. -/
theorem exists_inTurn_settled {works : List Work} (h : ∀ work ∈ works, work.IsSettled) :
    ∃ outcomes, ∀ world : World, world.inTurn complete works = (world, outcomes) := by
  induction works with
  | nil => exact ⟨[], fun _ ↦ rfl⟩
  | cons work rest ih =>
    obtain ⟨outcome, rfl⟩ := h work List.mem_cons_self
    obtain ⟨outcomes, hrest⟩ := ih fun other hother ↦ h other (List.mem_cons_of_mem _ hother)
    refine ⟨outcome :: outcomes, fun world ↦ ?_⟩
    rw [inTurn_cons]
    simp only [complete, hrest]

/-- The work under the lock may be replaced by what is left of it after a step. -/
theorem inTurn_complete_congr {world after : World} {ended : List Work} {holding next : Work}
    (hsettled : ∀ work ∈ ended, work.IsSettled) (h : after.complete next = world.complete holding)
    (behind : List Work) :
    after.inTurn complete (ended ++ next :: behind) = world.inTurn complete (ended ++ holding :: behind) := by
  obtain ⟨outcomes, hended⟩ := exists_inTurn_settled hsettled
  rw [inTurn_append, inTurn_append, hended, hended, inTurn_cons, inTurn_cons, h]

/-- It makes no difference whether work waits for its lock or has been let in. -/
theorem inTurn_complete_granted (world : World) (front : List Work) (operation : Operation) (back : List Work) :
    world.inTurn complete (front ++ .granted (.operate operation) :: back) =
      world.inTurn complete (front ++ .waiting (.operate operation) :: back) := by
  rw [inTurn_append, inTurn_append]
  rfl

/-- Work that has ended has its outcome in its place. -/
theorem getElem?_inTurn_complete {works : List Work} {number : Nat} {outcome : Outcome}
    (h : works[number]? = some (.settled outcome)) (world : World) :
    (world.inTurn complete works).2[number]? = some outcome := by
  induction works generalizing number world with
  | nil => simp at h
  | cons work rest ih =>
    cases number with
    | zero =>
      rw [List.getElem?_cons_zero, Option.some.injEq] at h
      rw [h]
      rfl
    | succ number => exact ih (by simpa using h) _

/-! ## Requests on one datanode -/

/-- A request on a datanode becomes an operation on that datanode. -/
theorem datanode_of_prepare {id : String} {world ready : World} {request : OperationRequest} {operation : Operation}
    (hconcerns : request.Concerns id) (h : world.prepare request = (ready, .ok operation)) :
    operation.datanode = id := by
  cases request with
  | register offered nodeReport pipelineReport layout =>
    unfold prepare at h
    cases hscreened : world.manager.screen offered with
    | mk manager admitted =>
      simp only [hscreened] at h
      cases admitted with
      | error failure => simp [Except.map] at h
      | ok details =>
        obtain ⟨-, rfl⟩ : _ ∧ _ = operation := by simpa [Except.map] using h
        obtain ⟨given, hgiven, hid⟩ := Manager.exists_offered_of_screen hscreened
        exact hid.symm.trans (hconcerns given hgiven)
  | heartbeat offered report =>
    unfold prepare at h
    cases hgiven : Details.ofField offered with
    | error failure => simp [hgiven, Except.map] at h
    | ok details =>
      obtain ⟨-, rfl⟩ : _ ∧ _ = operation := by simpa [hgiven, Except.map] using h
      exact hconcerns details hgiven
  | remove other | setState other state expiry | reconcile other state expiry =>
    obtain ⟨-, rfl⟩ : _ ∧ _ = operation := by simpa [prepare] using h
    exact hconcerns

end World

namespace Overlap

variable {overlap : Overlap} {id : String}

theorem completeAll_eq {works : List Work} (h : overlap.tasks = works.map Task.alone) :
    overlap.completeAll = overlap.world.inTurn World.complete works := by
  rw [completeAll, h, map_work_alone]

theorem stepsLeft_eq {works : List Work} (h : overlap.tasks = works.map Task.alone) :
    overlap.stepsLeft = (works.map Work.stepsLeft).sum := by
  rw [stepsLeft, h, List.map_map]
  rfl

/-! ## Steps -/

theorem advance_of_isSettled {number : Nat} {work : Work} (htask : overlap.tasks[number]? = some (.alone work))
    (h : work.IsSettled) : overlap.advance number = overlap := by
  obtain ⟨outcome, rfl⟩ := h
  unfold advance
  rw [htask]
  rfl

theorem advance_of_waitsFor {number : Nat} {work : Work} (htask : overlap.tasks[number]? = some (.alone work))
    (h : work.WaitsFor id) : overlap.advance number = overlap := by
  obtain ⟨operation, -, rfl⟩ := h
  unfold advance
  rw [htask]
  rfl

theorem advance_of_none {number : Nat} (htask : overlap.tasks[number]? = none) :
    overlap.advance number = overlap := by
  unfold advance
  rw [htask]

/-- A step under a lock goes on with the work, or it leaves the lock. -/
theorem advance_cases {number : Nat} {holding : Work} (hholds : holding.IsUnder id)
    (htask : overlap.tasks[number]? = some (.alone holding)) :
    (∃ world next, next.IsUnder id ∧ overlap.advance number =
        { overlap with world := world, tasks := overlap.tasks.set number (.alone next) } ∧
        world.complete next = overlap.world.complete holding ∧ next.stepsLeft < holding.stepsLeft) ∨
      ∃ outcome, holding = .leaving id outcome ∧
        overlap.advance number = overlap.leaveLock number none id outcome := by
  unfold advance
  rw [htask]
  cases hholds with
  | @granted operation h =>
    left
    have hcomplete : overlap.world.complete (.granted (.operate operation)) = overlap.world.run operation := rfl
    rw [hcomplete]
    simp only [Task.alone, startClaim, h]
    unfold World.run
    cases hstarted : overlap.world.start operation with
    | mk world progress =>
      cases progress with
      | ended outcome =>
        exact ⟨world, .leaving id outcome, .leaving outcome, rfl, rfl, by simp [Work.stepsLeft]⟩
      | asking table request remainder =>
        exact ⟨world, .asking table request (.operation id remainder), .asking table request remainder, rfl,
          rfl, by simp [Work.stepsLeft]⟩
  | asking table request remainder =>
    exact .inl ⟨(overlap.world.ask table request).1,
      .answered (overlap.world.ask table request).2 (.operation id remainder), .answered _ remainder, rfl, rfl,
      by simp [Work.stepsLeft]⟩
  | answered answer remainder =>
    exact .inl ⟨(overlap.world.finish remainder answer).1,
      .leaving id (overlap.world.finish remainder answer).2, .leaving _, rfl, rfl, by simp [Work.stepsLeft]⟩
  | leaving outcome => exact .inr ⟨outcome, rfl, rfl⟩

theorem grantNext_of_line {rest : List Nat} {ended behind : List Work} {operation : Operation}
    (htasks : overlap.tasks = (ended ++ .waiting (.operate operation) :: behind).map Task.alone)
    (hline : overlap.locks.line id = ended.length :: rest) :
    overlap.grantNext id =
      { overlap with tasks := (ended ++ .granted (.operate operation) :: behind).map Task.alone } := by
  have hfirst := getElem?_alone ended (.waiting (.operate operation)) behind
  have hset := set_alone ended (.waiting (.operate operation)) (.granted (.operate operation)) behind
  rw [← htasks] at hfirst hset
  unfold grantNext LockLines.holder?
  rw [hline, List.head?_cons]
  simp only [hfirst, Task.alone, setTask]
  rw [← hset]
  rfl

/-- Once no one is under the lock, the first that waits is let in, if any does. -/
theorem continues_grantNext (htidy : overlap.locks.Tidy) (hothers : ∀ other, other ≠ id → overlap.locks.line other = [])
    {ended behind : List Work} (htasks : overlap.tasks = (ended ++ behind).map Task.alone)
    (hsettled : ∀ work ∈ ended, work.IsSettled) (hwaits : ∀ work ∈ behind, work.IsSettled ∨ work.WaitsFor id)
    (hline : overlap.locks.line id = Work.waitingFrom ended.length behind) :
    overlap.Continues (overlap.grantNext id) id := by
  obtain hall | ⟨front, operation, back, rfl, hfront, hid⟩ := Work.exists_first_waiting hwaits
  · rw [Work.waitingFrom_of_settled hall] at hline
    have hgrant : overlap.grantNext id = overlap := by
      unfold grantNext LockLines.holder?
      rw [hline]
      rfl
    rw [hgrant]
    exact
      { serial := ⟨htidy, hothers, .free _ htasks (List.forall_mem_append.mpr ⟨hsettled, hall⟩) hline⟩
        completes := rfl
        length := rfl
        notMore := Nat.le_refl _ }
  · rw [Work.waitingFrom_append, Work.waitingFrom_of_settled hfront, List.nil_append, Work.waitingFrom,
      ← List.length_append] at hline
    rw [← List.append_assoc] at htasks
    have hended := List.forall_mem_append.mpr ⟨hsettled, hfront⟩
    have hback : ∀ work ∈ back, work.IsSettled ∨ work.WaitsFor id := fun work hwork ↦
      hwaits work (List.mem_append_right _ (List.mem_cons_of_mem _ hwork))
    have hgranted : (overlap.grantNext id).tasks =
        ((ended ++ front) ++ .granted (.operate operation) :: back).map Task.alone := by
      rw [grantNext_of_line htasks hline]
    have hlocks : (overlap.grantNext id).locks = overlap.locks := by rw [grantNext_of_line htasks hline]
    have hworld : (overlap.grantNext id).world = overlap.world := by rw [grantNext_of_line htasks hline]
    exact
      { serial := ⟨hlocks ▸ htidy, hlocks ▸ hothers,
          .busy _ _ back hgranted hended (.granted hid) hback (hlocks ▸ hline)⟩
        completes := by
          rw [completeAll_eq hgranted, completeAll_eq htasks, hworld, World.inTurn_complete_granted]
        length := by
          rw [hgranted, htasks]
          simp
        notMore := by
          rw [stepsLeft_eq hgranted, stepsLeft_eq htasks]
          simp [Work.stepsLeft] }

/-- After the lock was left, no one is under it, or the first that waited. -/
theorem Serial.furthers_leaveLock (h : overlap.Serial id) {ended : List Work} {outcome : Outcome}
    {behind : List Work} (htasks : overlap.tasks = (ended ++ .leaving id outcome :: behind).map Task.alone)
    (hsettled : ∀ work ∈ ended, work.IsSettled)
    (hwaits : ∀ work ∈ behind, work.IsSettled ∨ work.WaitsFor id)
    (hline : overlap.locks.line id = ended.length :: Work.waitingFrom (ended.length + 1) behind) :
    overlap.Furthers (overlap.leaveLock ended.length none id outcome) id := by
  let left : Overlap :=
    { overlap with
      locks := overlap.locks.leave id
      tasks := (ended ++ .settled outcome :: behind).map Task.alone }
  have hleft : overlap.leaveLock ended.length none id outcome = left.grantNext id := by
    have hset := set_alone ended (.leaving id outcome) (.settled outcome) behind
    rw [← htasks] at hset
    exact congrArg (fun tasks ↦ ({ overlap with locks := overlap.locks.leave id, tasks } : Overlap).grantNext id) hset
  have hleftTasks : left.tasks = (ended ++ .settled outcome :: behind).map Task.alone := rfl
  have hleftSplit : left.tasks = ((ended ++ [Work.settled outcome]) ++ behind).map Task.alone := by
    rw [List.append_assoc]
    rfl
  have hleftLine : left.locks.line id = Work.waitingFrom (ended ++ [Work.settled outcome]).length behind := by
    rw [LockLines.line_leave, if_pos rfl, hline, List.tail_cons, List.length_append, List.length_singleton]
  have hleftOthers : ∀ other, other ≠ id → left.locks.line other = [] := fun other hother ↦ by
    rw [LockLines.line_leave, if_neg hother.symm, h.others other hother]
  have hended : ∀ work ∈ ended ++ [Work.settled outcome], work.IsSettled :=
    List.forall_mem_append.mpr ⟨hsettled, List.forall_mem_singleton.mpr ⟨outcome, rfl⟩⟩
  have hcompletes : left.completeAll = overlap.completeAll := by
    have hsame : overlap.world.complete (.settled outcome) = overlap.world.complete (.leaving id outcome) := rfl
    rw [completeAll_eq htasks, completeAll_eq hleftTasks]
    exact World.inTurn_complete_congr hsettled hsame behind
  have hlength : left.tasks.length = overlap.tasks.length := by
    rw [htasks, hleftTasks]
    simp
  have hfewer : left.stepsLeft < overlap.stepsLeft := by
    rw [stepsLeft_eq htasks, stepsLeft_eq hleftTasks]
    simp [Work.stepsLeft]
  have hgranted := continues_grantNext (h.tidy.leave id) hleftOthers hleftSplit hended hwaits hleftLine
  rw [hleft]
  exact
    { serial := hgranted.serial
      completes := hgranted.completes.trans hcompletes
      length := hgranted.length.trans hlength
      notMore := hgranted.notMore.trans (Nat.le_of_lt hfewer)
      fewer := Nat.lt_of_le_of_lt hgranted.notMore hfewer }

/-- After any other step the same task is under the lock, with less of its work left. -/
theorem Serial.furthers_of_next (h : overlap.Serial id) {ended : List Work} {holding next : Work}
    {behind : List Work} {world : World} (htasks : overlap.tasks = (ended ++ holding :: behind).map Task.alone)
    (hsettled : ∀ work ∈ ended, work.IsSettled)
    (hwaits : ∀ work ∈ behind, work.IsSettled ∨ work.WaitsFor id)
    (hline : overlap.locks.line id = ended.length :: Work.waitingFrom (ended.length + 1) behind)
    (hnext : next.IsUnder id) (hcomplete : world.complete next = overlap.world.complete holding)
    (hfewer : next.stepsLeft < holding.stepsLeft) :
    overlap.Furthers
      { overlap with world := world, tasks := overlap.tasks.set ended.length (.alone next) } id := by
  let after : Overlap := { overlap with world := world, tasks := overlap.tasks.set ended.length (.alone next) }
  have hafter : after.tasks = (ended ++ next :: behind).map Task.alone :=
    (congrArg (List.set · ended.length (.alone next)) htasks).trans (set_alone ended holding next behind)
  have hleft : after.stepsLeft < overlap.stepsLeft := by
    rw [stepsLeft_eq hafter, stepsLeft_eq htasks]
    simpa using hfewer
  exact
    { serial := ⟨h.tidy, h.others, .busy ended next behind hafter hsettled hnext hwaits hline⟩
      completes := by
        rw [completeAll_eq hafter, completeAll_eq htasks]
        exact World.inTurn_complete_congr hsettled hcomplete behind
      length := List.length_set
      notMore := Nat.le_of_lt hleft
      fewer := hleft }

/-- Where all tasks have ended, none makes a step. -/
theorem advance_of_settled {ended : List Work} (htasks : overlap.tasks = ended.map Task.alone)
    (hsettled : ∀ work ∈ ended, work.IsSettled) (number : Nat) : overlap.advance number = overlap := by
  cases htask : overlap.tasks[number]? with
  | none => exact advance_of_none htask
  | some task =>
    have hmapped := htask
    rw [htasks, List.getElem?_map, Option.map_eq_some_iff] at hmapped
    obtain ⟨work, hwork, rfl⟩ := hmapped
    exact advance_of_isSettled htask (hsettled work (List.mem_of_getElem? hwork))

/-- Either all tasks have ended, or the one under the lock makes the only step there is. -/
theorem Serial.advance_cases (h : overlap.Serial id) :
    ((∀ task ∈ overlap.tasks, task.work.IsSettled) ∧ ∀ number, overlap.advance number = overlap) ∨
      ∃ holder < overlap.tasks.length, overlap.Furthers (overlap.advance holder) id ∧
        ∀ number, number ≠ holder → overlap.advance number = overlap := by
  obtain ⟨ended, htasks, hsettled, -⟩ | ⟨ended, holding, behind, htasks, hsettled, hholds, hwaits, hline⟩ := h.stands
  · exact .inl ⟨by simpa [htasks] using hsettled, advance_of_settled htasks hsettled⟩
  · have hholder : overlap.tasks[ended.length]? = some (.alone holding) := by
      rw [htasks]
      exact getElem?_alone ended holding behind
    refine .inr ⟨ended.length, (List.getElem?_eq_some_iff.mp hholder).1, ?_, fun number hother ↦ ?_⟩
    · obtain ⟨world, next, hnext, hadvance, hcomplete, hfewer⟩ | ⟨outcome, rfl, hadvance⟩ :=
        Overlap.advance_cases hholds hholder
      · rw [hadvance]
        exact h.furthers_of_next htasks hsettled hwaits hline hnext hcomplete hfewer
      · rw [hadvance]
        exact h.furthers_leaveLock htasks hsettled hwaits hline
    · cases htask : overlap.tasks[number]? with
      | none => exact advance_of_none htask
      | some task =>
        obtain ⟨work, rfl, hended | hbehind⟩ := mem_of_getElem?_alone (htasks ▸ htask) hother
        · exact advance_of_isSettled htask (hsettled work hended)
        · exact (hwaits work hbehind).elim (advance_of_isSettled htask) (advance_of_waitsFor htask)

/-! ## Requests that come in -/

/-- What comes of a task that is added is that of serving its request, once the tasks before it are completed. -/
theorem completeAll_added {request : OperationRequest} {added : Overlap} {work : Work} {entries : List LogEntry}
    (hadded : added.tasks = overlap.tasks ++ [.alone work]) (hworld : added.world = overlap.world.relog entries)
    (hwork : ∀ world : World, world.complete work =
      world.complete (.ofPrepared (overlap.world.prepare request).2)) :
    ∃ rest, added.completeAll =
      ((overlap.completeAll.1.serve request).1.relog rest,
        overlap.completeAll.2 ++ [(overlap.completeAll.1.serve request).2]) := by
  obtain ⟨last, hearlier⟩ := World.exists_relog_inTurn World.exists_relog_complete overlap.world entries
    (overlap.tasks.map Task.work)
  have hclock : overlap.world.clock = overlap.completeAll.1.clock :=
    (World.clock_inTurn World.clock_complete overlap.world _).symm
  obtain ⟨rest, hserved⟩ := World.exists_complete_prepared hclock last request
  refine ⟨rest, ?_⟩
  rw [completeAll, hadded, hworld, List.map_append, World.inTurn_append, hearlier, List.map_singleton,
    World.inTurn_cons, Task.work_alone, hwork]
  rw [completeAll] at hserved ⊢
  rw [hserved]
  rfl

/-- A request for an operation on a datanode is refused, or its task joins the line of the datanode. -/
theorem submit_cases (overlap : Overlap) {request : OperationRequest} (hconcerns : request.Concerns id) :
    ∃ work entries, (overlap.submit request).1.tasks = overlap.tasks ++ [.alone work] ∧
      (overlap.submit request).1.world = overlap.world.relog entries ∧
      (∀ world : World, world.complete work = world.complete (.ofPrepared (overlap.world.prepare request).2)) ∧
      ((work.IsSettled ∧ (overlap.submit request).1.locks = overlap.locks) ∨
        ∃ operation : Operation, operation.datanode = id ∧
          work = (if overlap.locks.isLocked id then .waiting (.operate operation)
            else .granted (.operate operation)) ∧
          (overlap.submit request).1.locks = overlap.locks.join id overlap.tasks.length) := by
  obtain ⟨entries, hlogged⟩ := overlap.world.exists_prepare_fst request
  unfold submit
  cases hprepared : overlap.world.prepare request with
  | mk ready outcome =>
    rw [hprepared] at hlogged
    cases outcome with
    | error failure =>
      exact ⟨.settled (.error failure), entries, rfl, hlogged, fun _ ↦ rfl, .inl ⟨⟨_, rfl⟩, rfl⟩⟩
    | ok operation =>
      have hdatanode : (Claim.operate operation).datanode = id := World.datanode_of_prepare hconcerns hprepared
      have hclaimed : ((overlap.withWorld ready).addClaim (.operate operation)).1 =
          { world := ready
            locks := overlap.locks.join id overlap.tasks.length
            tasks := overlap.tasks ++ [.alone (if overlap.locks.isLocked id then .waiting (.operate operation)
              else .granted (.operate operation))] } := by
        simp only [addClaim, addTask, claim, withWorld, setTask, hdatanode,
          List.set_append_right _ _ (Nat.le_refl _), Nat.sub_self, List.set_cons_zero, Task.alone]
      simp only [hclaimed, and_true]
      refine ⟨_, entries, rfl, hlogged, fun world ↦ ?_, .inr ⟨operation, hdatanode, rfl⟩⟩
      split <;> rfl

/-- A request that comes in is served, as it were, after those before it. -/
theorem Serial.submit (h : overlap.Serial id) {request : OperationRequest} (hconcerns : request.Concerns id) :
    (overlap.submit request).1.Serial id := by
  obtain ⟨work, entries, htasks, -, -, ⟨hrefused, hlocks⟩ | ⟨operation, hid, hwork, hlocks⟩⟩ :=
    overlap.submit_cases hconcerns
  · refine ⟨hlocks ▸ h.tidy, hlocks ▸ h.others, ?_⟩
    obtain ⟨ended, hbefore, hsettled, hline⟩ | ⟨ended, holding, behind, hbefore, hsettled, hholds, hwaits, hline⟩ :=
      h.stands
    · exact .free (ended ++ [work]) (by simp [htasks, hbefore])
        (List.forall_mem_append.mpr ⟨hsettled, List.forall_mem_singleton.mpr hrefused⟩) (hlocks ▸ hline)
    · have hadded : Work.waitingFrom (ended.length + 1 + behind.length) [work] = [] :=
        Work.waitingFrom_of_settled (List.forall_mem_singleton.mpr hrefused) _
      refine .busy ended holding (behind ++ [work]) (by simp [htasks, hbefore]) hsettled hholds
        (List.forall_mem_append.mpr ⟨hwaits, List.forall_mem_singleton.mpr (.inl hrefused)⟩) ?_
      rw [hlocks, hline, Work.waitingFrom_append, hadded, List.append_nil]
  · refine ⟨hlocks ▸ h.tidy.join id _, fun other hother ↦ ?_, ?_⟩
    · rw [hlocks, LockLines.line_join, if_neg hother.symm, h.others other hother]
    · obtain ⟨ended, hbefore, hsettled, hline⟩ | ⟨ended, holding, behind, hbefore, hsettled, hholds, hwaits, hline⟩ :=
        h.stands
      · have hfree : ¬ overlap.locks.isLocked id = true := fun hlocked ↦ (h.tidy id).mp hlocked hline
        rw [if_neg hfree] at hwork
        refine .busy ended work [] (by simp [htasks, hbefore]) hsettled (hwork ▸ .granted hid) (by simp) ?_
        rw [hlocks, LockLines.line_join, if_pos rfl, hline, hbefore, List.length_map]
        rfl
      · have hlocked : overlap.locks.isLocked id = true := (h.tidy id).mpr (by simp [hline])
        rw [if_pos hlocked] at hwork
        refine .busy ended holding (behind ++ [work]) (by simp [htasks, hbefore]) hsettled hholds
          (List.forall_mem_append.mpr ⟨hwaits, List.forall_mem_singleton.mpr (.inr ⟨operation, hid, hwork⟩)⟩) ?_
        have hnumber : overlap.tasks.length = ended.length + 1 + behind.length := by
          simp [hbefore]
          omega
        rw [hlocks, LockLines.line_join, if_pos rfl, hline, Work.waitingFrom_append, hwork, hnumber]
        rfl

end Overlap

end ClusterMembership
