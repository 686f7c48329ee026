import ClusterMembership.Proofs.MemoryTable
import ClusterMembership.Proofs.Queueing
import Mathlib.Data.List.Induction

/-!
# Interleavings over many datanodes

Requests, loads and commands come in at any time while the tasks of earlier ones make steps in any order.  What
such an interleaving can do to the state of the service comes down to three kinds of steps: an operation starts
under the lock of its datanode, the table takes up what it asks, and it ends with the answer.  `Overlap.phase` says
how far the operation on a datanode has come, and `Overlap.Advances` is the list of what a step can be; everything
else that tasks do leaves the stores and the phases alone.

This rests on `Overlap.Guarded`: the tasks that want the lock of a datanode are exactly those in its line, each of
them once, and only the first in line is past waiting.
-/

namespace ClusterMembership

/-! ## What happens -/

/-- What can happen to a service with tasks under way. -/
inductive Occurrence where
  /-- A request comes in. -/
  | issue (request : OperationRequest)
  /-- A task makes a step. -/
  | step (task : Nat)
  /-- A command is queued for a datanode. -/
  | queue (id : String) (command : Command)
  /-- A command for a datanode comes in from elsewhere. -/
  | take (id : String) (command : Command)
  /-- The table in use is to be loaded. -/
  | load
  /-- Another table, or none, is to be used and loaded. -/
  | switch (table : Option Nat)
  /-- Time passes, or the clock is set back. -/
  | tick (now : Instant)
  /-- Some later calls of a table are to fail. -/
  | spoil (table : Nat) (faults : List Fault)

namespace Overlap

/-- Let something happen. -/
def meet (overlap : Overlap) : Occurrence → Overlap
  | .issue request => (overlap.submit request).1
  | .step task => overlap.advance task
  | .queue id command => overlap.withWorld (overlap.world.move (.call (.queue id command)))
  | .take id command => overlap.withWorld (overlap.world.move (.call (.take id command)))
  | .load => overlap.submitLoad.1
  | .switch table => (overlap.withWorld (overlap.world.switchTable table)).submitLoad.1
  | .tick now => overlap.withWorld (overlap.world.move (.tick now))
  | .spoil table faults => overlap.withWorld (overlap.world.move (.spoil table faults))

/-- Nothing is under way: every task has ended. -/
def IsAtRest (overlap : Overlap) : Prop := ∀ task ∈ overlap.tasks, task.work.IsSettled

theorem isAtRest_iff (overlap : Overlap) :
    overlap.IsAtRest ↔ overlap.tasks.all (fun task ↦ task.outcome?.isSome) = true := by
  rw [List.all_eq_true]
  refine forall₂_congr fun task _ ↦ ?_
  unfold Work.IsSettled Task.outcome?
  cases task.work <;> simp

instance (overlap : Overlap) : Decidable overlap.IsAtRest := decidable_of_iff' _ overlap.isAtRest_iff

end Overlap

namespace World

/-- Let things happen one after another, with nothing under way at first. -/
def undergo (world : World) (occurrences : List Occurrence) : Overlap := occurrences.foldl Overlap.meet { world }

theorem undergo_append (world : World) (occurrences : List Occurrence) (occurrence : Occurrence) :
    world.undergo (occurrences ++ [occurrence]) = (world.undergo occurrences).meet occurrence := by
  unfold undergo
  rw [List.foldl_append]
  rfl

end World

/-! ## Locks and phases -/

/-- How far the operation under a lock has come. -/
inductive Phase where
  /-- There is none, it has yet to start, or it has ended. -/
  | idle
  /-- It has started and asks something of a table. -/
  | asking (table : Nat) (request : TableRequest) (remainder : Remainder)
  /-- A table has answered. -/
  | answered (answer : TableAnswer) (remainder : Remainder)

/-- The parts of an operation, each of which is done in one step. -/
inductive Operation.Part where
  | start (operation : Operation)
  /-- A table takes up what it asks. -/
  | ask (table : Nat) (request : TableRequest)
  /-- It ends with the answer of the table. -/
  | finish (answer : TableAnswer) (remainder : Remainder)

/-- How far an operation has come with its start. -/
def Progress.phase : Progress Remainder → Phase
  | .ended _ => .idle
  | .asking table request remainder => .asking table request remainder

/-- A claim for an operation that was admitted, or for none. -/
def Claim.IsAdmitted : Claim → Prop
  | .operate operation => operation.Admitted
  | .keep _ _ => True

namespace Work

def lock? : Work → Option String
  | .waiting claim | .granted claim => some claim.datanode
  | .asking _ _ (.operation id _) | .answered _ (.operation id _) => some id
  | .keeping id | .leaving id _ => some id
  | _ => none

/-- Work that waits behind others in the line of a lock. -/
def IsWaiting : Work → Prop
  | .waiting _ => True
  | _ => False

/-- Work that claims nothing but operations that were admitted, and apart from operations only reads. -/
def IsAdmitted : Work → Prop
  | .waiting claim | .granted claim => claim.IsAdmitted
  | .asking _ _ (.operation _ _) => True
  | .asking _ request _ => request.IsReading
  | _ => True

/-- How far the operation of a task has come. -/
def phase : Work → Phase
  | .asking table request (.operation _ remainder) => .asking table request remainder
  | .answered answer (.operation _ remainder) => .answered answer remainder
  | _ => .idle

/-- What a task does once its operation has started. -/
def started (id : String) : Progress Remainder → Work
  | .ended outcome => .leaving id outcome
  | .asking table request remainder => .asking table request (.operation id remainder)

/-- The part of an operation that the next step of a task does. -/
def part? : Work → Option Operation.Part
  | .granted (.operate operation) => some (.start operation)
  | .asking table request (.operation _ _) => some (.ask table request)
  | .answered answer (.operation _ remainder) => some (.finish answer remainder)
  | _ => none

theorem lock?_started (id : String) (progress : Progress Remainder) : (started id progress).lock? = some id := by
  cases progress <;> rfl

theorem phase_started (id : String) (progress : Progress Remainder) :
    (started id progress).phase = progress.phase := by
  cases progress <;> rfl

theorem isAdmitted_started (id : String) (progress : Progress Remainder) : (started id progress).IsAdmitted := by
  cases progress <;> trivial

end Work

namespace World

/-- Turning a request into an operation at most logs. -/
theorem rowsAlike_prepare (world : World) (request : OperationRequest) (table : Nat) :
    world.RowsAlike table (world.prepare request).1 := by
  cases request with
  | register offered nodeReport pipelineReport layout =>
    exact world.rowsAlike_withManager table (world.manager.alike_screen offered)
  | _ => exact .refl world table

/-- A request becomes an operation only when it is admitted. -/
theorem admitted_of_prepare {world ready : World} {request : OperationRequest} {operation : Operation}
    (h : world.prepare request = (ready, .ok operation)) : operation.Admitted := by
  cases request with
  | register offered nodeReport pipelineReport layout =>
    unfold prepare at h
    cases hscreen : world.manager.screen offered with
    | mk manager admitted =>
      simp only [hscreen] at h
      cases admitted with
      | error failure => simp [Except.map] at h
      | ok details =>
        obtain ⟨-, rfl⟩ : _ ∧ _ = operation := by simpa [Except.map] using h
        exact (Manager.kept_of_screen hscreen).2.1
  | heartbeat offered report =>
    unfold prepare at h
    cases hgiven : Details.ofField offered with
    | error failure => simp [hgiven, Except.map] at h
    | ok details =>
      obtain ⟨-, rfl⟩ : _ ∧ _ = operation := by simpa [hgiven, Except.map] using h
      trivial
  | remove id | setState id state expiry | reconcile id state expiry =>
    obtain ⟨-, rfl⟩ : _ ∧ _ = operation := by simpa [prepare] using h
    trivial

end World

namespace Overlap

/-- How far the operation on a datanode has come. -/
def phase (overlap : Overlap) (id : String) : Phase :=
  (((overlap.locks.holder? id).bind overlap.work?).map Work.phase).getD .idle

/-- The tasks that want a lock are those in its line, and only the first is past waiting. -/
structure Guarded (overlap : Overlap) : Prop where
  tidy : overlap.locks.Tidy
  distinct : ∀ id, (overlap.locks.line id).Nodup
  listed : ∀ {id number}, number ∈ overlap.locks.line id →
    ∃ work, overlap.work? number = some work ∧ work.lock? = some id
  lined : ∀ {id number work}, overlap.work? number = some work → work.lock? = some id →
    number ∈ overlap.locks.line id
  first : ∀ {id number work}, overlap.work? number = some work → work.lock? = some id → ¬ work.IsWaiting →
    overlap.locks.holder? id = some number
  admitted : ∀ {number work}, overlap.work? number = some work → work.IsAdmitted

/-- Tasks that have changed places without any operation going on. -/
structure Shuffles (before after : Overlap) : Prop where
  guarded : after.Guarded
  world : after.world = before.world
  phase : ∀ id, after.phase id = before.phase id

variable {overlap : Overlap}

theorem work?_setTask {number : Nat} {old : Work} (hold : overlap.work? number = some old) (task : Task)
    (other : Nat) :
    (overlap.setTask number task).work? other = if number = other then some task.work else overlap.work? other := by
  have hlength : number < overlap.tasks.length := by
    obtain ⟨found, hfound, -⟩ := Option.map_eq_some_iff.mp hold
    exact (List.getElem?_eq_some_iff.mp hfound).1
  unfold work? setTask
  rw [List.getElem?_set, if_pos hlength]
  split <;> rfl

theorem work?_addTask (overlap : Overlap) (work : Work) (number : Nat) :
    (overlap.addTask work).1.work? number =
      if overlap.tasks.length = number then some work else overlap.work? number := by
  unfold work? addTask
  simp only
  split
  · next hlast => rw [← hlast, List.getElem?_concat_length, Option.map_some]
  · next hother =>
    obtain hlt | hge := Nat.lt_or_ge number overlap.tasks.length
    · rw [List.getElem?_append_left hlt]
    · have hbeyond : overlap.tasks.length < number := Nat.lt_of_le_of_ne hge hother
      have hlength : (overlap.tasks ++ [({ work } : Task)]).length ≤ number := by
        rw [List.length_append, List.length_singleton]
        exact hbeyond
      rw [List.getElem?_eq_none hlength, List.getElem?_eq_none hge]

/-- It makes no difference what a task is that is added and then claims a lock. -/
theorem addClaim_eq (overlap : Overlap) (claim : Claim) :
    (overlap.addClaim claim).1 =
      (overlap.addTask (.settled (.ok .nothing))).1.claim overlap.tasks.length none claim := by
  simp only [addClaim, addTask, Overlap.claim, setTask, List.set_append_right _ _ (Nat.le_refl _), Nat.sub_self,
    List.set_cons_zero]
  rfl

theorem phase_eq_of_work? {id : String} {number : Nat} {work : Work}
    (hholder : overlap.locks.holder? id = some number) (hwork : overlap.work? number = some work) :
    overlap.phase id = work.phase := by
  rw [phase, hholder, Option.bind_some, hwork]
  rfl

theorem phase_eq_idle {id : String} (hline : overlap.locks.line id = []) : overlap.phase id = .idle := by
  rw [phase, LockLines.holder?, hline]
  rfl

/-- A phase is the same when the same task comes first and does the same. -/
theorem phase_congr {after : Overlap} {id : String} (hholder : after.locks.holder? id = overlap.locks.holder? id)
    (hwork : ∀ {holder}, overlap.locks.holder? id = some holder → after.work? holder = overlap.work? holder) :
    after.phase id = overlap.phase id := by
  unfold phase
  rw [hholder]
  cases hfirst : overlap.locks.holder? id with
  | none => rfl
  | some holder => rw [Option.bind_some, Option.bind_some, hwork hfirst]

theorem phase_eq_idle_of_holder {id : String}
    (h : ∀ {holder work}, overlap.locks.holder? id = some holder → overlap.work? holder = some work →
      work.phase = .idle) : overlap.phase id = .idle := by
  unfold phase
  cases hfirst : overlap.locks.holder? id with
  | none => rfl
  | some holder =>
    rw [Option.bind_some]
    cases hwork : overlap.work? holder with
    | none => rfl
    | some work => exact h hfirst hwork

theorem phase_setTask {number : Nat} {old : Work} (hold : overlap.work? number = some old) (task : Task)
    (id : String) :
    (overlap.setTask number task).phase id =
      if overlap.locks.holder? id = some number then task.work.phase else overlap.phase id := by
  have hlocks : (overlap.setTask number task).locks = overlap.locks := rfl
  unfold phase
  rw [hlocks]
  cases hholder : overlap.locks.holder? id with
  | none => rfl
  | some holder =>
    rw [Option.bind_some, Option.bind_some, work?_setTask hold]
    by_cases hsame : number = holder
    · rw [if_pos hsame, if_pos (congrArg some hsame.symm)]
      rfl
    · rw [if_neg hsame, if_neg fun h ↦ hsame (Option.some.inj h).symm]

namespace Guarded

theorem mem_line_iff (h : overlap.Guarded) {number : Nat} {work : Work}
    (hwork : overlap.work? number = some work) {id : String} :
    number ∈ overlap.locks.line id ↔ work.lock? = some id := by
  refine ⟨fun hmem ↦ ?_, h.lined hwork⟩
  obtain ⟨found, hfound, hid⟩ := h.listed hmem
  obtain rfl : work = found := Option.some.inj (hwork.symm.trans hfound)
  exact hid

/-- One task changes what it does and its place in the lines; the others keep theirs. -/
theorem of_change (h : overlap.Guarded) {after : Overlap} {number : Nat} {work : Work}
    (hwork : ∀ other, after.work? other = if number = other then some work else overlap.work? other)
    (hadmitted : work.IsAdmitted) (htidy : after.locks.Tidy) (hdistinct : ∀ id, (after.locks.line id).Nodup)
    (hself : ∀ {id}, number ∈ after.locks.line id ↔ work.lock? = some id)
    (hothers : ∀ {id other}, number ≠ other →
      (other ∈ after.locks.line id ↔ other ∈ overlap.locks.line id))
    (hfirst : ∀ {id}, work.lock? = some id → ¬ work.IsWaiting → after.locks.holder? id = some number)
    (hstill : ∀ {id other}, number ≠ other → overlap.locks.holder? id = some other →
      after.locks.holder? id = some other) : after.Guarded where
  tidy := htidy
  distinct := hdistinct
  listed := fun {id other} hmem ↦ by
    rw [hwork]
    split
    · next hsame => exact ⟨work, rfl, hself.mp (hsame ▸ hmem)⟩
    · next hother => exact h.listed ((hothers hother).mp hmem)
  lined := fun {id other found} hfound hlock ↦ by
    rw [hwork] at hfound
    split at hfound
    · next hsame =>
      obtain rfl : work = found := Option.some.inj hfound
      exact hsame ▸ hself.mpr hlock
    · next hother => exact (hothers hother).mpr (h.lined hfound hlock)
  first := fun {id other found} hfound hlock hpast ↦ by
    rw [hwork] at hfound
    split at hfound
    · next hsame =>
      obtain rfl : work = found := Option.some.inj hfound
      exact hsame ▸ hfirst hlock hpast
    · next hother => exact hstill hother (h.first hfound hlock hpast)
  admitted := fun {other found} hfound ↦ by
    rw [hwork] at hfound
    split at hfound
    · obtain rfl : work = found := Option.some.inj hfound
      exact hadmitted
    · exact h.admitted hfound

/-- A task may change what it does as long as it keeps its place in line. -/
theorem setTask (h : overlap.Guarded) {number : Nat} {old : Work} (hold : overlap.work? number = some old)
    {task : Task} (hlock : task.work.lock? = old.lock?)
    (hfirst : ∀ {id}, old.lock? = some id → ¬ task.work.IsWaiting → overlap.locks.holder? id = some number)
    (hadmitted : task.work.IsAdmitted) : (overlap.setTask number task).Guarded := by
  refine h.of_change (work?_setTask hold task) hadmitted h.tidy h.distinct ?_ (fun _ ↦ Iff.rfl) ?_
    fun _ hholder ↦ hholder
  · intro id
    rw [hlock]
    exact h.mem_line_iff hold
  · intro id hid
    exact hfirst (hlock.symm.trans hid)

/-- A task that was past waiting may go on to whatever it does under the same lock. -/
theorem setTask_of_past (h : overlap.Guarded) {number : Nat} {old : Work}
    (hold : overlap.work? number = some old) (hpast : ¬ old.IsWaiting) {task : Task}
    (hlock : task.work.lock? = old.lock?) (hadmitted : task.work.IsAdmitted) :
    (overlap.setTask number task).Guarded :=
  h.setTask hold hlock (fun hid _ ↦ h.first hold hid hpast) hadmitted

/-- A task that is under no lock has no part in any phase. -/
theorem phase_setTask_of_unlocked (h : overlap.Guarded) {number : Nat} {old : Work}
    (hold : overlap.work? number = some old) (hfree : old.lock? = none) (task : Task) (id : String) :
    (overlap.setTask number task).phase id = overlap.phase id := by
  rw [phase_setTask hold, if_neg]
  intro hholder
  have hlock := (h.mem_line_iff hold).mp (List.mem_of_head? hholder)
  simp [hfree] at hlock

/-- A task that is under no lock may go on to other work of this kind. -/
theorem setTask_of_unlocked (h : overlap.Guarded) {number : Nat} {old : Work}
    (hold : overlap.work? number = some old) (hfree : old.lock? = none) {task : Task}
    (hstill : task.work.lock? = none) (hadmitted : task.work.IsAdmitted) :
    overlap.Shuffles (overlap.setTask number task) where
  guarded := h.setTask hold (hstill.trans hfree.symm) (fun hid ↦ by simp [hfree] at hid) hadmitted
  world := rfl
  phase := h.phase_setTask_of_unlocked hold hfree task

/-- A world may be replaced without any task taking notice. -/
theorem withWorld (h : overlap.Guarded) (world : World) : (overlap.withWorld world).Guarded :=
  ⟨h.tidy, h.distinct, h.listed, h.lined, h.first, h.admitted⟩

/-- A task under no lock may be added. -/
theorem addTask (h : overlap.Guarded) {work : Work} (hfree : work.lock? = none) (hadmitted : work.IsAdmitted) :
    overlap.Shuffles (overlap.addTask work).1 := by
  have hwork := overlap.work?_addTask work
  have hnew {id : String} : overlap.tasks.length ∉ overlap.locks.line id := by
    intro hmem
    obtain ⟨found, hfound, -⟩ := h.listed hmem
    simp [work?] at hfound
  refine ⟨h.of_change hwork hadmitted h.tidy h.distinct (iff_of_false hnew (by simp [hfree])) (fun _ ↦ Iff.rfl)
    (fun hid ↦ by simp [hfree] at hid) fun _ hholder ↦ hholder, rfl, fun id ↦ ?_⟩
  refine phase_congr rfl fun {holder} hholder ↦ ?_
  rw [hwork, if_neg]
  rintro rfl
  exact hnew (List.mem_of_head? hholder)

/-! ## Joining and leaving a line -/

/-- A task under no lock may join the line of one. -/
theorem claim (h : overlap.Guarded) {number : Nat} {old : Work} (hold : overlap.work? number = some old)
    (hfree : old.lock? = none) (load : Option SuspendedLoad) {claim : Claim}
    (hadmitted : claim.IsAdmitted) : overlap.Shuffles (overlap.claim number load claim) := by
  have hnew {id : String} : number ∉ overlap.locks.line id := by
    rw [h.mem_line_iff hold, hfree]
    simp
  let work : Work := if overlap.locks.isLocked claim.datanode then .waiting claim else .granted claim
  have hlock : work.lock? = some claim.datanode := by
    unfold work
    split <;> rfl
  have hidle : work.phase = .idle := by
    unfold work
    split <;> rfl
  have hwork (other : Nat) : (overlap.claim number load claim).work? other =
      if number = other then some work else overlap.work? other := work?_setTask hold ⟨load, work⟩ other
  have hline (id : String) : (overlap.claim number load claim).locks.line id =
      if claim.datanode = id then overlap.locks.line id ++ [number] else overlap.locks.line id :=
    LockLines.line_join _ _ _ _
  have hholder {id : String} {holder : Nat} (hfirst : overlap.locks.holder? id = some holder) :
      (overlap.claim number load claim).locks.holder? id = some holder := by
    unfold LockLines.holder? at hfirst ⊢
    rw [hline]
    split
    · rw [List.head?_append, hfirst, Option.some_or]
    · exact hfirst
  refine ⟨h.of_change hwork ?_ (h.tidy.join _ _) (fun id ↦ ?_) (fun {id} ↦ ?_) (fun {id other} hother ↦ ?_)
    (fun {id} hid hpast ↦ ?_) fun _ hfirst ↦ hholder hfirst, rfl, fun id ↦ ?_⟩
  · unfold work
    split <;> exact hadmitted
  · rw [hline]
    split
    · exact List.nodup_append.mpr ⟨h.distinct id, by simp, fun a ha b hb hsame ↦
        hnew ((List.mem_singleton.mp hb).symm ▸ hsame ▸ ha)⟩
    · exact h.distinct id
  · rw [hline, hlock, Option.some.injEq]
    split
    · next hid => simp [hid]
    · next hid => exact iff_of_false hnew hid
  · rw [hline]
    split
    · simp [hother.symm]
    · rfl
  · -- The task is past waiting only when no one stood in the line.
    have hunlocked : ¬ overlap.locks.isLocked claim.datanode = true := by
      intro hlocked
      apply hpast
      unfold work
      rw [if_pos hlocked]
      trivial
    have hempty : overlap.locks.line claim.datanode = [] := Decidable.byContradiction fun hline ↦
      hunlocked ((h.tidy _).mpr hline)
    obtain rfl : claim.datanode = id := Option.some.inj (hlock.symm.trans hid)
    rw [LockLines.holder?, hline, if_pos rfl, hempty]
    rfl
  · cases hfirst : overlap.locks.holder? id with
    | some holder =>
      refine phase_congr (hholder hfirst |>.trans hfirst.symm) fun {other} hother ↦ ?_
      rw [hwork, if_neg]
      rintro rfl
      exact hnew (List.mem_of_head? hother)
    | none =>
      have hempty : overlap.locks.line id = [] := List.head?_eq_none_iff.mp hfirst
      rw [phase_eq_idle hempty]
      refine phase_eq_idle_of_holder fun {other found} hother hfound ↦ ?_
      have hmem := List.mem_of_head? hother
      rw [hline, hempty] at hmem
      split at hmem
      · rw [List.mem_singleton.mp hmem, hwork, if_pos rfl] at hfound
        exact Option.some.inj hfound ▸ hidle
      · simp at hmem

/-- A task that is added and joins the line of a lock. -/
theorem addClaim (h : overlap.Guarded) {claim : Claim} (hadmitted : claim.IsAdmitted) :
    overlap.Shuffles (overlap.addClaim claim).1 := by
  have hadded : overlap.Shuffles (overlap.addTask (.settled (.ok .nothing))).1 := h.addTask rfl trivial
  have hwork := overlap.work?_addTask (.settled (.ok .nothing)) overlap.tasks.length
  rw [if_pos rfl] at hwork
  have hclaimed := hadded.guarded.claim hwork rfl none hadmitted
  rw [addClaim_eq]
  exact ⟨hclaimed.guarded, hclaimed.world.trans hadded.world, fun id ↦
    (hclaimed.phase id).trans (hadded.phase id)⟩

/-- The first in a line is let in. -/
theorem grantNext (h : overlap.Guarded) (id : String) : overlap.Shuffles (overlap.grantNext id) := by
  have hsame : overlap.Shuffles overlap := ⟨h, rfl, fun _ ↦ rfl⟩
  unfold Overlap.grantNext
  cases hholder : overlap.locks.holder? id with
  | none => exact hsame
  | some number =>
    simp only
    split
    · next load claim htask =>
      have hold : overlap.work? number = some (.waiting claim) := by
        rw [work?, htask, Option.map_some]
      have hadmitted : claim.IsAdmitted := h.admitted hold
      obtain ⟨work, hwork, hid⟩ := h.listed (List.mem_of_head? hholder)
      obtain rfl : .waiting claim = work := Option.some.inj (hold.symm.trans hwork)
      refine ⟨h.setTask hold rfl (fun {other} hother _ ↦ ?_) hadmitted, rfl, fun other ↦ ?_⟩
      · obtain rfl : id = other := Option.some.inj (hid.symm.trans hother)
        exact hholder
      · rw [phase_setTask hold]
        split
        · next hfirst => exact (phase_eq_of_work? hfirst hold).symm
        · rfl
    · exact hsame

/-- A task that is done leaves the lock to the next in line. -/
theorem leaveLock (h : overlap.Guarded) {number : Nat} {load : Option SuspendedLoad} {id : String}
    {outcome : Outcome} (hold : overlap.work? number = some (.leaving id outcome)) :
    overlap.Shuffles (overlap.leaveLock number load id outcome) := by
  let task : Task := { load, work := if load.isSome then .resuming outcome else .settled outcome }
  let left : Overlap := { overlap.setTask number task with locks := overlap.locks.leave id }
  have hfree : task.work.lock? = none := by
    simp only [task]
    split <;> rfl
  have hadmitted : task.work.IsAdmitted := by
    simp only [task]
    split <;> trivial
  have hwork (other : Nat) : left.work? other =
      if number = other then some task.work else overlap.work? other := work?_setTask hold task other
  have hholder : overlap.locks.holder? id = some number := h.first hold rfl fun hwaiting ↦ hwaiting
  obtain ⟨rest, hline⟩ : ∃ rest, overlap.locks.line id = number :: rest := List.head?_eq_some_iff.mp hholder
  have hdistinct : (number :: rest).Nodup := hline ▸ h.distinct id
  have hleft (other : String) : left.locks.line other =
      if id = other then rest else overlap.locks.line other := by
    refine (LockLines.line_leave overlap.locks id other).trans ?_
    split
    · next hsame => rw [← hsame, hline, List.tail_cons]
    · rfl
  have hkept {other : String} (hother : id ≠ other) : left.locks.holder? other = overlap.locks.holder? other := by
    rw [LockLines.holder?, hleft, if_neg hother, LockLines.holder?]
  have hgone {other : String} : number ∉ left.locks.line other := by
    rw [hleft]
    split
    · exact (List.nodup_cons.mp hdistinct).1
    · next hother =>
      rw [h.mem_line_iff hold]
      exact fun hlock ↦ hother (Option.some.inj hlock)
  have hothers {other : String} {member : Nat} (hdifferent : number ≠ member) :
      member ∈ left.locks.line other ↔ member ∈ overlap.locks.line other := by
    rw [hleft]
    split
    · next hsame => simp [← hsame, hline, hdifferent.symm]
    · rfl
  have hguarded : left.Guarded := by
    refine h.of_change hwork hadmitted (h.tidy.leave id) (fun other ↦ ?_) (iff_of_false hgone (by simp [hfree]))
      hothers (fun hlock ↦ by simp [hfree] at hlock) fun {other member} hdifferent hfirst ↦ ?_
    · rw [hleft]
      split
      · exact (List.nodup_cons.mp hdistinct).2
      · exact h.distinct other
    · rw [hkept, hfirst]
      rintro rfl
      exact hdifferent (Option.some.inj (hholder.symm.trans hfirst))
  have hphase (other : String) : left.phase other = overlap.phase other := by
    by_cases hsame : id = other
    · subst hsame
      rw [phase_eq_of_work? hholder hold]
      -- Whoever comes next was not first in line, and was waiting.
      refine phase_eq_idle_of_holder fun {next work} hnext hfound ↦ ?_
      have hmem := List.mem_of_head? hnext
      have hdifferent : number ≠ next := fun hsame ↦ hgone (hsame ▸ hmem)
      rw [hwork, if_neg hdifferent] at hfound
      have hlock := (h.mem_line_iff hfound).mp ((hothers hdifferent).mp hmem)
      cases work with
      | waiting claim => rfl
      | _ =>
        have hfirst := h.first hfound hlock fun hwaiting ↦ hwaiting
        exact absurd (Option.some.inj (hholder.symm.trans hfirst)) hdifferent
    · refine phase_congr (hkept hsame) fun {holder} hfirst ↦ ?_
      rw [hwork, if_neg]
      rintro rfl
      exact hsame (Option.some.inj ((h.mem_line_iff hold).mp (List.mem_of_head? hfirst)))
  have hgranted : left.Shuffles (overlap.leaveLock number load id outcome) := hguarded.grantNext id
  exact ⟨hgranted.guarded, hgranted.world, fun other ↦ (hgranted.phase other).trans (hphase other)⟩

end Guarded

/-! ## Steps -/

/-- An operation is started, and the task goes on with what has come of that. -/
theorem startClaim_operate (overlap : Overlap) (number : Nat) (load : Option SuspendedLoad)
    (operation : Operation) :
    overlap.startClaim number load (.operate operation) =
      (overlap.withWorld (overlap.world.start operation).1).setTask number
        ⟨load, .started operation.datanode (overlap.world.start operation).2⟩ := by
  simp only [startClaim]
  cases overlap.world.start operation with
  | mk world progress => cases progress <;> rfl

/-- The part of an operation that is done with an occurrence. -/
def part? (overlap : Overlap) : Occurrence → Option Operation.Part
  | .step number => (overlap.work? number).bind Work.part?
  | _ => none

theorem part?_eq {number : Nat} {work : Work} (hwork : overlap.work? number = some work)
    {part : Option Operation.Part} (hpart : work.part? = part) : overlap.part? (.step number) = part := by
  rw [part?, hwork, Option.bind_some, hpart]

/-- What a step of a task can be. -/
inductive Advances (before : Overlap) (number : Nat) (after : Overlap) : Prop
  /-- It is no part of an operation, and nothing is stored. -/
  | passes (hpart : before.part? (.step number) = none)
      (hworld : ∀ table, before.world.RowsAlike table after.world)
      (hphase : ∀ id, after.phase id = before.phase id)
  /-- An operation starts. -/
  | starts {operation : Operation} (hpart : before.part? (.step number) = some (.start operation))
      (hadmitted : operation.Admitted) (hidle : before.phase operation.datanode = .idle)
      (hworld : after.world = (before.world.start operation).1)
      (hphase : ∀ id, after.phase id =
        if operation.datanode = id then (before.world.start operation).2.phase else before.phase id)
  /-- A table takes up what an operation asks. -/
  | asks {table : Nat} {request : TableRequest} {id : String} {remainder : Remainder}
      (hpart : before.part? (.step number) = some (.ask table request))
      (hbefore : before.phase id = .asking table request remainder)
      (hworld : after.world = (before.world.ask table request).1)
      (hphase : ∀ other, after.phase other =
        if id = other then .answered (before.world.ask table request).2 remainder else before.phase other)
  /-- An operation ends. -/
  | ends {answer : TableAnswer} {id : String} {remainder : Remainder}
      (hpart : before.part? (.step number) = some (.finish answer remainder))
      (hbefore : before.phase id = .answered answer remainder)
      (hworld : after.world = (before.world.finish remainder answer).1)
      (hphase : ∀ other, after.phase other = if id = other then .idle else before.phase other)

namespace Guarded

/-- A task past waiting is what the phase of its datanode tells of. -/
theorem phase_setTask_of_past (h : overlap.Guarded) {number : Nat} {old : Work}
    (hold : overlap.work? number = some old) (hpast : ¬ old.IsWaiting) {id : String}
    (hlock : old.lock? = some id) (task : Task) (other : String) :
    (overlap.setTask number task).phase other = if id = other then task.work.phase else overlap.phase other := by
  rw [phase_setTask hold]
  by_cases hsame : id = other
  · rw [if_pos hsame, if_pos (hsame ▸ h.first hold hlock hpast)]
  · rw [if_neg hsame, if_neg]
    intro hholder
    obtain ⟨work, hwork, hother⟩ := h.listed (List.mem_of_head? hholder)
    obtain rfl : old = work := Option.some.inj (hold.symm.trans hwork)
    exact hsame (Option.some.inj (hlock.symm.trans hother))

theorem phase_of_past (h : overlap.Guarded) {number : Nat} {work : Work}
    (hwork : overlap.work? number = some work) (hpast : ¬ work.IsWaiting) {id : String}
    (hlock : work.lock? = some id) : overlap.phase id = work.phase :=
  phase_eq_of_work? (h.first hwork hlock hpast) hwork

/-- A step that only shuffles tasks, after the world has been looked at or logged to. -/
theorem advances_of_shuffles {number : Nat} {old : Work} (hold : overlap.work? number = some old)
    (hplain : old.part? = none) {world : World} {after : Overlap}
    (hshuffles : (overlap.withWorld world).Shuffles after)
    (hworld : ∀ table, overlap.world.RowsAlike table world) :
    after.Guarded ∧ overlap.Advances number after := by
  refine ⟨hshuffles.guarded, .passes ?_ (fun table ↦ ?_) hshuffles.phase⟩
  · exact part?_eq hold hplain
  · rw [hshuffles.world]
    exact hworld table

/-- A task that keeps its lock without an operation shuffles along. -/
theorem shuffles_setTask_of_idle (h : overlap.Guarded) {number : Nat} {old : Work}
    (hold : overlap.work? number = some old) (hpast : ¬ old.IsWaiting) {task : Task}
    (hlock : task.work.lock? = old.lock?) (hadmitted : task.work.IsAdmitted) (hidle : old.phase = .idle)
    (hstill : task.work.phase = .idle) : overlap.Shuffles (overlap.setTask number task) where
  guarded := h.setTask_of_past hold hpast hlock hadmitted
  world := rfl
  phase id := by
    rw [phase_setTask hold]
    split
    · next hholder => rw [hstill, phase_eq_of_work? hholder hold, hidle]
    · rfl

/-- A task that is let in starts its operation, or keeps the lock. -/
theorem startClaim (h : overlap.Guarded) {number : Nat} {load : Option SuspendedLoad} {claim : Claim}
    (hold : overlap.work? number = some (.granted claim)) :
    (overlap.startClaim number load claim).Guarded ∧
      overlap.Advances number (overlap.startClaim number load claim) := by
  have hpast : ¬ (Work.granted claim).IsWaiting := fun hwaiting ↦ hwaiting
  have hsame (table : Nat) : overlap.world.RowsAlike table overlap.world := .refl overlap.world table
  cases claim with
  | keep id told =>
    cases told with
    | none =>
      exact advances_of_shuffles hold rfl
        (h.shuffles_setTask_of_idle hold hpast rfl trivial rfl rfl) hsame
    | some outcome =>
      exact advances_of_shuffles hold rfl
        (h.shuffles_setTask_of_idle hold hpast rfl trivial rfl rfl) hsame
  | operate operation =>
    let world := (overlap.world.start operation).1
    let task : Task := ⟨load, .started operation.datanode (overlap.world.start operation).2⟩
    have hstarted : overlap.startClaim number load (.operate operation) =
        (overlap.withWorld world).setTask number task := overlap.startClaim_operate number load operation
    have hheld : (overlap.withWorld world).work? number = some (.granted (.operate operation)) := hold
    have hphase (id : String) : ((overlap.withWorld world).setTask number task).phase id =
        if operation.datanode = id then (overlap.world.start operation).2.phase else overlap.phase id := by
      rw [← Work.phase_started operation.datanode]
      exact (h.withWorld world).phase_setTask_of_past hheld hpast rfl task id
    rw [hstarted]
    exact ⟨(h.withWorld world).setTask_of_past hheld hpast (Work.lock?_started _ _) (Work.isAdmitted_started _ _),
      .starts (part?_eq hold rfl) (h.admitted hold) (h.phase_of_past hold hpast rfl) rfl hphase⟩

/-- A load goes on to its next registration, which was admitted, or closes its iterator. -/
theorem continueLoad (h : overlap.Guarded) {number : Nat} {old : Work}
    (hold : overlap.work? number = some old) (hfree : old.lock? = none) (loading : Loading) {step : LoadStep}
    (hadmitted : ∀ entry operation, step = .register entry operation → operation.Admitted) :
    overlap.Shuffles (overlap.continueLoad number loading step) := by
  cases step with
  | register entry operation =>
    exact h.claim hold hfree _ (hadmitted entry operation rfl : (Claim.operate operation).IsAdmitted)
  | close => exact h.setTask_of_unlocked hold hfree rfl trivial

/-- A task that goes on with an answer ends its operation, or goes on reading. -/
theorem takeAnswer (h : overlap.Guarded) {number : Nat} {load : Option SuspendedLoad} {answer : TableAnswer}
    {continuation : Continuation} (hold : overlap.work? number = some (.answered answer continuation)) :
    (overlap.takeAnswer number load answer continuation).Guarded ∧
      overlap.Advances number (overlap.takeAnswer number load answer continuation) := by
  have hheld (world : World) : (overlap.withWorld world).work? number = some (.answered answer continuation) :=
    hold
  have hclosed (table : Nat) : overlap.world.RowsAlike table
      (overlap.world.mapManager fun manager ↦ manager.takeClosed answer) :=
    overlap.world.rowsAlike_withManager table (Manager.noted_takeClosed _ answer).alike
  cases continuation with
  | operation id remainder =>
    have hpast : ¬ (Work.answered answer (.operation id remainder)).IsWaiting := fun hwaiting ↦ hwaiting
    have hguarded := h.withWorld (overlap.world.finish remainder answer).1
    exact ⟨hguarded.setTask_of_past (hheld _) hpast rfl trivial,
      .ends (part?_eq hold rfl) (h.phase_of_past hold hpast rfl) rfl
        (hguarded.phase_setTask_of_past (hheld _) hpast rfl _)⟩
  | nextEntry loading =>
    refine advances_of_shuffles hold rfl ((h.withWorld _).continueLoad (hheld _) rfl loading ?_)
      fun table ↦ overlap.world.rowsAlike_withManager table (Manager.noted_takeEntry _ loading.loaded answer).alike
    intro entry operation hstep
    have htaken : overlap.world.manager.takeEntry loading.loaded answer =
        ((overlap.world.manager.takeEntry loading.loaded answer).1, .register entry operation) :=
      Prod.ext rfl hstep
    obtain ⟨stored, details, -, -, -, hscreen, rfl⟩ := Manager.takeEntry_register htaken
    exact (Manager.kept_of_screen hscreen).2.1
  | closedAfterLoad loaded =>
    exact advances_of_shuffles hold rfl
      ((h.withWorld _).setTask_of_unlocked (hheld _) rfl rfl trivial) hclosed
  | countEntry counting =>
    have hreads (task : Task) (hfree : task.work.lock? = none) (hadmitted : task.work.IsAdmitted) :
        (overlap.setTask number task).Guarded ∧ overlap.Advances number (overlap.setTask number task) :=
      advances_of_shuffles hold rfl (h.setTask_of_unlocked hold rfl hfree hadmitted)
        fun table ↦ .refl overlap.world table
    unfold Overlap.takeAnswer
    simp only
    split <;> exact hreads _ rfl trivial
  | closedAfterCount outcome =>
    exact advances_of_shuffles hold rfl
      ((h.withWorld _).setTask_of_unlocked (hheld _) rfl rfl trivial) hclosed

/-- A load whose entry was registered goes on reading, or closes its iterator. -/
theorem resumeLoad (h : overlap.Guarded) {number : Nat} (load : SuspendedLoad) {outcome : Outcome}
    (hold : overlap.work? number = some (.resuming outcome)) :
    (overlap.resumeLoad number load outcome).Guarded ∧
      overlap.Advances number (overlap.resumeLoad number load outcome) := by
  have hheld (world : World) : (overlap.withWorld world).work? number = some (.resuming outcome) := hold
  have halike := (overlap.world.manager.noted_takeRegistered load.entry load.loading.loaded outcome).alike
  unfold Overlap.resumeLoad
  simp only
  split
  · next manager htaken =>
    rw [htaken] at halike
    exact advances_of_shuffles hold rfl
      ((h.withWorld _).continueLoad (hheld _) rfl load.loading (fun _ _ hstep ↦ by simp at hstep))
      fun table ↦ overlap.world.rowsAlike_withManager table halike
  · next manager loaded htaken =>
    rw [htaken] at halike
    exact advances_of_shuffles hold rfl ((h.withWorld _).setTask_of_unlocked (hheld _) rfl rfl trivial)
      fun table ↦ overlap.world.rowsAlike_withManager table halike

/-- A request is taken up: it is one of an operation, or one of a load or a count, which writes nothing. -/
theorem takeUp (h : overlap.Guarded) {number table : Nat} {load : Option SuspendedLoad} {request : TableRequest}
    {continuation : Continuation} (hold : overlap.work? number = some (.asking table request continuation))
    {world : World} {answer : TableAnswer} (hask : overlap.world.ask table request = (world, answer)) :
    ((overlap.withWorld world).setTask number ⟨load, .answered answer continuation⟩).Guarded ∧
      overlap.Advances number ((overlap.withWorld world).setTask number ⟨load, .answered answer continuation⟩) := by
  have hheld : (overlap.withWorld world).work? number = some (.asking table request continuation) := hold
  have hreads (hplain : (Work.asking table request continuation).part? = none) (hreading : request.IsReading)
      (hfree : (Work.asking table request continuation).lock? = none)
      (hstill : (Work.answered answer continuation).lock? = none) :
      ((overlap.withWorld world).setTask number ⟨load, .answered answer continuation⟩).Guarded ∧
        overlap.Advances number
          ((overlap.withWorld world).setTask number ⟨load, .answered answer continuation⟩) := by
    refine advances_of_shuffles hold hplain ((h.withWorld world).setTask_of_unlocked hheld hfree hstill trivial)
      fun number ↦ ?_
    have hread := overlap.world.rowsAlike_ask number table hreading
    rwa [hask] at hread
  cases continuation with
  | operation id remainder =>
    have hpast : ¬ (Work.asking table request (.operation id remainder)).IsWaiting := fun hwaiting ↦ hwaiting
    have hphase := (h.withWorld world).phase_setTask_of_past hheld hpast rfl
      ⟨load, .answered answer (.operation id remainder)⟩
    refine ⟨(h.withWorld world).setTask_of_past hheld hpast rfl trivial,
      .asks (part?_eq hold rfl) (h.phase_of_past hold hpast rfl) (by rw [hask]; rfl) ?_⟩
    rw [hask]
    exact hphase
  | nextEntry loading => exact hreads rfl (h.admitted hold) rfl rfl
  | closedAfterLoad loaded => exact hreads rfl (h.admitted hold) rfl rfl
  | countEntry counting => exact hreads rfl (h.admitted hold) rfl rfl
  | closedAfterCount outcome => exact hreads rfl (h.admitted hold) rfl rfl

/-- Every step keeps the locks guarded and is one of those that a step can be. -/
theorem advance (h : overlap.Guarded) (number : Nat) :
    (overlap.advance number).Guarded ∧ overlap.Advances number (overlap.advance number) := by
  have hsame (table : Nat) : overlap.world.RowsAlike table overlap.world := .refl overlap.world table
  have hshuffles : (overlap.withWorld overlap.world).Shuffles overlap := ⟨h, rfl, fun _ ↦ rfl⟩
  unfold Overlap.advance
  cases htask : overlap.tasks[number]? with
  | none =>
    have hnone : overlap.work? number = none := by rw [work?, htask, Option.map_none]
    exact ⟨h, .passes (by rw [part?, hnone, Option.bind_none]) hsame fun _ ↦ rfl⟩
  | some task =>
    obtain ⟨load, work⟩ := task
    have hold : overlap.work? number = some work := by rw [work?, htask, Option.map_some]
    cases work with
    | waiting claim => exact advances_of_shuffles hold rfl hshuffles hsame
    | keeping id => exact advances_of_shuffles hold rfl hshuffles hsame
    | settled outcome => exact advances_of_shuffles hold rfl hshuffles hsame
    | granted claim => exact h.startClaim hold
    | asking table request continuation => exact h.takeUp hold rfl
    | answered answer continuation => exact h.takeAnswer hold
    | leaving id outcome => exact advances_of_shuffles hold rfl (h.leaveLock hold) hsame
    | resuming outcome =>
      cases load with
      | some load => exact h.resumeLoad load hold
      | none => exact advances_of_shuffles hold rfl (h.setTask_of_unlocked hold rfl rfl trivial) hsame

/-! ## Requests and loads that come in -/

/-- A request that comes in is refused, or its task joins the line of its datanode. -/
theorem submit (h : overlap.Guarded) (request : OperationRequest) :
    (overlap.submit request).1.Guarded ∧
      (∀ table, overlap.world.RowsAlike table (overlap.submit request).1.world) ∧
      ∀ id, (overlap.submit request).1.phase id = overlap.phase id := by
  have hprepared := overlap.world.rowsAlike_prepare request
  unfold Overlap.submit
  cases hprepare : overlap.world.prepare request with
  | mk world outcome =>
    rw [hprepare] at hprepared
    cases outcome with
    | error failure =>
      have hadded : (overlap.withWorld world).Shuffles
          ((overlap.withWorld world).addTask (.settled (.error failure))).1 :=
        (h.withWorld world).addTask rfl trivial
      exact ⟨hadded.guarded, hadded.world.symm ▸ hprepared, hadded.phase⟩
    | ok operation =>
      have hadmitted : (Claim.operate operation).IsAdmitted := World.admitted_of_prepare hprepare
      have hclaimed := (h.withWorld world).addClaim hadmitted
      exact ⟨hclaimed.guarded, hclaimed.world.symm ▸ hprepared, hclaimed.phase⟩

/-- A load that comes in opens an iterator, unless it ends at once. -/
theorem submitLoad (h : overlap.Guarded) :
    overlap.submitLoad.1.Guarded ∧ (∀ table, overlap.world.RowsAlike table overlap.submitLoad.1.world) ∧
      ∀ id, overlap.submitLoad.1.phase id = overlap.phase id := by
  unfold Overlap.submitLoad Overlap.submitReading
  cases htable : overlap.world.manager.table with
  | none =>
    have hadded : overlap.Shuffles (overlap.addTask (.settled (.ok (.count 0)))).1 := h.addTask rfl trivial
    exact ⟨hadded.guarded, fun table ↦ hadded.world.symm ▸ .refl overlap.world table, hadded.phase⟩
  | some table =>
    have hopened (number : Nat) := overlap.world.rowsAlike_iterate number table
    simp only
    cases hiterate : overlap.world.iterate table with
    | mk world outcome =>
      rw [hiterate] at hopened
      cases outcome with
      | error failure =>
        have hadded : (overlap.withWorld world).Shuffles
            ((overlap.withWorld world).addTask (.settled (.error failure))).1 :=
          (h.withWorld world).addTask rfl trivial
        exact ⟨hadded.guarded, hadded.world.symm ▸ hopened, hadded.phase⟩
      | ok iterator =>
        have hadded : (overlap.withWorld world).Shuffles ((overlap.withWorld world).addTask
            (.asking table (.next iterator) (.nextEntry ⟨table, iterator, 0⟩))).1 :=
          (h.withWorld world).addTask rfl trivial
        exact ⟨hadded.guarded, hadded.world.symm ▸ hopened, hadded.phase⟩

end Guarded

end Overlap

/-! ## Everything that happens -/

namespace World

/-- What happens to the service at once, apart from the iterator that a load opens and what is logged. -/
def affected (world : World) : Occurrence → World
  | .issue _ | .step _ | .load => world
  | .queue id command => world.move (.call (.queue id command))
  | .take id command => world.move (.call (.take id command))
  | .switch table => world.switchTable table
  | .tick now => world.move (.tick now)
  | .spoil table faults => world.move (.spoil table faults)

/-- Apart from a switch of the table, what happens besides the steps of tasks tends the manager. -/
theorem tended_affected (world : World) {occurrence : Occurrence} (hswitch : ∀ table, occurrence ≠ .switch table) :
    world.manager.Tended (world.affected occurrence).manager := by
  cases occurrence with
  | issue request => exact .refl world.manager
  | step number => exact .refl world.manager
  | load => exact .refl world.manager
  | switch table => exact absurd rfl (hswitch table)
  | spoil table faults => exact .refl world.manager
  | tick now =>
    have halike : world.manager.Alike (world.setClock now).manager := ⟨rfl, rfl⟩
    exact halike.tended
  | queue id command => exact world.tended_queue id command
  | take id command => exact world.tended_take id command

theorem standing_affected (world : World) (occurrence : Occurrence) (id : String) :
    (world.affected occurrence).manager.standing id = world.manager.standing id := by
  by_cases hswitch : ∃ table, occurrence = .switch table
  · obtain ⟨table, rfl⟩ := hswitch
    rfl
  · exact (world.tended_affected fun table hsame ↦ hswitch ⟨table, hsame⟩).standing id

end World

namespace Overlap

/-- Only the steps of tasks do parts of operations. -/
theorem part?_eq_none (overlap : Overlap) {occurrence : Occurrence} (hstep : ∀ number, occurrence ≠ .step number) :
    overlap.part? occurrence = none := by
  cases occurrence with
  | step number => exact absurd rfl (hstep number)
  | _ => rfl

variable {overlap : Overlap}

/-- While no task is under way no lock is wanted. -/
theorem guarded_of_idle (world : World) : ({ world } : Overlap).Guarded where
  tidy := LockLines.tidy_empty
  distinct _ := List.nodup_nil
  listed h := by simp [LockLines.line, LockLines.empty] at h
  lined h := by simp [work?] at h
  first h := by simp [work?] at h
  admitted h := by simp [work?] at h

theorem phase_of_idle (world : World) (id : String) : ({ world } : Overlap).phase id = .idle := phase_eq_idle rfl

/-- At rest no operation is going on. -/
theorem Guarded.phase_of_isAtRest (h : overlap.Guarded) (hrest : overlap.IsAtRest) (id : String) :
    overlap.phase id = .idle := by
  apply phase_eq_idle
  cases hline : overlap.locks.line id with
  | nil => rfl
  | cons number rest =>
    obtain ⟨work, hwork, hlock⟩ := h.listed (hline ▸ List.mem_cons_self)
    obtain ⟨task, htask, rfl⟩ := Option.map_eq_some_iff.mp hwork
    obtain ⟨outcome, hsettled⟩ := hrest task (List.mem_of_getElem? htask)
    simp [hsettled, Work.lock?] at hlock

/-- What happens besides the steps of tasks leaves every operation where it is. -/
theorem Guarded.meet (h : overlap.Guarded) {occurrence : Occurrence}
    (hstep : ∀ number, occurrence ≠ .step number) :
    (overlap.meet occurrence).Guarded ∧
      (∀ table, (overlap.world.affected occurrence).RowsAlike table (overlap.meet occurrence).world) ∧
      ∀ id, (overlap.meet occurrence).phase id = overlap.phase id := by
  have hwith (world : World) : (overlap.withWorld world).Guarded ∧ (∀ table, world.RowsAlike table world) ∧
      ∀ id, (overlap.withWorld world).phase id = overlap.phase id :=
    ⟨h.withWorld world, .refl world, fun _ ↦ rfl⟩
  cases occurrence with
  | issue request => exact h.submit request
  | step number => exact absurd rfl (hstep number)
  | load => exact h.submitLoad
  | switch table => exact (h.withWorld (overlap.world.switchTable table)).submitLoad
  | queue id command => exact hwith _
  | take id command => exact hwith _
  | tick now => exact hwith _
  | spoil table faults => exact hwith _

end Overlap

namespace World

/-- The locks are guarded, whatever has happened. -/
theorem guarded_undergo (world : World) (occurrences : List Occurrence) :
    (world.undergo occurrences).Guarded := by
  induction occurrences using List.reverseRecOn with
  | nil => exact Overlap.guarded_of_idle world
  | append_singleton past occurrence ih =>
    rw [undergo_append]
    by_cases hstep : ∃ number, occurrence = .step number
    · obtain ⟨number, rfl⟩ := hstep
      exact (ih.advance number).1
    · exact (ih.meet fun number hsame ↦ hstep ⟨number, hsame⟩).1

/-- What holds at first, through every step of a task and through everything else that happens holds throughout. -/
theorem undergo_induction (world : World) {P : List Occurrence → Overlap → Prop} (hidle : P [] { world })
    (hstep : ∀ {past number after}, P past (world.undergo past) →
      (world.undergo past).Advances number after → P (past ++ [.step number]) after)
    (hmeet : ∀ {past occurrence after}, P past (world.undergo past) → (∀ number, occurrence ≠ .step number) →
      (∀ table, ((world.undergo past).world.affected occurrence).RowsAlike table after.world) →
      (∀ id, after.phase id = (world.undergo past).phase id) → P (past ++ [occurrence]) after)
    (occurrences : List Occurrence) : P occurrences (world.undergo occurrences) := by
  induction occurrences using List.reverseRecOn with
  | nil => exact hidle
  | append_singleton past occurrence ih =>
    have hguarded := world.guarded_undergo past
    rw [undergo_append]
    by_cases hstepping : ∃ number, occurrence = .step number
    · obtain ⟨number, rfl⟩ := hstepping
      exact hstep ih (hguarded.advance number).2
    · have hother (number : Nat) : occurrence ≠ .step number := fun hsame ↦ hstepping ⟨number, hsame⟩
      obtain ⟨-, hworld, hphase⟩ := hguarded.meet hother
      exact hmeet ih hother hworld hphase

end World

end ClusterMembership
