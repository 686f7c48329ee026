import ClusterMembership.Proofs.CommandLedger
import ClusterMembership.Proofs.Queueing

/-!
# Operations on one datanode are serial

Whatever requests for operations on one datanode come in while others are under way, and in whatever order their
tasks make steps, the outcomes are those of the requests served one at a time in the order in which they came, and
so is the world that is reached when all tasks have ended.  The invariant is `Overlap.AmountsTo`: completing the
tasks that there are amounts to serving the requests that have come in.  Every round in which each task has a turn
lowers the number of steps that are left, so the tasks end.

The clock stands still meanwhile, and nothing is asked for that is about another datanode.  The log may differ: a
registration that is refused is logged when it comes in, before those that it came in after have ended.
-/

namespace ClusterMembership

/-! ## Moves -/

/-- What can happen while tasks are under way. -/
inductive OverlapMove where
  /-- A request comes in. -/
  | issue (request : OperationRequest)
  /-- A task makes a step. -/
  | step (task : Nat)

namespace OverlapMove

def issued? : OverlapMove → Option OperationRequest
  | .issue request => some request
  | .step _ => none

def issued (moves : List OverlapMove) : List OperationRequest := moves.filterMap issued?

end OverlapMove

def OperationRequest.IsRegistration : OperationRequest → Prop
  | .register _ _ _ _ => True
  | _ => False

/-- Serve requests one at a time. -/
def World.serveAll (world : World) (requests : List OperationRequest) : World × List Outcome :=
  world.inTurn World.serve requests

theorem World.serveAll_snoc (world : World) (requests : List OperationRequest) (request : OperationRequest) :
    world.serveAll (requests ++ [request]) =
      (((world.serveAll requests).1.serve request).1,
        (world.serveAll requests).2 ++ [((world.serveAll requests).1.serve request).2]) :=
  inTurn_append world requests [request]

/-! ## A datanode that is not registered -/

/-- A heartbeat of a datanode that is not registered is answered by the command to register alone. -/
theorem Service.heartbeat_of_absent (service : Service) {details : Details}
    (h : service.manager.registry.contains details.id = false) (report : HeartbeatReport) :
    (service.heartbeat details report service.manager.clock).2 = .ok [Command.reregister service.manager.clock] ∧
      (service.heartbeat details report service.manager.clock).1.manager.registry = service.manager.registry := by
  obtain ⟨note, hheartbeat⟩ := Manager.exists_heartbeat_of_absent h report service.manager.clock
  unfold heartbeat
  cases service.observer with
  | none =>
    unfold primaryHeartbeat
    rw [hheartbeat]
    exact ⟨rfl, rfl⟩
  | some observer =>
    unfold observedHeartbeat
    simp only
    split
    · refine ⟨rfl, ?_⟩
      unfold refuseOutdated
      cases observer.discards <;> rfl
    · unfold primaryHeartbeat
      simp only [withManager, hheartbeat]
      exact ⟨rfl, rfl⟩

namespace World

variable {world : World} {id : String}

theorem serve_heartbeat_of_unregistered {offered : Field} {details : Details}
    (hdetails : Details.ofField offered = .ok details)
    (habsent : world.manager.registry.contains details.id = false) (report : HeartbeatReport) :
    (world.serve (.heartbeat offered report)).2 = .ok (.commands [Command.reregister world.clock]) ∧
      (world.serve (.heartbeat offered report)).1.manager.registry = world.manager.registry := by
  obtain ⟨hreply, hregistry⟩ := world.service.heartbeat_of_absent habsent report
  rw [serve_heartbeat_admitted hdetails, run_heartbeat]
  exact ⟨congrArg (Except.map Reply.commands) hreply, hregistry⟩

/-- Of the requests on a datanode that is not registered only a registration changes the registry or a table. -/
theorem serve_of_absent (habsent : world.manager.registry.contains id = false) {request : OperationRequest}
    (hconcerns : request.Concerns id) (hother : ¬ request.IsRegistration) :
    (world.serve request).1.manager.registry = world.manager.registry ∧
      (world.serve request).1.tables = world.tables := by
  cases request with
  | register offered nodeReport pipelineReport layout => exact absurd trivial hother
  | heartbeat offered report =>
    cases hdetails : Details.ofField offered with
    | error failure =>
      rw [serve_heartbeat_refused hdetails]
      exact ⟨rfl, rfl⟩
    | ok details =>
      obtain rfl := hconcerns details hdetails
      refine ⟨(serve_heartbeat_of_unregistered hdetails habsent report).2, ?_⟩
      rw [serve_heartbeat_admitted hdetails, run_heartbeat]
  | remove removed =>
    obtain rfl := hconcerns
    rw [serve_remove, run_remove_of_absent habsent]
    exact ⟨rfl, rfl⟩
  | setState changed state expiry =>
    obtain rfl := hconcerns
    rw [serve_setState, run_setState, Manager.beginStateChange_of_absent habsent]
    exact ⟨rfl, rfl⟩
  | reconcile changed state expiry =>
    obtain rfl := hconcerns
    rw [serve_reconcile, run_reconcile]
    obtain ⟨outcome, -, hbegin⟩ | ⟨noted, hlogged, hbegin⟩ := world.manager.beginReconcile_cases changed state expiry
    · rw [hbegin]
      exact ⟨rfl, rfl⟩
    · have hregistry := hlogged.alike.registry
      rw [← hregistry] at habsent
      rw [hbegin, Manager.beginStateChange_of_absent habsent]
      exact ⟨hregistry, rfl⟩

/-- Of the requests on a datanode only a registration brings it in. -/
theorem absent_serve (habsent : world.manager.registry.contains id = false) {request : OperationRequest}
    (hconcerns : request.Concerns id) (hother : ¬ request.IsRegistration) :
    (world.serve request).1.manager.registry.contains id = false := by
  rw [(serve_of_absent habsent hconcerns hother).1]
  exact habsent

/-- A removal that succeeds takes the datanode out. -/
theorem absent_serve_remove {removed : String} {reply : Reply}
    (h : (world.serve (.remove removed)).2 = .ok reply) :
    (world.serve (.remove removed)).1.manager.registry.contains removed = false := by
  rw [serve_remove] at h ⊢
  obtain ⟨failure, hfailed, -⟩ | ⟨asked, -, -, hforgotten⟩ := world.run_remove_cases removed
  · rw [hfailed] at h
    cases h
  · rw [hforgotten, Manager.contains_eq_isSome_standing, Manager.standing_forget, if_pos rfl]
    rfl

def served (world : World) (requests : List OperationRequest) (count : Nat) : World :=
  (world.serveAll (requests.take count)).1

section Served

variable {requests : List OperationRequest} {request : OperationRequest} {number : Nat}

theorem served_succ (hrequest : requests[number]? = some request) :
    world.served requests (number + 1) = ((world.served requests number).serve request).1 := by
  unfold served
  rw [List.take_add_one, hrequest, Option.toList_some, serveAll_snoc]

/-- Each outcome is that of the request in the world that those before it lead to. -/
theorem getElem?_serveAll (hrequest : requests[number]? = some request) :
    (world.serveAll requests).2[number]? = some ((world.served requests number).serve request).2 :=
  getElem?_inTurn hrequest world

theorem clock_served (world : World) (requests : List OperationRequest) (count : Nat) :
    (world.served requests count).clock = world.clock :=
  clock_inTurn clock_serve world _

/-- A datanode that was removed stays out until it is registered again. -/
theorem absent_served {removal : Nat} {reply : Reply} (hremoval : requests[removal]? = some (.remove id))
    (hremoved : (world.serveAll requests).2[removal]? = some (.ok reply))
    (hconcerns : ∀ request ∈ requests, request.Concerns id) {heartbeat : Nat} (hlater : removal < heartbeat)
    (hlength : heartbeat ≤ requests.length)
    (hbetween : ∀ number request, removal < number → number < heartbeat → requests[number]? = some request →
      ¬ request.IsRegistration) :
    (world.served requests heartbeat).manager.registry.contains id = false := by
  induction heartbeat, hlater using Nat.le_induction with
  | base =>
    rw [getElem?_serveAll hremoval, Option.some.injEq] at hremoved
    rw [served_succ hremoval]
    exact absent_serve_remove hremoved
  | succ number hafter ih =>
    have hrequest : requests[number]? = some requests[number] := List.getElem?_eq_getElem hlength
    rw [served_succ hrequest]
    refine absent_serve ?_ (hconcerns _ (List.getElem_mem hlength))
      (hbetween number _ hafter (Nat.lt_succ_self _) hrequest)
    exact ih (Nat.le_of_succ_le hlength) fun other request hfirst hlast ↦
      hbetween other request hfirst (Nat.lt_succ_of_lt hlast)

end Served

end World

namespace Overlap

def move (overlap : Overlap) : OverlapMove → Overlap
  | .issue request => (overlap.submit request).1
  | .step task => overlap.advance task

def after (overlap : Overlap) (moves : List OverlapMove) : Overlap := moves.foldl move overlap

def outcome? (overlap : Overlap) (number : Nat) : Option Outcome :=
  (overlap.tasks[number]?).bind Task.outcome?

/-- Whether the first tasks have ended, as many as given. -/
def HasEnded (overlap : Overlap) (count : Nat) : Prop := ∀ number < count, (overlap.outcome? number).isSome

/-- Operations on one datanode that overlap come to the same as their requests served one at a time, in the order
in which they came in. -/
structure IsSerial (overlap : Overlap) (world : World) (requests : List OperationRequest) (id : String) :
    Prop where
  /-- Every request has a task, in that order. -/
  tasks : overlap.tasks.length = requests.length
  /-- A task that has ended has the outcome of its request. -/
  answers : ∀ number outcome, overlap.outcome? number = some outcome →
    (world.serveAll requests).2[number]? = some outcome
  /-- Once all have ended, the service and its tables are the same, and no lock is taken. -/
  state : overlap.HasEnded requests.length →
    (world.serveAll requests).1.SameButLog overlap.world ∧ overlap.locks = .empty
  /-- All will have ended after enough rounds in which each has a turn, in whatever order and however often. -/
  ends : ∀ rounds : List (List Nat), 4 * requests.length ≤ rounds.length →
    (∀ round ∈ rounds, ∀ number < requests.length, number ∈ round) →
    (overlap.run rounds.flatten).HasEnded requests.length
  /-- A heartbeat that comes in after a removal that succeeds, with no registration between them, is answered by the
  command to register and no other. -/
  reregisters : ∀ removal heartbeat offered report details reply outcome, removal < heartbeat →
    requests[removal]? = some (.remove id) → overlap.outcome? removal = some (.ok reply) →
    requests[heartbeat]? = some (.heartbeat offered report) → Details.ofField offered = .ok details →
    (∀ number request, removal < number → number < heartbeat → requests[number]? = some request →
      ¬ request.IsRegistration) →
    overlap.outcome? heartbeat = some outcome → outcome = .ok (.commands [Command.reregister world.clock])

/-- Completing the tasks for one datanode amounts to serving their requests one at a time. -/
structure AmountsTo (overlap : Overlap) (world : World) (requests : List OperationRequest) (id : String) :
    Prop where
  serial : overlap.Serial id
  length : overlap.tasks.length = requests.length
  completes : ∃ entries, overlap.completeAll =
    ((world.serveAll requests).1.relog entries, (world.serveAll requests).2)

/-! ## Steps in any order -/

section Steps

variable {overlap : Overlap} {id : String}

theorem stepsLeft_of_settled (h : ∀ task ∈ overlap.tasks, task.work.IsSettled) : overlap.stepsLeft = 0 := by
  refine List.sum_eq_zero fun steps hsteps ↦ ?_
  obtain ⟨task, htask, rfl⟩ := List.mem_map.mp hsteps
  obtain ⟨outcome, houtcome⟩ := h task htask
  rw [houtcome]
  rfl

theorem stepsLeft_le (overlap : Overlap) : overlap.stepsLeft ≤ 4 * overlap.tasks.length := by
  have hmost := List.sum_le_card_nsmul (overlap.tasks.map fun task ↦ task.work.stepsLeft) 4 fun steps hsteps ↦ by
    obtain ⟨task, -, rfl⟩ := List.mem_map.mp hsteps
    cases task.work <;> simp [Work.stepsLeft]
  rw [List.length_map, nsmul_eq_mul, Nat.cast_id, Nat.mul_comm] at hmost
  exact hmost

theorem Serial.continues (h : overlap.Serial id) : overlap.Continues overlap id := ⟨h, rfl, rfl, Nat.le_refl _⟩

theorem Continues.trans {before middle after : Overlap} (hfirst : before.Continues middle id)
    (hsecond : middle.Continues after id) : before.Continues after id where
  serial := hsecond.serial
  completes := hsecond.completes.trans hfirst.completes
  length := hsecond.length.trans hfirst.length
  notMore := hsecond.notMore.trans hfirst.notMore

theorem Serial.continues_advance (h : overlap.Serial id) (number : Nat) :
    overlap.Continues (overlap.advance number) id := by
  obtain ⟨-, hidle⟩ | ⟨holder, -, hfurthers, hidle⟩ := h.advance_cases
  · rw [hidle number]
    exact h.continues
  · by_cases hholder : number = holder
    · rw [hholder]
      exact hfurthers.toContinues
    · rw [hidle number hholder]
      exact h.continues

theorem Serial.continues_run (h : overlap.Serial id) (schedule : List Nat) :
    overlap.Continues (overlap.run schedule) id := by
  induction schedule generalizing overlap with
  | nil => exact h.continues
  | cons number rest ih => exact (h.continues_advance number).trans (ih (h.continues_advance number).serial)

theorem run_append (overlap : Overlap) (first second : List Nat) :
    overlap.run (first ++ second) = (overlap.run first).run second := List.foldl_append

/-- Turns of tasks that can make no step change nothing. -/
theorem run_of_idle {schedule : List Nat} (h : ∀ number ∈ schedule, overlap.advance number = overlap) :
    overlap.run schedule = overlap := by
  induction schedule with
  | nil => rfl
  | cons number rest ih =>
    have hidle : overlap.advance number = overlap := h number List.mem_cons_self
    refine Eq.trans ?_ (ih fun other hother ↦ h other (List.mem_cons_of_mem _ hother))
    exact congrArg (fun advanced : Overlap ↦ advanced.run rest) hidle

/-- No one stands in line once all tasks have ended. -/
theorem Serial.line_of_settled (h : overlap.Serial id) (hsettled : ∀ task ∈ overlap.tasks, task.work.IsSettled) :
    overlap.locks.line id = [] := by
  obtain ⟨-, -, -, hline⟩ | ⟨ended, holding, behind, htasks, -, hholds, -, -⟩ := h.stands
  · exact hline
  · have hmem : Task.alone holding ∈ overlap.tasks := by simp [htasks]
    obtain ⟨outcome, hwork⟩ := hsettled _ hmem
    rw [Task.work_alone] at hwork
    rw [hwork] at hholds
    cases hholds

theorem Serial.settled_of_stepsLeft (h : overlap.Serial id) (hnone : overlap.stepsLeft = 0) :
    ∀ task ∈ overlap.tasks, task.work.IsSettled := by
  obtain ⟨hsettled, -⟩ | ⟨holder, -, hfurthers, -⟩ := h.advance_cases
  · exact hsettled
  · exact absurd (hnone ▸ hfurthers.fewer) (Nat.not_lt_zero _)

/-- A round in which every task has a turn leaves fewer steps, if any are left. -/
theorem Serial.stepsLeft_run_round (h : overlap.Serial id) {round : List Nat}
    (hround : ∀ number < overlap.tasks.length, number ∈ round) :
    (overlap.run round).stepsLeft ≤ overlap.stepsLeft - 1 := by
  obtain ⟨hsettled, hidle⟩ | ⟨holder, hholder, hfurthers, hidle⟩ := h.advance_cases
  · have hnone := stepsLeft_of_settled hsettled
    rw [run_of_idle fun number _ ↦ hidle number]
    omega
  · -- Until its first turn in the round the task under the lock stays the only one that can make a step.
    obtain ⟨front, back, rfl, hfront⟩ := List.eq_append_cons_of_mem (hround holder hholder)
    have hwaited : overlap.run front = overlap :=
      run_of_idle fun number hnumber ↦ hidle number fun hsame ↦ hfront (hsame ▸ hnumber)
    have hrest : overlap.run (front ++ holder :: back) = (overlap.advance holder).run back := by
      rw [run_append, hwaited]
      rfl
    have hfewer := hfurthers.fewer
    have hnotMore := (hfurthers.serial.continues_run back).notMore
    rw [hrest]
    omega

theorem Serial.stepsLeft_run_rounds (h : overlap.Serial id) {rounds : List (List Nat)}
    (hrounds : ∀ round ∈ rounds, ∀ number < overlap.tasks.length, number ∈ round) :
    (overlap.run rounds.flatten).stepsLeft ≤ overlap.stepsLeft - rounds.length := by
  induction rounds generalizing overlap with
  | nil => exact Nat.le_refl _
  | cons round rest ih =>
    have hcontinues := h.continues_run round
    have hround := h.stepsLeft_run_round (hrounds round List.mem_cons_self)
    have hrest := ih hcontinues.serial fun later hlater ↦
      hcontinues.length ▸ hrounds later (List.mem_cons_of_mem _ hlater)
    rw [List.flatten_cons, run_append, List.length_cons]
    omega

/-- As many rounds in which every task has a turn as steps are left let all tasks end. -/
theorem Serial.settled_run_rounds (h : overlap.Serial id) {rounds : List (List Nat)}
    (hrounds : ∀ round ∈ rounds, ∀ number < overlap.tasks.length, number ∈ round)
    (hmany : 4 * overlap.tasks.length ≤ rounds.length) :
    ∀ task ∈ (overlap.run rounds.flatten).tasks, task.work.IsSettled := by
  have hleft := h.stepsLeft_run_rounds hrounds
  have hmost := overlap.stepsLeft_le
  exact (h.continues_run rounds.flatten).serial.settled_of_stepsLeft (by omega)

end Steps

/-! ## Requests and steps in any order -/

section Amounts

variable {overlap : Overlap} {world : World} {requests : List OperationRequest} {id : String}

theorem AmountsTo.issue (h : overlap.AmountsTo world requests id) {request : OperationRequest}
    (hconcerns : request.Concerns id) : (overlap.submit request).1.AmountsTo world (requests ++ [request]) id := by
  obtain ⟨entries, hcompletes⟩ := h.completes
  obtain ⟨work, logged, htasks, hworld, hwork, -⟩ := overlap.submit_cases hconcerns
  obtain ⟨rest, hadded⟩ := completeAll_added htasks hworld hwork
  obtain ⟨last, hserved⟩ := (world.serveAll requests).1.exists_relog_serve entries request
  refine ⟨h.serial.submit hconcerns, ?_, rest, ?_⟩
  · rw [htasks, List.length_append, List.length_append, h.length]
    rfl
  · rw [hadded, hcompletes, hserved, World.serveAll_snoc]
    rfl

theorem AmountsTo.step (h : overlap.AmountsTo world requests id) (number : Nat) :
    (overlap.advance number).AmountsTo world requests id := by
  have hcontinues := h.serial.continues_advance number
  exact
    { serial := hcontinues.serial
      length := hcontinues.length.trans h.length
      completes := hcontinues.completes ▸ h.completes }

theorem amountsTo_empty (world : World) (id : String) : ({ world } : Overlap).AmountsTo world [] id where
  serial := ⟨LockLines.tidy_empty, fun _ _ ↦ rfl, .free [] rfl (by simp) rfl⟩
  length := rfl
  completes := ⟨world.manager.trace.entries, rfl⟩

/-- Completing the tasks amounts to serving the requests, in whatever order the moves are made. -/
theorem AmountsTo.after (h : overlap.AmountsTo world requests id) {moves : List OverlapMove}
    (hconcerns : ∀ request ∈ OverlapMove.issued moves, request.Concerns id) :
    (overlap.after moves).AmountsTo world (requests ++ OverlapMove.issued moves) id := by
  induction moves generalizing overlap requests with
  | nil =>
    rw [show OverlapMove.issued [] = [] from rfl, List.append_nil]
    exact h
  | cons move rest ih =>
    cases move with
    | issue request =>
      have hlater := ih (h.issue (hconcerns request List.mem_cons_self))
        fun other hother ↦ hconcerns other (List.mem_cons_of_mem _ hother)
      rw [List.append_assoc] at hlater
      exact hlater
    | step number => exact ih (h.step number) hconcerns

theorem settled_of_outcome? {number : Nat} {outcome : Outcome} (h : overlap.outcome? number = some outcome) :
    (overlap.tasks.map Task.work)[number]? = some (.settled outcome) := by
  obtain ⟨task, htask, houtcome⟩ := Option.bind_eq_some_iff.mp h
  rw [List.getElem?_map, htask, Option.map_some]
  unfold Task.outcome? at houtcome
  split at houtcome
  · next hwork => rw [hwork, Option.some.inj houtcome]
  · cases houtcome

theorem isSome_outcome?_iff {number : Nat} (hnumber : number < overlap.tasks.length) :
    (overlap.outcome? number).isSome ↔ (overlap.tasks[number]).work.IsSettled := by
  rw [outcome?, List.getElem?_eq_getElem hnumber, Option.bind_some, Task.outcome?]
  split
  · next outcome hwork => exact ⟨fun _ ↦ ⟨outcome, hwork⟩, fun _ ↦ rfl⟩
  · next hother => exact ⟨fun h ↦ (Bool.false_ne_true h).elim, fun ⟨outcome, hwork⟩ ↦ (hother outcome hwork).elim⟩

theorem hasEnded_iff : overlap.HasEnded overlap.tasks.length ↔ ∀ task ∈ overlap.tasks, task.work.IsSettled := by
  rw [List.forall_mem_iff_getElem]
  exact forall₂_congr fun number hnumber ↦ isSome_outcome?_iff hnumber

/-- A task that has ended has the outcome of its request served in its turn. -/
theorem AmountsTo.answers (h : overlap.AmountsTo world requests id) {number : Nat} {outcome : Outcome}
    (hended : overlap.outcome? number = some outcome) :
    (world.serveAll requests).2[number]? = some outcome := by
  obtain ⟨entries, hcompletes⟩ := h.completes
  have houtcome := World.getElem?_inTurn_complete (settled_of_outcome? hended) overlap.world
  rwa [← completeAll, hcompletes] at houtcome

/-- Once all tasks have ended, the world is the one that serving the requests leads to, but for the log. -/
theorem AmountsTo.state (h : overlap.AmountsTo world requests id)
    (hended : ∀ task ∈ overlap.tasks, task.work.IsSettled) :
    (world.serveAll requests).1.SameButLog overlap.world ∧ overlap.locks = .empty := by
  obtain ⟨entries, hcompletes⟩ := h.completes
  refine ⟨⟨entries, ?_⟩, h.serial.tidy.eq_empty fun other ↦ ?_⟩
  · have hworks : ∀ work ∈ overlap.tasks.map Task.work, work.IsSettled := by simpa using hended
    obtain ⟨outcomes, hsettled⟩ := World.exists_inTurn_settled hworks
    have hworld : overlap.completeAll = (overlap.world, outcomes) := hsettled overlap.world
    exact congrArg Prod.fst (hworld.symm.trans hcompletes)
  · by_cases hother : other = id
    · rw [hother]
      exact h.serial.line_of_settled hended
    · exact h.serial.others other hother

/-- Where every request is on the datanode, completing the tasks is all that the order of the steps leaves open. -/
theorem AmountsTo.isSerial (h : overlap.AmountsTo world requests id)
    (hconcerns : ∀ request ∈ requests, request.Concerns id) : overlap.IsSerial world requests id where
  tasks := h.length
  answers _ _ := h.answers
  state hended := h.state (hasEnded_iff.mp (h.length ▸ hended))
  ends rounds hmany hrounds := by
    rw [← h.length] at hmany hrounds ⊢
    rw [← (h.serial.continues_run rounds.flatten).length]
    exact hasEnded_iff.mpr (h.serial.settled_run_rounds hrounds hmany)
  reregisters removal heartbeat offered report details reply outcome hlater hremoval hremoved hheartbeat hdetails
      hbetween houtcome := by
    have hserved := h.answers houtcome
    rw [World.getElem?_serveAll hheartbeat, Option.some.injEq] at hserved
    obtain ⟨hlength, -⟩ := List.getElem?_eq_some_iff.mp hheartbeat
    have habsent := World.absent_served hremoval (h.answers hremoved) hconcerns hlater (Nat.le_of_lt hlength) hbetween
    obtain rfl := hconcerns _ (List.mem_of_getElem? hheartbeat) details hdetails
    rw [← hserved, (World.serve_heartbeat_of_unregistered hdetails habsent report).1, World.clock_served]

end Amounts

/-- Requests for operations on one datanode may come in at any time and their tasks make steps in any order: each
request is answered as if the requests had been served one at a time, and the same is left behind.  The world may
be any, so its tables may fail at any of their calls. -/
theorem isSerial_after (world : World) {id : String} {moves : List OverlapMove}
    (hconcerns : ∀ request ∈ OverlapMove.issued moves, request.Concerns id) :
    (({ world } : Overlap).after moves).IsSerial world (OverlapMove.issued moves) id :=
  ((amountsTo_empty world id).after hconcerns).isSerial hconcerns

/-- A heartbeat and a removal come in while the datanode is being registered: the heartbeat, whose task has the first
turns, still waits for the removal, and the datanode is told to register again. -/
theorem isSerial_after_early_heartbeat :
    let details := Details.sample "/rack1"
    let moves : List OverlapMove :=
      [.issue (.register (some details.toValue) none none none), .step 0, .issue (.remove details.id),
        .issue (.heartbeat (some details.toValue) {})] ++
      [2, 1, 2, 0, 2, 1, 0, 2, 0, 1, 2, 1, 1, 2, 1, 2, 2].map .step
    let reached := ({ world := .initial .default } : Overlap).after moves
    (∀ request ∈ OverlapMove.issued moves, request.Concerns details.id) ∧
      reached.IsSerial (.initial .default) (OverlapMove.issued moves) details.id ∧
      reached.outcome? 1 = some (.ok .nothing) ∧
      reached.outcome? 2 = some (.ok (.commands [Command.reregister 0])) := by
  intro details moves reached
  have hread : ∀ given, Details.ofField (some details.toValue) = .ok given → given.id = details.id := by
    rintro given ⟨⟩
    rfl
  have hissued : OverlapMove.issued moves =
      [.register (some details.toValue) none none none, .remove details.id, .heartbeat (some details.toValue) {}] :=
    rfl
  have hconcerns : ∀ request ∈ OverlapMove.issued moves, request.Concerns details.id := by
    rw [hissued]
    simpa [OperationRequest.Concerns] using hread
  exact ⟨hconcerns, isSerial_after _ hconcerns, by decide +kernel, by decide +kernel⟩

end Overlap

end ClusterMembership
