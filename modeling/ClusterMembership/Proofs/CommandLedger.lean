import ClusterMembership.Proofs.History
import ClusterMembership.Proofs.Waiting
import Mathlib.Data.List.Induction

/-!
# The ledger of commands

Every command that is queued for a datanode leaves exactly once.  What waits leaves as a whole, as a batch: in the
reply to one heartbeat of the datanode, or because the datanode was removed, declared dead or purged.  In one move
the books balance: what waited before and what the move queues are, in this order, what leaves and what waits
afterwards.  `World.Ledger` keeps these books through a run.
-/

namespace ClusterMembership

namespace World

/-- The commands that a move queues for a datanode. -/
def queuedBy (world : World) (id : String) : Move → List Command
  | .call (.operate (.register offered nodeReport pipelineReport layout)) =>
    world.manager.queuedByRegistration layout
      (world.serve (.register offered nodeReport pipelineReport layout)).2 id
  | .call (.operate (.heartbeat offered report)) =>
    match Details.ofField offered, (world.serve (.heartbeat offered report)).2 with
    | .ok details, .ok _ =>
      if world.manager.registry.contains details.id = true then
        Command.addressed details.id id (world.manager.queuedByHeartbeat details report world.clock)
      else []
    | _, _ => []
  | .call (.queue target command) | .call (.take target command) =>
    if world.manager.registry.contains target = true then Command.addressed target id [command] else []
  | .call .refreshUsage =>
    if id ∈ world.manager.healthyInService then [Command.issue .refreshUsage (.object []) world.clock]
    else []
  | _ => []

def queuedDuring (world : World) (id : String) : List Move → List Command
  | [] => []
  | move :: rest => world.queuedBy id move ++ (world.move move).queuedDuring id rest

/-- A move with which commands of a datanode leave. -/
inductive Releases (world : World) (id : String) : Move → List Command → Prop where
  /-- They are the reply to a heartbeat of the datanode. -/
  | reply {offered : Field} {report : HeartbeatReport} {details : Details} {commands : List Command}
      (hdetails : Details.ofField offered = .ok details) (hid : details.id = id)
      (hregistered : world.manager.registry.contains id = true)
      (hreply : (world.serve (.heartbeat offered report)).2 = .ok (.commands commands)) :
      Releases world id (.call (.operate (.heartbeat offered report))) commands
  /-- They are dropped by a removal that succeeds. -/
  | removal {reply : Reply} {commands : List Command}
      (hremoved : (world.serve (.remove id)).2 = .ok reply) :
      Releases world id (.call (.operate (.remove id))) commands
  /-- They are dropped by a sweep that declares the datanode dead. -/
  | death {moment : Option Instant} {commands : List Command}
      (hbefore : world.manager.health? id ≠ some .dead)
      (hafter : (world.move (.call (.sweep moment))).manager.health? id = some .dead) :
      Releases world id (.call (.sweep moment)) commands
  /-- They are purged. -/
  | purge {commands : List Command} : Releases world id (.call (.purge id)) commands

/-- The books of one datanode over one move, and what is gone with it. -/
structure Turnover (world : World) (id : String) (move : Move) (gone : Option (List Command)) : Prop where
  balanced : world.manager.waiting id ++ world.queuedBy id move =
    gone.getD [] ++ (world.move move).manager.waiting id
  /-- What is gone is everything. -/
  whole : gone ≠ none → (world.move move).manager.waiting id = []
  releases : ∀ {commands}, gone = some commands → world.Releases id move commands
  /-- The reply to a registered datanode is what is gone. -/
  replied : ∀ {offered report details commands}, move = .call (.operate (.heartbeat offered report)) →
    Details.ofField offered = .ok details → details.id = id →
    world.manager.registry.contains id = true →
    (world.serve (.heartbeat offered report)).2 = .ok (.commands commands) → gone = some commands

namespace Turnover

variable {world : World} {id : String} {move : Move}

/-- A move that is not a heartbeat may leave everything waiting. -/
theorem of_kept (hbalanced : world.manager.waiting id ++ world.queuedBy id move =
      (world.move move).manager.waiting id)
    (hmove : ∀ offered report, move ≠ .call (.operate (.heartbeat offered report))) :
    world.Turnover id move none where
  balanced := hbalanced
  whole h := absurd rfl h
  releases h := by simp at h
  replied h := absurd h (hmove _ _)

theorem of_idle (hqueued : world.queuedBy id move = [])
    (hwaiting : (world.move move).manager.waiting id = world.manager.waiting id)
    (hmove : ∀ offered report, move ≠ .call (.operate (.heartbeat offered report))) :
    world.Turnover id move none := by
  apply of_kept _ hmove
  rw [hqueued, List.append_nil, hwaiting]

/-- A move that is not a heartbeat may drop everything that waits. -/
theorem of_dropped (hqueued : world.queuedBy id move = [])
    (hdropped : (world.move move).manager.waiting id = [])
    (hreleases : world.Releases id move (world.manager.waiting id))
    (hmove : ∀ offered report, move ≠ .call (.operate (.heartbeat offered report))) :
    world.Turnover id move (some (world.manager.waiting id)) where
  balanced := by rw [hqueued, hdropped, Option.getD_some]
  whole _ := hdropped
  releases h := Option.some.inj h ▸ hreleases
  replied h := absurd h (hmove _ _)

end Turnover

/-! ## One move -/

variable {world : World}

/-- A heartbeat of a primary, spelled out. -/
theorem serve_heartbeat_eq (hprimary : world.service.IsPrimary) {offered : Field} {details : Details}
    (hdetails : Details.ofField offered = .ok details) (report : HeartbeatReport) :
    world.serve (.heartbeat offered report) =
      (world.withManager (world.manager.heartbeat details report world.clock).1,
        (world.manager.heartbeat details report world.clock).2.map Reply.commands) := by
  rw [serve_heartbeat_admitted hdetails, run_heartbeat, hprimary.heartbeat_eq]
  rfl

/-- A datanode that is not registered is told to register and gets nothing else. -/
theorem serve_heartbeat_of_absent (hprimary : world.service.IsPrimary) {offered : Field}
    {details : Details} (hdetails : Details.ofField offered = .ok details)
    (habsent : world.manager.registry.contains details.id = false) (report : HeartbeatReport) :
    (world.serve (.heartbeat offered report)).2 = .ok (.commands [Command.reregister world.clock]) ∧
      ∀ id, (world.serve (.heartbeat offered report)).1.manager.waiting id = world.manager.waiting id := by
  obtain ⟨note, hheartbeat⟩ := Manager.exists_heartbeat_of_absent habsent report world.clock
  rw [serve_heartbeat_eq hprimary hdetails, hheartbeat]
  exact ⟨rfl, (world.manager.alike_note note).quiet.waiting⟩

theorem queuedBy_heartbeat_of_error {offered : Field} {report : HeartbeatReport} {failure : Failure}
    (h : (world.serve (.heartbeat offered report)).2 = .error failure) (id : String) :
    world.queuedBy id (.call (.operate (.heartbeat offered report))) = [] := by
  unfold queuedBy
  simp only [h]
  split
  · next hserved => simp at hserved
  · rfl

theorem queuedBy_heartbeat_of_ok {offered : Field} {report : HeartbeatReport} {details : Details}
    {reply : Reply} (hdetails : Details.ofField offered = .ok details)
    (h : (world.serve (.heartbeat offered report)).2 = .ok reply) (id : String) :
    world.queuedBy id (.call (.operate (.heartbeat offered report))) =
      if world.manager.registry.contains details.id = true then
        Command.addressed details.id id (world.manager.queuedByHeartbeat details report world.clock)
      else [] := by
  unfold queuedBy
  simp only [hdetails, h]

/-- A heartbeat that leaves everything waiting is one of another datanode, or has no reply. -/
theorem Turnover.of_unheard {id : String} {offered : Field} {report : HeartbeatReport}
    (hqueued : world.queuedBy id (.call (.operate (.heartbeat offered report))) = [])
    (hwaiting : (world.serve (.heartbeat offered report)).1.manager.waiting id = world.manager.waiting id)
    (hreplied : ∀ {details reply}, Details.ofField offered = .ok details → details.id = id →
      world.manager.registry.contains id = true →
      (world.serve (.heartbeat offered report)).2 ≠ .ok reply) :
    world.Turnover id (.call (.operate (.heartbeat offered report))) none where
  balanced := by
    rw [hqueued, List.append_nil]
    exact hwaiting.symm
  whole h := absurd rfl h
  releases h := by simp at h
  replied hmove hdetails hid hregistered hreply := by
    obtain ⟨rfl, rfl⟩ : offered = _ ∧ report = _ := by simpa using hmove
    exact absurd hreply (hreplied hdetails hid hregistered)

/-- A heartbeat that is answered takes everything along, also what it has queued itself. -/
theorem Turnover.of_heard {offered : Field} {report : HeartbeatReport} {details : Details}
    (hdetails : Details.ofField offered = .ok details)
    (hregistered : world.manager.registry.contains details.id = true)
    (hserve : (world.serve (.heartbeat offered report)).2 = .ok (.commands (world.manager.waiting details.id ++
      world.queuedBy details.id (.call (.operate (.heartbeat offered report))))))
    (hafter : (world.serve (.heartbeat offered report)).1.manager.waiting details.id = []) :
    world.Turnover details.id (.call (.operate (.heartbeat offered report)))
      (some (world.manager.waiting details.id ++
        world.queuedBy details.id (.call (.operate (.heartbeat offered report))))) where
  balanced := by
    have hnothing : (world.move (.call (.operate (.heartbeat offered report)))).manager.waiting
        details.id = [] := hafter
    rw [hnothing, List.append_nil, Option.getD_some]
  whole _ := hafter
  releases hgone := by
    rw [← Option.some.inj hgone]
    exact .reply hdetails rfl hregistered hserve
  replied hmove _ _ _ hreply := by
    obtain ⟨rfl, rfl⟩ : offered = _ ∧ report = _ := by simpa using hmove
    rw [hserve] at hreply
    simpa using hreply

theorem turnover_heartbeat_of_absent (hprimary : world.service.IsPrimary) {offered : Field}
    {details : Details} (hdetails : Details.ofField offered = .ok details)
    (habsent : world.manager.registry.contains details.id = false) (report : HeartbeatReport) (id : String) :
    world.Turnover id (.call (.operate (.heartbeat offered report))) none := by
  obtain ⟨hreply, hwaiting⟩ := serve_heartbeat_of_absent hprimary hdetails habsent report
  refine .of_unheard ?_ (hwaiting id) ?_
  · rw [queuedBy_heartbeat_of_ok hdetails hreply, habsent]
    rfl
  · intro other reply hother hid hcontains
    rw [hdetails] at hother
    rw [← hid, ← Except.ok.inj hother, habsent] at hcontains
    simp at hcontains

theorem exists_turnover_heartbeat_of_registered (hkeyed : world.manager.Keyed)
    (hprimary : world.service.IsPrimary) {offered : Field} {details : Details}
    (hdetails : Details.ofField offered = .ok details)
    (hregistered : world.manager.registry.contains details.id = true) (report : HeartbeatReport)
    (id : String) : ∃ gone, world.Turnover id (.call (.operate (.heartbeat offered report))) gone := by
  have hserved := serve_heartbeat_eq hprimary hdetails report
  rcases world.manager.heartbeat_cases hkeyed details report world.clock hregistered with
    ⟨⟨failure, hfailure⟩, hquiet⟩ | ⟨hreply, hwaiting⟩
  · have hrefused : (world.serve (.heartbeat offered report)).2 = .error failure := by
      rw [hserved, hfailure]
      rfl
    refine ⟨none, .of_unheard (queuedBy_heartbeat_of_error hrefused id) ?_ ?_⟩
    · rw [hserved]
      exact hquiet.waiting id
    · intro _ _ _ _ _ hreply
      rw [hrefused] at hreply
      simp at hreply
  · have hserve : (world.serve (.heartbeat offered report)).2 = .ok (.commands
        (world.manager.waiting details.id ++
          world.manager.queuedByHeartbeat details report world.clock)) := by
      rw [hserved, hreply]
      rfl
    have hafter : (world.serve (.heartbeat offered report)).1.manager.waiting id =
        if details.id = id then [] else world.manager.waiting id := by
      rw [hserved]
      exact hwaiting id
    have hqueued := queuedBy_heartbeat_of_ok hdetails hserve id
    rw [if_pos hregistered] at hqueued
    by_cases hid : details.id = id
    · subst hid
      rw [if_pos rfl] at hafter
      rw [Command.addressed_self] at hqueued
      exact ⟨_, .of_heard hdetails hregistered (hqueued ▸ hserve) hafter⟩
    · rw [Command.addressed_of_ne hid] at hqueued
      rw [if_neg hid] at hafter
      refine ⟨none, .of_unheard hqueued hafter ?_⟩
      intro other reply hother hsame
      rw [hdetails] at hother
      exact absurd (Except.ok.inj hother ▸ hsame) hid

theorem exists_turnover_heartbeat (hkeyed : world.manager.Keyed) (hprimary : world.service.IsPrimary)
    (id : String) (offered : Field) (report : HeartbeatReport) :
    ∃ gone, world.Turnover id (.call (.operate (.heartbeat offered report))) gone := by
  cases hdetails : Details.ofField offered with
  | error failure =>
    have hserved := world.serve_heartbeat_refused hdetails report
    refine ⟨none, .of_unheard (queuedBy_heartbeat_of_error (by rw [hserved]) id) (by rw [hserved]) ?_⟩
    intro details reply hother
    rw [hdetails] at hother
    simp at hother
  | ok details =>
    cases hregistered : world.manager.registry.contains details.id with
    | false => exact ⟨none, turnover_heartbeat_of_absent hprimary hdetails hregistered report id⟩
    | true =>
      exact exists_turnover_heartbeat_of_registered hkeyed hprimary hdetails hregistered report id

theorem exists_turnover_register (id : String) (offered : Field) (nodeReport : Option NodeReport)
    (pipelineReport : Field) (layout : Option LayoutReport) :
    ∃ gone, world.Turnover id (.call (.operate (.register offered nodeReport pipelineReport layout))) gone := by
  refine ⟨none, .of_kept ?_ (by simp)⟩
  unfold queuedBy
  simp only
  apply Eq.symm
  obtain ⟨refused, failure, hnoted, hserved⟩ | ⟨details, -, -, hserved⟩ :=
    world.serve_register_cases offered nodeReport pipelineReport layout
  · rw [hserved]
    refine Eq.trans ?_ ((hnoted.alike.quiet.waiting id).trans (List.append_nil _).symm)
    exact congrArg (fun result ↦ result.1.manager.waiting id) hserved
  · rw [hserved]
    refine Eq.trans ?_ (waiting_run_register world _ id)
    exact congrArg (fun result ↦ result.1.manager.waiting id) hserved

theorem exists_turnover_remove (id removed : String) :
    ∃ gone, world.Turnover id (.call (.operate (.remove removed))) gone := by
  have hqueued : world.queuedBy id (.call (.operate (.remove removed))) = [] := rfl
  rcases world.waiting_run_remove removed with ⟨⟨reply, hreply⟩, hwaiting⟩ | ⟨-, hwaiting⟩
  · by_cases hsame : removed = id
    · subst hsame
      refine ⟨_, .of_dropped hqueued ((hwaiting removed).trans (if_pos rfl)) (.removal hreply) (by simp)⟩
    · refine ⟨none, .of_kept ?_ (by simp)⟩
      rw [hqueued, List.append_nil]
      exact ((hwaiting id).trans (if_neg hsame)).symm
  · refine ⟨none, .of_kept ?_ (by simp)⟩
    rw [hqueued, List.append_nil]
    exact (hwaiting id).symm

/-- In every move of a primary the books of every datanode balance. -/
theorem exists_turnover (hsound : world.manager.Sound) (hprimary : world.service.IsPrimary) (id : String)
    (move : Move) : ∃ gone, world.Turnover id move gone := by
  cases move with
  | call call =>
    cases call with
    | operate request =>
      cases request with
      | register offered nodeReport pipelineReport layout =>
        exact exists_turnover_register id offered nodeReport pipelineReport layout
      | heartbeat offered report => exact exists_turnover_heartbeat hsound.keyed hprimary id offered report
      | remove removed => exact exists_turnover_remove id removed
      | setState changed state expiry =>
        refine ⟨none, .of_idle rfl ?_ (by simp)⟩
        have hrun := world.run_setState changed state expiry
        have hwaiting := world.waiting_runStateChange changed state expiry .nothing id
        rw [← hrun] at hwaiting
        exact hwaiting
      | reconcile changed state expiry =>
        exact ⟨none, .of_idle rfl (world.waiting_run_reconcile changed state expiry id) (by simp)⟩
    | queue target command =>
      refine ⟨none, .of_kept ?_ (by simp)⟩
      cases hregistered : world.manager.registry.contains target with
      | true =>
        simp only [World.move, World.call, queuedBy, Manager.addCommand, hregistered, if_true]
        exact (world.manager.waiting_add target id command world.clock).symm
      | false =>
        simp only [World.move, World.call, queuedBy, Manager.addCommand, hregistered,
          Bool.false_eq_true, if_false]
        exact List.append_nil _
    | take target command =>
      refine ⟨none, .of_kept ?_ (by simp)⟩
      unfold World.move World.call queuedBy
      simp only [hprimary.onCommand_eq]
      exact (world.manager.waiting_onCommand target id command).symm
    | purge purged =>
      have hwaiting := world.manager.waiting_purgeCommands purged id
      by_cases hsame : purged = id
      · subst hsame
        exact ⟨_, .of_dropped rfl (hwaiting.trans (if_pos rfl)) .purge (by simp)⟩
      · exact ⟨none, .of_idle rfl (hwaiting.trans (if_neg hsame)) (by simp)⟩
    | refreshUsage =>
      refine ⟨none, .of_kept ?_ (by simp)⟩
      unfold World.move World.call queuedBy
      simp only [hprimary.refreshUsage_eq]
      exact (world.manager.waiting_refreshUsage hsound.keyed id).symm
    | sweep moment =>
      rcases world.manager.swept_checkHeartbeats hsound.keyed (moment.getD world.clock) id with
        hwaiting | ⟨hwaiting, hbefore, hafter⟩
      · exact ⟨none, .of_idle rfl hwaiting (by simp)⟩
      · exact ⟨_, .of_dropped rfl hwaiting (.death hbefore hafter) (by simp)⟩
    | load => exact ⟨none, .of_idle rfl (world.waiting_load id) (by simp)⟩
    | switch table => exact ⟨none, .of_idle rfl ((world.switchTable table).waiting_load id) (by simp)⟩
  | tick now => exact ⟨none, .of_idle rfl rfl (by simp)⟩
  | finalizeLayout => exact ⟨none, .of_idle rfl rfl (by simp)⟩
  | spoil table faults => exact ⟨none, .of_idle rfl rfl (by simp)⟩
  | exchange tables => exact ⟨none, .of_idle rfl rfl (by simp)⟩

/-! ## Runs -/

/-- Commands that left the queue of a datanode together, with the number of the move in which they left. -/
structure Batch where
  step : Nat
  commands : List Command

/-- The batch that is gone with a move, if there is one. -/
def batchOf (step : Nat) (gone : Option (List Command)) : List Batch := (gone.map (Batch.mk step)).toList

/-- The books of one datanode over a run. -/
structure Ledger (world : World) (moves : List Move) (id : String) (batches : List Batch) : Prop where
  /-- Batches leave one after another, at most one in each move. -/
  ordered : batches.Pairwise fun earlier later ↦ earlier.step < later.step
  /-- Each batch leaves in a move that releases it, and nothing is left waiting. -/
  released : ∀ batch ∈ batches, ∃ move, moves[batch.step]? = some move ∧
    (world.after (moves.take batch.step)).Releases id move batch.commands ∧
    (world.after (moves.take (batch.step + 1))).manager.waiting id = []
  /-- At any time the commands that were queued so far are those that have left so far and those that wait. -/
  balanced : ∀ n ≤ moves.length, world.queuedDuring id (moves.take n) =
    (batches.filter fun batch ↦ batch.step < n).flatMap Batch.commands ++
      (world.after (moves.take n)).manager.waiting id
  /-- The reply to a heartbeat of the datanode is a batch of its own, or the command to register. -/
  answered : ∀ {step offered report details commands},
    moves[step]? = some (.call (.operate (.heartbeat offered report))) →
    Details.ofField offered = .ok details → details.id = id →
    ((world.after (moves.take step)).serve (.heartbeat offered report)).2 = .ok (.commands commands) →
    if (world.after (moves.take step)).manager.registry.contains id = true then
      Batch.mk step commands ∈ batches
    else commands = [Command.reregister (world.after (moves.take step)).clock]

theorem queuedDuring_append (world : World) (id : String) (moves : List Move) (move : Move) :
    world.queuedDuring id (moves ++ [move]) =
      world.queuedDuring id moves ++ (world.after moves).queuedBy id move := by
  induction moves generalizing world with
  | nil => exact List.append_nil _
  | cons first rest ih =>
    calc
      _ = world.queuedBy id first ++ (world.move first).queuedDuring id (rest ++ [move]) := rfl
      _ = world.queuedBy id first ++ ((world.move first).queuedDuring id rest ++
          ((world.move first).after rest).queuedBy id move) := by rw [ih]
      _ = _ := (List.append_assoc _ _ _).symm

theorem eq_some_of_mem_batchOf {step : Nat} {gone : Option (List Command)} {batch : Batch}
    (h : batch ∈ batchOf step gone) : gone = some batch.commands := by
  obtain ⟨commands, hgone, rfl⟩ := Option.map_eq_some_iff.mp (Option.mem_toList.mp h)
  exact hgone

theorem step_of_mem_batchOf {step : Nat} {gone : Option (List Command)} {batch : Batch}
    (h : batch ∈ batchOf step gone) : batch.step = step := by
  obtain ⟨commands, -, rfl⟩ := Option.map_eq_some_iff.mp (Option.mem_toList.mp h)
  rfl

theorem flatMap_batchOf (step : Nat) (gone : Option (List Command)) :
    (batchOf step gone).flatMap Batch.commands = gone.getD [] := by
  cases gone <;> simp [batchOf]

namespace Ledger

variable {moves : List Move} {id : String} {batches : List Batch}

theorem step_lt (h : world.Ledger moves id batches) {batch : Batch} (hmem : batch ∈ batches) :
    batch.step < moves.length := by
  obtain ⟨move, hmove, -⟩ := h.released batch hmem
  exact (List.getElem?_eq_some_iff.mp hmove).1

theorem filter_eq (h : world.Ledger moves id batches) {n : Nat} (hn : moves.length ≤ n) :
    (batches.filter fun batch ↦ batch.step < n) = batches := by
  apply List.filter_eq_self.mpr
  intro batch hmem
  have hstep := h.step_lt hmem
  exact decide_eq_true (by omega)

theorem snoc_balanced (h : world.Ledger moves id batches) {move : Move} {gone : Option (List Command)}
    (hturn : (world.after moves).Turnover id move gone) {n : Nat} (hn : n ≤ (moves ++ [move]).length) :
    world.queuedDuring id ((moves ++ [move]).take n) =
      ((batches ++ batchOf moves.length gone).filter fun batch ↦ batch.step < n).flatMap Batch.commands ++
        (world.after ((moves ++ [move]).take n)).manager.waiting id := by
  rw [List.length_append, List.length_singleton] at hn
  rw [List.filter_append, List.flatMap_append]
  by_cases hlast : n ≤ moves.length
  · -- The books up to an earlier time do not see the move.
    have hunseen : (batchOf moves.length gone).filter (fun batch ↦ batch.step < n) = [] := by
      apply List.filter_eq_nil_iff.mpr
      intro batch hmem
      have hstep := step_of_mem_batchOf hmem
      simp only [decide_eq_true_eq]
      omega
    rw [hunseen, List.flatMap_nil, List.append_nil, List.take_append_of_le_length hlast]
    exact h.balanced n hlast
  · have hall : n = moves.length + 1 := by omega
    have hseen : (batchOf moves.length gone).filter (fun batch ↦ batch.step < n) =
        batchOf moves.length gone := by
      apply List.filter_eq_self.mpr
      intro batch hmem
      have hstep := step_of_mem_batchOf hmem
      exact decide_eq_true (by omega)
    have hbefore := h.balanced moves.length (Nat.le_refl _)
    rw [List.take_length, h.filter_eq (Nat.le_refl _)] at hbefore
    have hwhole : (moves ++ [move]).take n = moves ++ [move] := by
      rw [hall, ← List.length_singleton (a := move), ← List.length_append, List.take_length]
    rw [hwhole, hseen, h.filter_eq (by omega), after_append, flatMap_batchOf]
    calc
      _ = world.queuedDuring id moves ++ (world.after moves).queuedBy id move :=
        world.queuedDuring_append id moves move
      _ = batches.flatMap Batch.commands ++
          ((world.after moves).manager.waiting id ++ (world.after moves).queuedBy id move) := by
        rw [hbefore, List.append_assoc]
      _ = batches.flatMap Batch.commands ++
          (gone.getD [] ++ ((world.after moves).move move).manager.waiting id) := by
        rw [hturn.balanced]
      _ = _ := (List.append_assoc _ _ _).symm

/-- One more move adds the batch that is gone with it. -/
theorem snoc (h : world.Ledger moves id batches) (hprimary : (world.after moves).service.IsPrimary)
    {move : Move} {gone : Option (List Command)} (hturn : (world.after moves).Turnover id move gone) :
    world.Ledger (moves ++ [move]) id (batches ++ batchOf moves.length gone) where
  ordered := by
    refine List.pairwise_append.mpr ⟨h.ordered, ?_, ?_⟩
    · cases gone <;> simp [batchOf]
    · intro earlier hearlier later hlater
      have hstep := step_of_mem_batchOf hlater
      have hbound := h.step_lt hearlier
      omega
  released := by
    intro batch hmem
    rcases List.mem_append.mp hmem with hold | hnew
    · have hbound := h.step_lt hold
      rw [List.getElem?_append_left hbound, List.take_append_of_le_length (Nat.le_of_lt hbound),
        List.take_append_of_le_length hbound]
      exact h.released batch hold
    · have hstep := step_of_mem_batchOf hnew
      have hgone := eq_some_of_mem_batchOf hnew
      refine ⟨move, ?_, ?_, ?_⟩
      · rw [hstep, List.getElem?_concat_length]
      · rw [hstep, List.take_left]
        exact hturn.releases hgone
      · rw [hstep, ← List.length_singleton (a := move), ← List.length_append, List.take_length,
          after_append]
        exact hturn.whole (by simp [hgone])
  balanced n hn := h.snoc_balanced hturn hn
  answered := by
    intro step offered report details commands hmove hdetails hid hreply
    have hbound : step < moves.length + 1 := by
      have hlength := (List.getElem?_eq_some_iff.mp hmove).1
      simpa using hlength
    by_cases hlast : step = moves.length
    · subst hlast
      rw [List.getElem?_concat_length] at hmove
      rw [List.take_left] at hreply ⊢
      split
      · next hregistered =>
        have hgone := hturn.replied (Option.some.inj hmove) hdetails hid hregistered hreply
        exact List.mem_append_right _ (by simp [batchOf, hgone])
      · next habsent =>
        have hunknown : (world.after moves).manager.registry.contains details.id = false := by
          rw [hid]
          exact (Bool.not_eq_true _).mp habsent
        have hregister := (serve_heartbeat_of_absent hprimary hdetails hunknown report).1
        rw [hreply] at hregister
        simpa using hregister
    · have hstep : step < moves.length := by omega
      rw [List.getElem?_append_left hstep] at hmove
      rw [List.take_append_of_le_length (Nat.le_of_lt hstep)] at hreply ⊢
      have hanswered := h.answered hmove hdetails hid hreply
      split
      · next hregistered =>
        rw [if_pos hregistered] at hanswered
        exact List.mem_append_left _ hanswered
      · next habsent => rwa [if_neg habsent] at hanswered

end Ledger

/-- In every run of a primary from empty memory, what is ever queued for a datanode is made up of batches and of
what still waits.  Each batch is the reply to one heartbeat of the datanode, or it was dropped as a whole by a
removal, a death or a purge; and no heartbeat brings commands of another datanode. -/
theorem exists_ledger_after (world : World) (hempty : world.manager.HasEmptyMemory)
    (hprimary : world.service.IsPrimary) (moves : List Move) (id : String) :
    ∃ batches, world.Ledger moves id batches := by
  induction moves using List.reverseRecOn with
  | nil =>
    have hnothing : world.manager.waiting id = [] := by
      rw [Manager.waiting, hempty.commands]
      rfl
    exact ⟨[],
      { ordered := List.Pairwise.nil
        released := fun batch hmem ↦ absurd hmem List.not_mem_nil
        balanced := fun n hn ↦ by
          rw [List.take_nil]
          exact hnothing.symm
        answered := fun hmove ↦ by simp at hmove }⟩
  | append_singleton moves move ih =>
    obtain ⟨batches, hledger⟩ := ih
    have hreached := isPrimary_after hprimary moves
    obtain ⟨gone, hturn⟩ := exists_turnover (sound_after hempty.sound moves) hreached id move
    exact ⟨_, hledger.snoc hreached hturn⟩

/-- Two commands leave with the reply to a heartbeat, one is dropped by a removal, and one waits in the end. -/
theorem ledger_of_reply_and_removal :
    let world := initial .default
    let id := (Details.sample "").id
    let command (kind : CommandKind) := Command.issue kind (.object []) 0
    let heartbeat := OperationRequest.heartbeat (some (Details.sample "/rack1").toValue) {}
    let moves := [Move.sample "/rack1", .call (.queue id (command .closeContainer)),
      .call (.take id (command .deleteBlocks)), .call (.operate heartbeat),
      .call (.queue id (command .createPipeline)), .call (.operate (.remove id)), Move.sample "/rack2",
      .call .refreshUsage]
    world.manager.HasEmptyMemory ∧ world.service.IsPrimary ∧ (∃ batches, world.Ledger moves id batches) ∧
      ((world.after (moves.take 3)).serve heartbeat).2.toOption =
        some (.commands [command .closeContainer, command .deleteBlocks]) ∧
      world.queuedDuring id moves = [command .closeContainer, command .deleteBlocks,
        command .createPipeline, command .refreshUsage] ∧
      (world.after moves).manager.waiting id = [command .refreshUsage] :=
  ⟨hasEmptyMemory_initial _, rfl, exists_ledger_after _ (hasEmptyMemory_initial _) rfl _ _,
    by decide +kernel, by decide +kernel, by decide +kernel⟩

end World

end ClusterMembership
