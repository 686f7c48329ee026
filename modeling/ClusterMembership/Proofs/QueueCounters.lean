import ClusterMembership.Store.CommandQueue
import Mathlib.Algebra.BigOperators.Finprod
import Mathlib.Data.List.DropRight

/-!
# What the counters of the command queues count

Two maps of different lifetimes feed the counters: a drain takes the waiting commands of a datanode and leaves what it
reported, a purge takes both.  So both are read off the history of the actions, each from the actions since the last one
that took it: what waits is what was queued since then, in order, and what a datanode is said to hold is its last report
since then.  A report replaces the one before as a whole, so a kind that it leaves out counts as none.

All other counters are sums over what waits: of one datanode over the kinds of commands, of all over the datanodes.
-/

namespace ClusterMembership

namespace CommandKind

theorem ofName?_name (kind : CommandKind) : ofName? kind.name = some kind := by
  cases kind <;> rfl

theorem name_eq_name_iff (kind other : CommandKind) : kind.name = other.name ↔ kind = other := by
  refine ⟨fun h ↦ ?_, congrArg name⟩
  have hsame : some kind = some other := by
    rw [← ofName?_name kind, ← ofName?_name other, h]
  exact Option.some.inj hsame

/-- Every kind is listed once. -/
theorem sum_all_eq_one (kind : CommandKind) : (all.map fun other ↦ if kind = other then 1 else 0).sum = 1 := by
  cases kind <;> rfl

end CommandKind

namespace CommandQueue

/-! ## Actions -/

/-- What changes the queues or the reported counts. -/
inductive Action where
  | add (id : String) (command : Command) (now : Instant)
  | drain (id : String)
  | purge (id : String)
  | report (id : String) (counts : HeldCounts)
  | clear
  deriving DecidableEq

namespace Action

/-- The datanode that an action is on; to clear is on none in particular. -/
def datanode? : Action → Option String
  | add id _ _ | drain id | purge id | report id _ => some id
  | clear => none

/-- An action takes what waits for a datanode. -/
def empties (id : String) : Action → Bool
  | drain emptied | purge emptied => emptied = id
  | clear => true
  | add _ _ _ | report _ _ => false

/-- An action takes what a datanode reported. -/
def forgets (id : String) : Action → Bool
  | purge forgotten => forgotten = id
  | clear => true
  | add _ _ _ | drain _ | report _ _ => false

/-- What an action puts in line for a datanode. -/
def queued? (id : String) : Action → Option QueuedCommand
  | add added command now => if added = id then some ⟨id, command, now⟩ else none
  | _ => none

def counts? (id : String) : Action → Option HeldCounts
  | report reporting counts => if reporting = id then some counts else none
  | _ => none

end Action

def act (queue : CommandQueue) : Action → CommandQueue
  | .add id command now => queue.add id command now
  | .drain id => (queue.drain id).1
  | .purge id => (queue.purge id).1
  | .report id counts => queue.recordHeld id counts
  | .clear => empty

def after (queue : CommandQueue) (actions : List Action) : CommandQueue := actions.foldl act queue

/-! ## What a history says -/

def since (takes : Action → Bool) (actions : List Action) : List Action := actions.rtakeWhile fun action ↦ !takes action

/-- What was queued for a datanode since its queue was last emptied, in order of arrival. -/
def queuedSince (actions : List Action) (id : String) : List QueuedCommand :=
  (since (Action.empties id) actions).filterMap (Action.queued? id)

/-- The last report of a datanode since it was last forgotten. -/
def lastReport? (actions : List Action) (id : String) : Option HeldCounts :=
  ((since (Action.forgets id) actions).filterMap (Action.counts? id)).getLast?

/-- The number of commands of a kind in the last report of a datanode, none without a report or when it leaves the kind
out. -/
def reportedCount (actions : List Action) (id : String) (kind : CommandKind) : Number :=
  ((lastReport? actions id).bind (Association.find? kind.name)).getD 0

theorem filterMap_since_concat {α : Type} (takes : Action → Bool) (pick : Action → Option α) (actions : List Action)
    (action : Action) : (since takes (actions ++ [action])).filterMap pick =
      if takes action then [] else (since takes actions).filterMap pick ++ (pick action).toList := by
  unfold since
  rw [List.rtakeWhile_concat]
  cases takes action with
  | true => rfl
  | false =>
    simp only [Bool.not_false, if_true, Bool.false_eq_true, if_false, List.filterMap_append, List.filterMap_cons,
      List.filterMap_nil]
    cases pick action <;> rfl

variable {queue left : CommandQueue} {id on : String}

theorem peek_act (queue : CommandQueue) (action : Action) (id : String) :
    (queue.act action).peek id =
      if action.empties id then [] else queue.peek id ++ (action.queued? id).toList := by
  cases action with
  | add added command now =>
    simp only [act, Action.empties, Action.queued?, peek_add, Bool.false_eq_true, if_false]
    by_cases hadded : added = id <;> simp [hadded]
  | drain drained => simp [act, Action.empties, Action.queued?, peek_drain]
  | purge purged => simp [act, Action.empties, Action.queued?, peek_purge]
  | report reporting counts => simp [act, Action.empties, Action.queued?]
  | clear => rfl

theorem reported?_act (queue : CommandQueue) (action : Action) (id : String) :
    (queue.act action).reported? id =
      if action.forgets id then none else (action.counts? id).or (queue.reported? id) := by
  cases action with
  | add added command now => rfl
  | drain drained => rfl
  | purge purged => simp [act, Action.forgets, Action.counts?, reported?_purge]
  | report reporting counts =>
    simp only [act, Action.forgets, Action.counts?, reported?_recordHeld, Bool.false_eq_true, if_false]
    by_cases hreporting : reporting = id <;> simp [hreporting]
  | clear => rfl

theorem after_concat (queue : CommandQueue) (actions : List Action) (action : Action) :
    queue.after (actions ++ [action]) = (queue.after actions).act action := by
  rw [after, List.foldl_append]
  rfl

/-- What waits is what was queued since the queue was last emptied. -/
theorem peek_after (actions : List Action) (id : String) : (empty.after actions).peek id = queuedSince actions id := by
  induction actions using List.reverseRecOn with
  | nil => rfl
  | append_singleton actions action ih =>
    rw [after_concat, peek_act, ih]
    exact (filterMap_since_concat _ _ _ _).symm

/-- What a datanode is said to hold is its last report since it was last forgotten. -/
theorem reported?_after (actions : List Action) (id : String) :
    (empty.after actions).reported? id = lastReport? actions id := by
  induction actions using List.reverseRecOn with
  | nil => rfl
  | append_singleton actions action ih =>
    have hconcat := filterMap_since_concat (Action.forgets id) (Action.counts? id) actions action
    rw [after_concat, reported?_act, ih, lastReport?, lastReport?, hconcat]
    cases action.forgets id with
    | true => rfl
    | false =>
      simp only [Bool.false_eq_true, if_false, List.getLast?_append]
      cases action.counts? id <;> rfl

/-! ## Sums -/

theorem countOf_name (queue : CommandQueue) (id : String) (kind : CommandKind) :
    queue.countOf id kind.name = (queue.peek id).countP fun queued ↦ queued.command.kind = kind := by
  unfold countOf
  rw [List.countP_eq_length_filter]
  simp only [CommandKind.name_eq_name_iff]

/-- Each command in a line is of one kind. -/
theorem sum_countP_kind (waiting : List QueuedCommand) :
    (CommandKind.all.map fun kind ↦ waiting.countP fun queued ↦ queued.command.kind = kind).sum = waiting.length := by
  induction waiting with
  | nil => rfl
  | cons queued rest ih =>
    simp only [List.countP_cons, decide_eq_true_eq, List.sum_map_add, ih, CommandKind.sum_all_eq_one, List.length_cons]

theorem sum_countOf (queue : CommandQueue) (id : String) :
    (CommandKind.all.map fun kind ↦ queue.countOf id kind.name).sum = queue.count id := by
  simp only [countOf_name]
  exact sum_countP_kind (queue.peek id)

theorem total_eq_sum_keys (queue : CommandQueue) : queue.total = (queue.queues.keys.map queue.count).sum := by
  unfold total OrderedMap.values OrderedMap.keys
  rw [List.length_flatten, List.map_map, List.map_map]
  refine congrArg List.sum (List.map_congr_left fun entry hentry ↦ ?_)
  have hstored : queue.queues.get? entry.1 = some entry.2 := (queue.queues.get?_eq_some_iff _ _).mpr hentry
  simp only [Function.comp_apply, count, peek, hstored, Option.getD_some]

theorem support_count_subset (queue : CommandQueue) :
    Function.support queue.count ⊆ (queue.queues.keys.toFinset : Set String) := by
  intro id hid
  have hkey : id ∈ queue.queues.keys := by
    rw [← OrderedMap.contains_iff_mem_keys]
    by_contra habsent
    have hnone : queue.queues.get? id = none := by simpa [OrderedMap.contains] using habsent
    exact hid (by simp only [count, peek, hnone, Option.getD_none, List.length_nil])
  exact Finset.mem_coe.mpr (List.mem_toFinset.mpr hkey)

theorem total_eq_finsum (queue : CommandQueue) : queue.total = ∑ᶠ id, queue.count id := by
  rw [finsum_eq_sum_of_support_subset _ queue.support_count_subset, List.sum_toFinset _ queue.queues.nodup_keys]
  exact queue.total_eq_sum_keys

/-- The total is the sum over any datanodes outside of which nothing waits. -/
theorem total_eq_sum {ids : Finset String} (h : ∀ id, id ∉ ids → queue.count id = 0) :
    queue.total = ∑ id ∈ ids, queue.count id := by
  rw [total_eq_finsum]
  refine finsum_eq_sum_of_support_subset _ fun id hid ↦ ?_
  by_contra habsent
  exact hid (h id habsent)

/-- What one datanode loses is what the total loses. -/
theorem total_add_count (hgone : left.count id = 0)
    (hkept : ∀ other, id ≠ other → left.count other = queue.count other) :
    left.total + queue.count id = queue.total := by
  -- The sums are taken over one set for both, which the datanode itself must be in to be taken out.
  let ids := insert id queue.queues.keys.toFinset
  have hmem (other : String) (hcount : queue.count other ≠ 0) : other ∈ ids :=
    Finset.mem_insert_of_mem (queue.support_count_subset hcount)
  have hbefore : queue.total = ∑ other ∈ ids, queue.count other := by
    refine total_eq_sum fun other hother ↦ ?_
    by_contra hcount
    exact hother (hmem other hcount)
  have hafter : left.total = ∑ other ∈ ids.erase id, left.count other := by
    refine total_eq_sum fun other hother ↦ ?_
    by_cases hsame : id = other
    · exact hsame ▸ hgone
    · rw [hkept other hsame]
      by_contra hcount
      exact hother (Finset.mem_erase.mpr ⟨Ne.symm hsame, hmem other hcount⟩)
  calc
    left.total + queue.count id = ∑ other ∈ ids.erase id, left.count other + queue.count id := by rw [hafter]
    _ = ∑ other ∈ ids.erase id, queue.count other + queue.count id := by
      congr 1
      exact Finset.sum_congr rfl fun other hother ↦ hkept other (Ne.symm (Finset.ne_of_mem_erase hother))
    _ = ∑ other ∈ ids, queue.count other := Finset.sum_erase_add ids _ (Finset.mem_insert_self id _)
    _ = queue.total := hbefore.symm

theorem count_purge (queue : CommandQueue) (purged id : String) :
    (queue.purge purged).1.count id = if purged = id then 0 else queue.count id := by
  unfold count
  rw [peek_purge]
  split <;> rfl

theorem total_purge (queue : CommandQueue) (id : String) :
    (queue.purge id).1.total + (queue.purge id).2 = queue.total :=
  total_add_count (by rw [count_purge, if_pos rfl]) fun other hother ↦ by rw [count_purge, if_neg hother]

/-! ## One datanode and another -/

/-- Two states of the queues say the same about one datanode. -/
structure AgreesAt (queue other : CommandQueue) (id : String) : Prop where
  peek : queue.peek id = other.peek id
  count : queue.count id = other.count id
  countOf : ∀ kind, queue.countOf id kind = other.countOf id kind
  heldOf : ∀ kind, queue.heldOf id kind = other.heldOf id kind
  pendingOf : ∀ kind, queue.pendingOf id kind = other.pendingOf id kind

theorem agreesAt_of {other : CommandQueue} (hpeek : queue.peek id = other.peek id)
    (hreported : queue.reported? id = other.reported? id) : queue.AgreesAt other id := by
  have hcountOf (kind : String) : queue.countOf id kind = other.countOf id kind := by rw [countOf, countOf, hpeek]
  have hheldOf (kind : String) : queue.heldOf id kind = other.heldOf id kind :=
    congrArg (fun counts : Option HeldCounts ↦ (counts.bind (Association.find? kind)).getD 0) hreported
  exact {
    peek := hpeek
    count := congrArg List.length hpeek
    countOf := hcountOf
    heldOf := hheldOf
    pendingOf := fun kind ↦ by rw [pendingOf, pendingOf, hcountOf, hheldOf] }

theorem Action.spares {action : Action} (hon : action.datanode? = some on) (hother : on ≠ id) :
    action.empties id = false ∧ action.queued? id = none ∧ action.forgets id = false ∧ action.counts? id = none := by
  cases action with
  | clear => cases hon
  | _ =>
    obtain rfl := Option.some.inj hon
    simp [empties, queued?, forgets, counts?, hother]

theorem agreesAt_act (queue : CommandQueue) {action : Action} (hon : action.datanode? = some on) (hother : on ≠ id) :
    (queue.act action).AgreesAt queue id := by
  obtain ⟨hempties, hqueued, hforgets, hcounts⟩ := Action.spares hon hother
  refine agreesAt_of ?_ ?_
  · rw [peek_act, hempties, hqueued]
    exact List.append_nil _
  · rw [reported?_act, hforgets, hcounts]
    rfl

/-- The counters of the queues say what past actions make of them. -/
structure Counts (queue : CommandQueue) (past : List Action) : Prop where
  waiting : ∀ id, queue.peek id = queuedSince past id
  count : ∀ id, queue.count id = (queue.peek id).length
  ofKind : ∀ id (kind : CommandKind),
    queue.countOf id kind.name = (queue.peek id).countP fun queued ↦ queued.command.kind = kind
  overKinds : ∀ id, (CommandKind.all.map fun kind ↦ queue.countOf id kind.name).sum = queue.count id
  finite : (Function.support queue.count).Finite
  total : queue.total = ∑ᶠ id, queue.count id
  pending : ∀ id (kind : CommandKind),
    queue.pendingOf id kind.name = Number.ofNat (queue.countOf id kind.name) + reportedCount past id kind

theorem counts_after (actions : List Action) : (empty.after actions).Counts actions where
  waiting := peek_after actions
  count _ := rfl
  ofKind := countOf_name _
  overKinds := sum_countOf _
  finite := (Finset.finite_toSet _).subset (support_count_subset _)
  total := total_eq_finsum _
  pending id kind := by
    rw [pendingOf, reportedCount, ← reported?_after]
    rfl

/-- After any actions, what waits for a datanode is what was queued for it since it was last drained, purged or cleared,
in order of arrival.  Its count is the length of that and the sum of the counts over the kinds of commands; the total is
the sum over all datanodes; and what is pending of a kind adds what the datanode last reported since it was last purged
or cleared.  A purge hands back the number of commands that it drops, a drain leaves the reported counts, and no action
on one datanode changes what is said about another. -/
theorem counters_after (actions : List Action) :
    let queue := empty.after actions
    queue.Counts actions ∧
    (∀ id, (queue.purge id).2 = queue.count id ∧ (queue.purge id).1.count id = 0 ∧
      (queue.purge id).1.total + (queue.purge id).2 = queue.total) ∧
    (∀ drained id kind, (queue.drain drained).1.heldOf id kind = queue.heldOf id kind) ∧
    ∀ action on id, action.datanode? = some on → on ≠ id → (queue.act action).AgreesAt queue id := by
  intro queue
  refine ⟨counts_after actions, fun id ↦ ⟨rfl, ?_, queue.total_purge id⟩, fun _ _ _ ↦ rfl,
    fun action on id hon hother ↦ queue.agreesAt_act hon hother⟩
  rw [count_purge, if_pos rfl]

/-- A drain leaves what was reported, and the second report of a datanode counts in place of the first. -/
theorem counters_after_drain_and_reports :
    let command (kind : CommandKind) := Command.issue kind (.object []) 0
    let actions : List Action :=
      [.add "dn1" (command .closeContainer) 1, .report "dn1" [("closeContainerCommand", 7)],
        .add "dn2" (command .deleteBlocks) 2, .report "dn1" [("deleteBlocksCommand", 4)], .drain "dn1",
        .add "dn1" (command .deleteBlocks) 3, .add "dn1" (command .closeContainer) 4]
    let queue := empty.after actions
    queue.peek "dn1" = [⟨"dn1", command .deleteBlocks, 3⟩, ⟨"dn1", command .closeContainer, 4⟩] ∧
      queue.pendingOf "dn1" "deleteBlocksCommand" = 5 ∧ queue.pendingOf "dn1" "closeContainerCommand" = 1 ∧
      queue.total = 3 ∧ (queue.purge "dn1").1.total + 2 = queue.total ∧
      (queue.act (.purge "dn1")).AgreesAt queue "dn2" := by
  intro command actions queue
  obtain ⟨hcounts, hpurge, -, hlocal⟩ := counters_after actions
  have hdropped : (queue.purge "dn1").2 = 2 := by decide
  refine ⟨(hcounts.waiting "dn1").trans (by decide), (hcounts.pending "dn1" .deleteBlocks).trans (by decide +kernel),
    (hcounts.pending "dn1" .closeContainer).trans (by decide +kernel), by decide, ?_,
    hlocal (.purge "dn1") "dn1" "dn2" rfl (by decide)⟩
  exact hdropped ▸ (hpurge "dn1").2.2

end CommandQueue

end ClusterMembership
