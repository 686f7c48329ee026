import ClusterMembership.Lock.Line
import ClusterMembership.Lock.Tail
import Mathlib.Data.List.Chain
import Mathlib.Data.List.Nodup

/-!
# Chained tails keep the lines

The requests for a lock that have not been released form a chain (`LockTails.Chained`): the first of them waits for
nothing, each other one was chained to the one before it, and the tail that is kept is the tail of the last.  A new
request is put at the end of the chain; the release of the first lets exactly the second go on, and the tail that is
kept is given up exactly when no other request is left.  So chained tails answer as lines do that are joined by who asks
and left by who releases (`LockTails.Alike.answers`).
-/

namespace ClusterMembership

/-- In a chain, what is not first is related to what stands before it. -/
theorem exists_before_of_mem_tail {α : Type} {r : α → α → Prop} {chain : List α} (hchain : chain.IsChain r) {last : α}
    (hmem : last ∈ chain.tail) : ∃ before ∈ chain, r before last := by
  induction chain with
  | nil => cases hmem
  | cons first rest ih =>
    obtain ⟨hfirst, hrest⟩ := List.isChain_cons.mp hchain
    cases rest with
    | nil => cases hmem
    | cons second others =>
      obtain rfl | hmem := List.mem_cons.mp hmem
      · exact ⟨first, List.mem_cons_self, hfirst last rfl⟩
      · obtain ⟨before, hbefore, hr⟩ := ih hrest hmem
        exact ⟨before, List.mem_cons_of_mem first hbefore, hr⟩

def LockRequest.isPendingFor (request : LockRequest) (id : String) : Bool := request.id = id && !request.released

theorem LockRequest.isPendingFor_iff (request : LockRequest) (id : String) :
    request.isPendingFor id = true ↔ request.id = id ∧ request.released = false := by
  simp [LockRequest.isPendingFor]

namespace LockTails

/-- The tasks whose requests for a lock have not been released, in the order in which they asked. -/
def line (locks : LockTails) (id : String) : List Nat :=
  (locks.requests.filter fun request ↦ request.isPendingFor id).map LockRequest.task

def pending (locks : LockTails) (id : String) : List Nat :=
  (List.range locks.requests.length).filter fun number ↦
    (locks.requests[number]?).any fun request ↦ request.isPendingFor id

/-- Who made a request. -/
def taskOf (locks : LockTails) (number : Nat) : Nat := ((locks.requests[number]?).map LockRequest.task).getD 0

def previous? (locks : LockTails) (number : Nat) : Option Nat := (locks.requests[number]?).bind LockRequest.previous

def IsReleased (locks : LockTails) (number : Nat) : Prop :=
  ∃ request, locks.requests[number]? = some request ∧ request.released = true

/-- A request that was chained to no other, or to an earlier one that has been released. -/
def Unblocked (locks : LockTails) (number : Nat) : Prop :=
  ∀ previous, locks.previous? number = some previous → previous < number ∧ locks.IsReleased previous

/-- The requests for every lock that have not been released are chained, the first to nothing that is left, and the
tail that is kept is that of the last. -/
structure Chained (locks : LockTails) : Prop where
  released : ∀ {number}, locks.IsReleased number → locks.Unblocked number
  first : ∀ {id number}, (locks.pending id).head? = some number → locks.Unblocked number
  chain : ∀ id, (locks.pending id).IsChain fun earlier later ↦ locks.previous? later = some earlier
  kept : ∀ id, locks.tails.get? id = (locks.pending id).getLast?

/-! ## Requests that have not been released -/

section Pending

variable {locks : LockTails} {id : String} {number : Nat}

theorem mem_pending : number ∈ locks.pending id ↔
    ∃ request, locks.requests[number]? = some request ∧ request.id = id ∧ request.released = false := by
  rw [pending, List.mem_filter, List.mem_range, Option.any_eq_true]
  constructor
  · rintro ⟨-, request, hrequest, hpending⟩
    exact ⟨request, hrequest, (request.isPendingFor_iff id).mp hpending⟩
  · rintro ⟨request, hrequest, hpending⟩
    exact ⟨(List.getElem?_eq_some_iff.mp hrequest).1, request, hrequest, (request.isPendingFor_iff id).mpr hpending⟩

theorem lt_length_of_mem (hmem : number ∈ locks.pending id) : number < locks.requests.length := by
  obtain ⟨request, hrequest, -⟩ := mem_pending.mp hmem
  exact (List.getElem?_eq_some_iff.mp hrequest).1

theorem pairwise_pending (locks : LockTails) (id : String) : (locks.pending id).Pairwise (· < ·) :=
  List.pairwise_lt_range.filter _

theorem nodup_pending (locks : LockTails) (id : String) : (locks.pending id).Nodup :=
  List.nodup_range.filter _

theorem not_isReleased_of_mem (hmem : number ∈ locks.pending id) : ¬ locks.IsReleased number := by
  obtain ⟨request, hrequest, -, hfalse⟩ := mem_pending.mp hmem
  rintro ⟨other, hother, htrue⟩
  obtain rfl := Option.some.inj (hrequest.symm.trans hother)
  exact Bool.false_ne_true (hfalse.symm.trans htrue)

theorem id_unique {other : String} (hmem : number ∈ locks.pending id) (hother : number ∈ locks.pending other) :
    id = other := by
  obtain ⟨request, hrequest, rfl, -⟩ := mem_pending.mp hmem
  obtain ⟨same, hsame, rfl, -⟩ := mem_pending.mp hother
  exact congrArg LockRequest.id (Option.some.inj (hrequest.symm.trans hsame))

theorem line_eq_map (locks : LockTails) (id : String) : locks.line id = (locks.pending id).map locks.taskOf := by
  have hall : (List.range locks.requests.length).map (fun number ↦ locks.requests.getD number default) =
      locks.requests := by
    refine List.ext_getElem (by simp) fun number h h' ↦ ?_
    simp [List.getElem?_eq_getElem h']
  calc locks.line id
      = ((((List.range locks.requests.length).map fun number ↦ locks.requests.getD number default).filter
          fun request ↦ request.isPendingFor id)).map LockRequest.task := by rw [hall, line]
    _ = ((List.range locks.requests.length).filter fun number ↦
          (locks.requests.getD number default).isPendingFor id).map
            fun number ↦ (locks.requests.getD number default).task := by rw [List.filter_map, List.map_map]; rfl
    _ = (locks.pending id).map locks.taskOf := by
      have hfilter : (List.range locks.requests.length).filter (fun number ↦
          (locks.requests.getD number default).isPendingFor id) = locks.pending id :=
        List.filter_congr fun number hnumber ↦ by
          simp [List.getElem?_eq_getElem (List.mem_range.mp hnumber)]
      rw [hfilter]
      refine List.map_congr_left fun number hnumber ↦ ?_
      obtain ⟨request, hrequest, -⟩ := mem_pending.mp hnumber
      simp [taskOf, hrequest]

theorem line_eq_nil_iff : locks.line id = [] ↔ locks.pending id = [] := by
  rw [line_eq_map, List.map_eq_nil_iff]

end Pending

/-! ## Asking and releasing -/

section Changes

variable (locks : LockTails) (changed id : String) (number other task : Nat)

theorem line_ask : (locks.ask changed task).line id =
    if changed = id then locks.line id ++ [task] else locks.line id := by
  rw [line, ask, List.filter_append, List.map_append, line]
  by_cases h : changed = id
  · simp [h, LockRequest.isPendingFor]
  · simp [h, LockRequest.isPendingFor]

theorem getElem?_ask_of_ne (h : other ≠ locks.requests.length) :
    (locks.ask changed task).requests[other]? = locks.requests[other]? := by
  rw [ask]
  obtain hlt | hgt := Nat.lt_or_gt_of_ne h
  · exact List.getElem?_append_left hlt
  · rw [List.getElem?_eq_none (Nat.le_of_lt hgt), List.getElem?_eq_none]
    rw [List.length_append]
    exact hgt

theorem pending_ask : (locks.ask changed task).pending id =
    if changed = id then locks.pending id ++ [locks.requests.length] else locks.pending id := by
  have hold : (List.range locks.requests.length).filter (fun number ↦
      ((locks.ask changed task).requests[number]?).any fun request ↦ request.isPendingFor id) = locks.pending id :=
    List.filter_congr fun number hnumber ↦ by
      rw [locks.getElem?_ask_of_ne changed number task (Nat.ne_of_lt (List.mem_range.mp hnumber))]
  rw [pending, show (locks.ask changed task).requests.length = locks.requests.length + 1 from List.length_append,
    List.range_succ, List.filter_append, hold]
  by_cases h : changed = id
  · simp [h, ask, LockRequest.isPendingFor]
  · simp [h, ask, LockRequest.isPendingFor]

theorem previous?_ask_of_ne (h : other ≠ locks.requests.length) :
    (locks.ask changed task).previous? other = locks.previous? other := by
  rw [previous?, getElem?_ask_of_ne locks changed other task h, previous?]

/-- A request is chained to the one whose tail was kept. -/
theorem previous?_ask_self :
    (locks.ask changed task).previous? locks.requests.length = locks.tails.get? changed := by
  rw [previous?, ask, List.getElem?_concat_length, Option.bind_some]

theorem IsReleased.ask {locks : LockTails} {other : Nat} (h : locks.IsReleased other) (changed : String) (task : Nat) :
    (locks.ask changed task).IsReleased other := by
  obtain ⟨request, hrequest, htrue⟩ := h
  have hlt := (List.getElem?_eq_some_iff.mp hrequest).1
  exact ⟨request, (locks.getElem?_ask_of_ne changed other task (Nat.ne_of_lt hlt)).trans hrequest, htrue⟩

theorem getElem?_release : (locks.release changed number).requests[other]? =
    (locks.requests[other]?).map fun request ↦
      if number = other then { request with released := true } else request :=
  List.getElem?_modify _ _ _ _

theorem previous?_release : (locks.release changed number).previous? other = locks.previous? other := by
  rw [previous?, getElem?_release, previous?]
  cases locks.requests[other]? with
  | none => rfl
  | some request => by_cases h : number = other <;> simp [h]

theorem taskOf_release : (locks.release changed number).taskOf other = locks.taskOf other := by
  rw [taskOf, getElem?_release, taskOf]
  cases locks.requests[other]? with
  | none => rfl
  | some request => by_cases h : number = other <;> simp [h]

theorem isReleased_release : (locks.release changed number).IsReleased other ↔
    locks.IsReleased other ∨ number = other ∧ other < locks.requests.length := by
  unfold IsReleased
  rw [getElem?_release]
  constructor
  · rintro ⟨request, hrequest, hreleased⟩
    obtain ⟨old, hold, rfl⟩ := Option.map_eq_some_iff.mp hrequest
    by_cases h : number = other
    · exact .inr ⟨h, (List.getElem?_eq_some_iff.mp hold).1⟩
    · rw [if_neg h] at hreleased
      exact .inl ⟨old, hold, hreleased⟩
  · rintro (⟨request, hrequest, hreleased⟩ | ⟨rfl, hlt⟩)
    · refine ⟨_, congrArg _ hrequest, ?_⟩
      split
      · rfl
      · exact hreleased
    · refine ⟨_, congrArg _ (List.getElem?_eq_getElem hlt), ?_⟩
      dsimp only
      rw [if_pos rfl]

theorem pending_release : (locks.release changed number).pending id =
    (locks.pending id).filter fun other ↦ number ≠ other := by
  rw [pending, show (locks.release changed number).requests.length = locks.requests.length from List.length_modify ..,
    pending, List.filter_filter]
  refine List.filter_congr fun other _ ↦ ?_
  rw [getElem?_release]
  cases locks.requests[other]? with
  | none => simp
  | some request => by_cases h : number = other <;> simp [h, LockRequest.isPendingFor]

end Changes

theorem isReleased_release_self {locks : LockTails} {id : String} {number : Nat} (hmem : number ∈ locks.pending id) :
    (locks.release id number).IsReleased number :=
  (locks.isReleased_release id number number).mpr (.inr ⟨rfl, lt_length_of_mem hmem⟩)

/-- Who is found to wait for a tail, where at most one request was chained to it. -/
theorem find?_previous_eq {locks : LockTails} {number : Nat} {next : Option Nat}
    (hnext : ∀ other, locks.previous? other = some number ↔ next = some other) :
    (locks.requests.find? fun request ↦ request.previous = some number).map LockRequest.task =
      next.map locks.taskOf := by
  cases hfound : locks.requests.find? fun request ↦ request.previous = some number with
  | none =>
    cases next with
    | none => rfl
    | some other =>
      obtain ⟨request, hrequest, hprevious⟩ := Option.bind_eq_some_iff.mp ((hnext other).mpr rfl)
      have hnone := List.find?_eq_none.mp hfound request (List.mem_of_getElem? hrequest)
      exact absurd (decide_eq_true hprevious) hnone
  | some request =>
    obtain ⟨other, hrequest⟩ := List.mem_iff_getElem?.mp (List.mem_of_find?_eq_some hfound)
    have hprevious : request.previous = some number := by simpa using List.find?_some hfound
    rw [(hnext other).mp (Option.bind_eq_some_iff.mpr ⟨request, hrequest, hprevious⟩), Option.map_some,
      Option.map_some, taskOf, hrequest, Option.map_some, Option.getD_some]

/-- When the first of the requests for a lock is released, the others are left. -/
theorem pending_release_of_head {locks : LockTails} {id : String} {number : Nat}
    (hhead : (locks.pending id).head? = some number) (other : String) :
    (locks.release id number).pending other =
      if id = other then (locks.pending other).tail else locks.pending other := by
  rw [pending_release]
  obtain ⟨rest, hcons⟩ := List.head?_eq_some_iff.mp hhead
  have hmem : number ∈ locks.pending id := hcons ▸ List.mem_cons_self
  by_cases h : id = other
  · subst h
    have hnot : number ∉ rest := (List.nodup_cons.mp (hcons ▸ locks.nodup_pending id)).1
    rw [if_pos rfl, hcons, List.filter_cons_of_neg (by simp), List.tail_cons, List.filter_eq_self]
    intro later hlater
    rw [decide_eq_true_eq]
    rintro rfl
    exact hnot hlater
  · rw [if_neg h, List.filter_eq_self]
    intro later hlater
    rw [decide_eq_true_eq]
    rintro rfl
    exact h (id_unique hmem hlater)

theorem line_release_of_head {locks : LockTails} {id : String} {number : Nat}
    (hhead : (locks.pending id).head? = some number) (other : String) :
    (locks.release id number).line other = if id = other then (locks.line other).tail else locks.line other := by
  have htasks : (locks.release id number).taskOf = locks.taskOf := funext (locks.taskOf_release id number)
  rw [line_eq_map, pending_release_of_head hhead, htasks, line_eq_map]
  split
  · exact List.map_tail
  · rfl

/-! ## Chains -/

/-- Where requests are released only when the ones that they were chained to have been, a tail is resolved as soon as
its request is released. -/
theorem resolutions_eq {requests : List LockRequest}
    (hreleased : ∀ {number : Nat} {request : LockRequest}, requests[number]? = some request →
      request.released = true → ∀ previous, request.previous = some previous →
        previous < number ∧ ∃ earlier, requests[previous]? = some earlier ∧ earlier.released = true) :
    resolutions requests = requests.map LockRequest.released := by
  induction requests using List.reverseRecOn with
  | nil => rfl
  | append_singleton requests last ih =>
    have hbefore : resolutions requests = requests.map LockRequest.released := by
      refine ih fun {number request} hrequest htrue previous hprevious ↦ ?_
      have hlt := (List.getElem?_eq_some_iff.mp hrequest).1
      obtain ⟨hearlier, earlier, hfound, hdone⟩ :=
        hreleased ((List.getElem?_append_left hlt).trans hrequest) htrue previous hprevious
      rw [List.getElem?_append_left (hearlier.trans hlt)] at hfound
      exact ⟨hearlier, earlier, hfound, hdone⟩
    have hlast : resolutions (requests ++ [last]) = resolutions requests ++
        [last.released && last.previous.all fun number ↦ (resolutions requests).getD number false] := by
      rw [resolutions, List.foldl_append]
      rfl
    rw [hlast, hbefore, List.map_append, List.map_singleton]
    cases htrue : last.released with
    | false => rfl
    | true =>
      have hall : (last.previous.all fun number ↦ (requests.map LockRequest.released).getD number false) = true := by
        rw [Option.all_eq_true]
        intro previous hprevious
        obtain ⟨hearlier, earlier, hfound, hdone⟩ :=
          hreleased List.getElem?_concat_length htrue previous hprevious
        rw [List.getElem?_append_left hearlier] at hfound
        simp [hfound, hdone]
      rw [hall, Bool.and_true]

namespace Chained

variable {locks : LockTails} {id : String} {number : Nat}

theorem empty : ({} : LockTails).Chained where
  released := nofun
  first := nofun
  chain _ := .nil
  kept _ := rfl

theorem isResolved_iff (h : locks.Chained) : locks.isResolved number = true ↔ locks.IsReleased number := by
  have hresolutions : resolutions locks.requests = locks.requests.map LockRequest.released :=
    resolutions_eq fun {number request} hrequest htrue previous hprevious ↦
      h.released ⟨request, hrequest, htrue⟩ previous (by rw [previous?, hrequest]; exact hprevious)
  rw [isResolved, hresolutions, List.getD_eq_getElem?_getD, List.getElem?_map, IsReleased]
  cases locks.requests[number]? with
  | none => simp
  | some request => simp

/-- Of the requests for a lock that have not been released, the first and only the first goes on. -/
theorem isAdmitted_iff (h : locks.Chained) (hmem : number ∈ locks.pending id) :
    locks.isAdmitted number = true ↔ (locks.pending id).head? = some number := by
  obtain ⟨request, hrequest, -⟩ := mem_pending.mp hmem
  have hprevious : locks.previous? number = request.previous := by rw [previous?, hrequest, Option.bind_some]
  have hadmitted : locks.isAdmitted number = true ↔
      ∀ previous, locks.previous? number = some previous → locks.IsReleased previous := by
    rw [isAdmitted, hrequest, Option.any_some, Option.all_eq_true, hprevious]
    exact forall₂_congr fun previous _ ↦ h.isResolved_iff
  rw [hadmitted]
  constructor
  · intro hall
    obtain ⟨first, rest, hcons⟩ := List.exists_cons_of_ne_nil (List.ne_nil_of_mem hmem)
    rw [hcons, List.head?_cons]
    by_contra hne
    have htail : number ∈ (locks.pending id).tail := by
      rw [hcons] at hmem ⊢
      exact (List.mem_cons.mp hmem).resolve_left fun heq ↦ hne (congrArg some heq.symm)
    obtain ⟨before, hbefore, hchained⟩ := exists_before_of_mem_tail (h.chain id) htail
    exact not_isReleased_of_mem hbefore (hall before hchained)
  · intro hhead previous hprevious
    exact (h.first hhead previous hprevious).2

theorem isLocked_iff (h : locks.Chained) : locks.isLocked id = true ↔ locks.line id ≠ [] := by
  rw [isLocked, OrderedMap.contains, h.kept, List.getLast?_isSome, ne_eq, ne_eq, line_eq_nil_iff]

/-- When no one stands in any line, no tail is kept. -/
theorem tails_eq_empty (h : locks.Chained) (hall : ∀ id, locks.line id = []) : locks.tails = .empty := by
  have hnone (id : String) : locks.tails.get? id = none := by
    rw [h.kept, line_eq_nil_iff.mp (hall id), List.getLast?_nil]
  obtain ⟨requests, ⟨entries, distinct⟩⟩ := locks
  cases entries with
  | nil => rfl
  | cons entry rest =>
    have hentry := hnone entry.1
    simp [OrderedMap.get?, Association.find?] at hentry

/-- A request is put at the end of the chain. -/
theorem ask (h : locks.Chained) (asked : String) (task : Nat) : (locks.ask asked task).Chained := by
  have hold {number : Nat} (hne : number ≠ locks.requests.length) (hunblocked : locks.Unblocked number) :
      (locks.ask asked task).Unblocked number := fun previous hprevious ↦ by
    rw [previous?_ask_of_ne locks asked number task hne] at hprevious
    exact (hunblocked previous hprevious).imp_right fun hreleased ↦ hreleased.ask asked task
  have hbefore {id : String} {number : Nat} (hmem : number ∈ locks.pending id) : number ≠ locks.requests.length :=
    Nat.ne_of_lt (lt_length_of_mem hmem)
  have hchain (id : String) : (locks.pending id).IsChain fun earlier later ↦
      (locks.ask asked task).previous? later = some earlier :=
    (h.chain id).imp_of_mem_imp fun earlier later _ hlater hprevious ↦
      (previous?_ask_of_ne locks asked later task (hbefore hlater)).trans hprevious
  refine ⟨fun {number} hreleased ↦ ?_, fun {id number} hhead ↦ ?_, fun id ↦ ?_, fun id ↦ ?_⟩
  · obtain ⟨request, hrequest, htrue⟩ := hreleased
    have hne : number ≠ locks.requests.length := by
      rintro rfl
      rw [LockTails.ask, List.getElem?_concat_length] at hrequest
      rw [← Option.some.inj hrequest] at htrue
      exact Bool.false_ne_true htrue
    rw [getElem?_ask_of_ne locks asked number task hne] at hrequest
    exact hold hne (h.released ⟨request, hrequest, htrue⟩)
  · rw [pending_ask] at hhead
    split at hhead
    · next heq =>
      subst heq
      cases hpending : locks.pending asked with
      | nil =>
        rw [hpending] at hhead
        obtain rfl := Option.some.inj hhead
        intro previous hprevious
        rw [previous?_ask_self, h.kept, hpending] at hprevious
        cases hprevious
      | cons first rest =>
        rw [hpending] at hhead
        obtain rfl := Option.some.inj hhead
        have hfirst : (locks.pending asked).head? = some first := by rw [hpending, List.head?_cons]
        exact hold (hbefore (List.mem_of_head? hfirst)) (h.first hfirst)
    · exact hold (hbefore (List.mem_of_head? hhead)) (h.first hhead)
  · rw [pending_ask]
    split
    · next heq =>
      refine (hchain id).append (.singleton _) fun last hlast new hnew ↦ ?_
      obtain rfl := Option.some.inj hnew
      rw [previous?_ask_self, h.kept, heq]
      exact hlast
    · exact hchain id
  · rw [pending_ask, LockTails.ask, OrderedMap.get?_insert]
    split
    · rw [List.getLast?_concat]
    · exact h.kept id

/-- Who asks for a lock goes on at once exactly when no one has it. -/
theorem isAdmitted_ask_iff (h : locks.Chained) (id : String) (task : Nat) :
    (locks.ask id task).isAdmitted locks.requests.length = true ↔ locks.line id = [] := by
  have hpending : (locks.ask id task).pending id = locks.pending id ++ [locks.requests.length] := by
    rw [pending_ask, if_pos rfl]
  have hmem : locks.requests.length ∈ (locks.ask id task).pending id :=
    hpending ▸ List.mem_append_right _ List.mem_cons_self
  rw [(h.ask id task).isAdmitted_iff hmem, hpending, line_eq_nil_iff]
  cases hcons : locks.pending id with
  | nil => simp
  | cons first rest =>
    have hlt := lt_length_of_mem (hcons ▸ List.mem_cons_self : first ∈ locks.pending id)
    exact iff_of_false (fun hhead ↦ Nat.ne_of_lt hlt (Option.some.inj hhead)) (List.cons_ne_nil _ _)

/-- The first request for a lock is released: the second is now the first, and the tail that is kept is still that of
the last, or none when there is no second. -/
theorem release (h : locks.Chained) (hhead : (locks.pending id).head? = some number) :
    (locks.release id number).Chained := by
  obtain ⟨rest, hcons⟩ := List.head?_eq_some_iff.mp hhead
  have hreleased := isReleased_release_self (List.mem_of_head? hhead)
  have hold {other : Nat} (hunblocked : locks.Unblocked other) :
      (locks.release id number).Unblocked other := fun previous hprevious ↦ by
    rw [previous?_release] at hprevious
    exact (hunblocked previous hprevious).imp_right fun hbefore ↦
      (locks.isReleased_release id number previous).mpr (.inl hbefore)
  have hchain (id' : String) : (locks.pending id').IsChain fun earlier later ↦
      (locks.release id number).previous? later = some earlier :=
    (h.chain id').imp fun earlier later hprevious ↦ (locks.previous?_release id number later).trans hprevious
  refine ⟨fun {other} hother ↦ ?_, fun {lock other} hfirst ↦ ?_, fun lock ↦ ?_, fun lock ↦ ?_⟩
  · obtain hother | ⟨rfl, -⟩ := (locks.isReleased_release id number other).mp hother
    · exact hold (h.released hother)
    · exact hold (h.first hhead)
  · rw [pending_release_of_head hhead] at hfirst
    split at hfirst
    · next heq =>
      subst heq
      intro previous hprevious
      rw [hcons, List.tail_cons] at hfirst
      have hsecond := (hcons ▸ hchain id).rel_head? hfirst
      obtain rfl : number = previous := Option.some.inj (hsecond.symm.trans hprevious)
      have hordered := List.pairwise_cons.mp (hcons ▸ locks.pairwise_pending id)
      exact ⟨hordered.1 other (List.mem_of_head? hfirst), hreleased⟩
    · exact hold (h.first hfirst)
  · rw [pending_release_of_head hhead]
    split
    · exact (hchain lock).tail
    · exact hchain lock
  · rw [pending_release_of_head hhead, LockTails.release]
    dsimp only
    rw [h.kept, hcons]
    cases rest with
    | nil =>
      rw [List.getLast?_singleton, if_pos rfl, OrderedMap.get?_erase]
      split
      · next heq =>
        rw [← heq, hcons]
        rfl
      · exact h.kept lock
    | cons second others =>
      have hnot : number ∉ second :: others := (List.nodup_cons.mp (hcons ▸ locks.nodup_pending id)).1
      rw [List.getLast?_cons_cons, if_neg fun hlast ↦ hnot (List.mem_of_getLast? hlast), h.kept]
      split
      · next heq => rw [← heq, hcons, List.getLast?_cons_cons, List.tail_cons]
      · rfl

/-- Chained to the first of the requests for a lock that have not been released is the second of them, and no other. -/
theorem previous?_eq_some_iff (h : locks.Chained) {rest : List Nat} (hcons : locks.pending id = number :: rest)
    (other : Nat) : locks.previous? other = some number ↔ rest.head? = some other := by
  constructor
  · intro hprevious
    have hmem : number ∈ locks.pending id := hcons ▸ List.mem_cons_self
    have hblocked : ¬ locks.Unblocked other := fun hunblocked ↦
      not_isReleased_of_mem hmem (hunblocked number hprevious).2
    obtain ⟨request, hrequest, -⟩ := Option.bind_eq_some_iff.mp hprevious
    have hpending : other ∈ locks.pending request.id := by
      refine mem_pending.mpr ⟨request, hrequest, rfl, ?_⟩
      rw [← Bool.not_eq_true]
      exact fun htrue ↦ hblocked (h.released ⟨request, hrequest, htrue⟩)
    have hbefore {chain : List Nat} (hchain : chain.IsChain fun earlier later ↦ locks.previous? later = some earlier)
        (hother : other ∈ chain) (hhead : chain.head? ≠ some other) : number ∈ chain := by
      have htail : other ∈ chain.tail := by
        cases chain with
        | nil => cases hother
        | cons first rest => exact (List.mem_cons.mp hother).resolve_left fun heq ↦ hhead (congrArg some heq.symm)
      obtain ⟨before, hbefore, hchained⟩ := exists_before_of_mem_tail hchain htail
      rwa [Option.some.inj (hprevious.symm.trans hchained)]
    have hid : request.id = id :=
      id_unique (hbefore (h.chain request.id) hpending fun hhead ↦ hblocked (h.first hhead)) hmem
    rw [hid, hcons] at hpending
    have hne : other ≠ number := by
      rintro rfl
      exact hblocked (h.first (hcons ▸ List.head?_cons))
    have hrest : other ∈ rest := (List.mem_cons.mp hpending).resolve_left hne
    by_contra hhead
    exact (List.nodup_cons.mp (hcons ▸ locks.nodup_pending id)).1
      (hbefore (hcons ▸ h.chain id).tail hrest hhead)
  · intro hhead
    exact (hcons ▸ h.chain id).rel_head? hhead

/-- The second in the line, and no one else, goes on when the first has been released. -/
theorem successor?_release (h : locks.Chained) (hhead : (locks.pending id).head? = some number) :
    (locks.release id number).successor? number = (locks.line id).tail.head? := by
  obtain ⟨rest, hcons⟩ := List.head?_eq_some_iff.mp hhead
  have hresolved : (locks.release id number).isResolved number = true :=
    (h.release hhead).isResolved_iff.mpr (isReleased_release_self (List.mem_of_head? hhead))
  have hnext (other : Nat) : (locks.release id number).previous? other = some number ↔ rest.head? = some other := by
    rw [previous?_release, h.previous?_eq_some_iff hcons]
  rw [successor?, if_pos hresolved, find?_previous_eq hnext, funext (locks.taskOf_release id number), line_eq_map,
    hcons, List.map_cons, List.tail_cons, List.head?_map]

end Chained

/-! ## Requests of a task -/

/-- A request for a lock that a task has made and not released. -/
def IsMadeBy (locks : LockTails) (number : Nat) (id : String) (task : Nat) : Prop :=
  number ∈ locks.pending id ∧ locks.taskOf number = task

namespace IsMadeBy

variable {locks : LockTails} {id : String} {number task : Nat}

/-- Where no task stands in a line twice, the request of the first task is the first request. -/
theorem head? (h : locks.IsMadeBy number id task) (hnodup : (locks.line id).Nodup)
    (hhead : (locks.line id).head? = some task) : (locks.pending id).head? = some number := by
  obtain ⟨hmem, rfl⟩ := h
  rw [line_eq_map] at hnodup hhead
  cases hcons : locks.pending id with
  | nil => simp [hcons] at hmem
  | cons first rest =>
    rw [hcons, List.map_cons] at hnodup hhead
    obtain rfl | hrest := List.mem_cons.mp (hcons ▸ hmem)
    · rfl
    · rw [List.head?_cons] at hhead
      exact absurd (Option.some.inj hhead ▸ List.mem_map_of_mem hrest) (List.nodup_cons.mp hnodup).1

theorem ask (h : locks.IsMadeBy number id task) (asked : String) (other : Nat) :
    (locks.ask asked other).IsMadeBy number id task := by
  obtain ⟨hmem, rfl⟩ := h
  refine ⟨?_, ?_⟩
  · rw [pending_ask]
    split
    · exact List.mem_append_left _ hmem
    · exact hmem
  · rw [taskOf, getElem?_ask_of_ne locks asked number other (Nat.ne_of_lt (lt_length_of_mem hmem)), taskOf]

theorem release (h : locks.IsMadeBy number id task) (released : String) {other : Nat} (hne : other ≠ number) :
    (locks.release released other).IsMadeBy number id task := by
  obtain ⟨hmem, rfl⟩ := h
  refine ⟨?_, locks.taskOf_release released other number⟩
  rw [pending_release]
  exact List.mem_filter.mpr ⟨hmem, decide_eq_true hne⟩

end IsMadeBy

theorem isMadeBy_ask (locks : LockTails) (id : String) (task : Nat) :
    (locks.ask id task).IsMadeBy locks.requests.length id task := by
  refine ⟨?_, ?_⟩
  · rw [pending_ask, if_pos rfl]
    exact List.mem_append_right _ List.mem_cons_self
  · rw [taskOf, LockTails.ask, List.getElem?_concat_length, Option.map_some, Option.getD_some]

/-! ## Tails and lines -/

/-- Tails and lines that have been changed alike since no one had asked for a lock: who asks joins the line, and a task
that went on and releases its request leaves the line. -/
inductive Alike : LockTails → LockLines → Prop where
  | start : Alike {} .empty
  | ask {tails : LockTails} {lines : LockLines} (id : String) (task : Nat) :
      Alike tails lines → Alike (tails.ask id task) (lines.join id task)
  | release {tails : LockTails} {lines : LockLines} {id : String} {number : Nat} :
      Alike tails lines → number ∈ tails.pending id → tails.isAdmitted number = true →
        Alike (tails.release id number) (lines.leave id)

/-- The tails are chained as the lines stand. -/
structure Stands (tails : LockTails) (lines : LockLines) : Prop where
  chained : tails.Chained
  tidy : lines.Tidy
  line_eq : ∀ id, tails.line id = lines.line id

theorem Alike.stands {tails : LockTails} {lines : LockLines} (h : tails.Alike lines) : tails.Stands lines := by
  induction h with
  | start => exact ⟨.empty, LockLines.tidy_empty, fun _ ↦ rfl⟩
  | ask id task _ ih =>
    refine ⟨ih.chained.ask id task, ih.tidy.join id task, fun other ↦ ?_⟩
    rw [line_ask, LockLines.line_join, ih.line_eq]
  | release _ hmem hadmitted ih =>
    have hhead := (ih.chained.isAdmitted_iff hmem).mp hadmitted
    refine ⟨ih.chained.release hhead, ih.tidy.leave _, fun other ↦ ?_⟩
    rw [line_release_of_head hhead, LockLines.line_leave, ih.line_eq]

/-- Chained tails answer as lines do: who stands in a line, whether a lock is taken, whether who asks for it goes on at
once, and who goes on when it is given back. -/
theorem Alike.answers {tails : LockTails} {lines : LockLines} (h : tails.Alike lines) (id : String) :
    tails.line id = lines.line id ∧ tails.isLocked id = lines.isLocked id ∧
      (∀ task, (tails.ask id task).isAdmitted tails.requests.length = !lines.isLocked id) ∧
      ∀ number ∈ tails.pending id, tails.isAdmitted number = true →
        lines.holder? id = some (tails.taskOf number) ∧
          (tails.release id number).successor? number = (lines.leave id).holder? id := by
  have hstands := h.stands
  have hline := hstands.line_eq id
  have hlocked : tails.isLocked id = lines.isLocked id := by
    rw [Bool.eq_iff_iff, hstands.chained.isLocked_iff, hstands.tidy id, hline]
  refine ⟨hline, hlocked, fun task ↦ ?_, fun number hmem hadmitted ↦ ?_⟩
  · rw [Bool.eq_iff_iff, hstands.chained.isAdmitted_ask_iff, Bool.not_eq_true', ← Bool.not_eq_true, hstands.tidy id,
      hline, not_not]
  · have hhead := (hstands.chained.isAdmitted_iff hmem).mp hadmitted
    rw [LockLines.holder?, LockLines.holder?, ← hline, line_eq_map, List.head?_map, hhead,
      hstands.chained.successor?_release hhead, LockLines.line_leave, if_pos rfl, hline]
    exact ⟨rfl, rfl⟩

end LockTails

end ClusterMembership
