import Mathlib.Data.List.Induction
import ClusterMembership.EventBus

/-!
# Subscriptions and their ends

Whoever subscribes to a bus is handed a way to end the subscription.  The bus, however, tells subscriptions apart by
type and listener only: it ends the latest one of the listener to the type, whichever was meant, and it does so again
when it is asked again.  A `Ledger` keeps the subscriptions apart by number and ends the one that was meant, once.

A publication calls the listeners of the moment, up to the first that throws, and what the listeners end meanwhile
counts for later publications.  So it comes to a look at the bus and some ends of subscriptions.  The ledger and the bus
agree at every moment exactly when no end is noticed: between the subscription that is meant and a later one of the
same listener nobody else has subscribed, and one that has ended before is not taken for another.
-/

namespace ClusterMembership

inductive BusChange where
  | subscribe (subscription : Subscription) (listener : Listener) (keptAs : String)
  | unsubscribe (keptAs : String)
  deriving DecidableEq

inductive BusCall where
  | change (change : BusChange)
  | publish (type : String) (payload : Value)
  deriving DecidableEq

/-- A subscription with its number, by which it is told from others of the same listener to the same type. -/
structure Ticket where
  number : Nat
  subscription : Subscription
  deriving DecidableEq

/-- The subscriptions that were made and have not been ended, in order, those that are kept for being ended, and the
number of all that were made. -/
structure Ledger where
  live : List Ticket
  kept : List (String × Ticket)
  made : Nat
  deriving DecidableEq

def BusChange.subscription? : BusChange → Option Subscription
  | .subscribe subscription _ _ => some subscription
  | .unsubscribe _ => none

namespace Ledger

def empty : Ledger := ⟨[], [], 0⟩

def cancel (ledger : Ledger) (ticket : Ticket) : Ledger :=
  { ledger with live := ledger.live.filter fun other ↦ other.number ≠ ticket.number }

def change (ledger : Ledger) : BusChange → Ledger
  | .subscribe subscription _ keptAs =>
    let ticket : Ticket := ⟨ledger.made, subscription⟩
    ⟨ledger.live ++ [ticket], Association.put keptAs ticket ledger.kept, ledger.made + 1⟩
  | .unsubscribe keptAs =>
    match Association.find? keptAs ledger.kept with
    | some ticket => ledger.cancel ticket
    | none => ledger

def after (ledger : Ledger) (changes : List BusChange) : Ledger := changes.foldl change ledger

/-- The listeners that a publication of a type has to call, one for each subscription to the type. -/
def due (ledger : Ledger) (type : String) : List String :=
  (ledger.live.filter fun ticket ↦ ticket.subscription.type = type).map fun ticket ↦ ticket.subscription.listener

/-- It makes no difference to a publication whether a subscription is ended or the latest of the same listener to
the same type. -/
structure Unnoticed (ledger : Ledger) (ticket : Ticket) : Prop where
  /-- No other listener has subscribed to the type between the subscription and a later one of its listener. -/
  between : ∀ {other later}, [ticket, other, later].Sublist ledger.live →
    other.subscription.type = ticket.subscription.type → later.subscription = ticket.subscription →
    other.subscription = ticket.subscription
  /-- Once the subscription has ended, its listener has no other to the type. -/
  ended : ticket ∉ ledger.live → ∀ other ∈ ledger.live, other.subscription ≠ ticket.subscription

end Ledger

namespace EventBus

def change (bus : EventBus) : BusChange → EventBus
  | .subscribe subscription listener keptAs => bus.subscribe subscription listener keptAs
  | .unsubscribe keptAs => bus.unsubscribe keptAs

def after (bus : EventBus) (changes : List BusChange) : EventBus := changes.foldl change bus

def serve (bus : EventBus) : BusCall → EventBus
  | .change change => bus.change change
  | .publish type payload => (bus.publish type payload).1

def served (bus : EventBus) (calls : List BusCall) : EventBus := calls.foldl serve bus

/-- What a listener does when it is called. -/
def behaviour (bus : EventBus) (name : String) : Listener := (Association.find? name bus.listeners).getD {}

/-- The listeners of a list that are called in turn: all up to the first that throws. -/
def heeded (bus : EventBus) : List String → List String
  | [] => []
  | name :: rest => name :: if (bus.behaviour name).throws.isSome then [] else bus.heeded rest

/-- The ends of subscriptions that listeners ask for when they are called in turn. -/
def endings (bus : EventBus) (names : List String) : List BusChange :=
  (bus.heeded names).filterMap fun name ↦ (bus.behaviour name).unsubscribes.map .unsubscribe

/-- The changes that a call comes to, those included that listeners ask for. -/
def changesOf (bus : EventBus) : BusCall → List BusChange
  | .change change => [change]
  | .publish type _ => bus.endings (bus.listenersOf type)

/-- The changes that calls come to. -/
def changesOfAll (bus : EventBus) : List BusCall → List BusChange
  | [] => []
  | call :: rest => bus.changesOf call ++ (bus.serve call).changesOfAll rest

theorem after_append (bus : EventBus) (before later : List BusChange) :
    bus.after (before ++ later) = (bus.after before).after later := List.foldl_append

variable {bus : EventBus}

/-! ## Publications -/

@[simp]
theorem listeners_unsubscribe (bus : EventBus) (keptAs : String) :
    (bus.unsubscribe keptAs).listeners = bus.listeners := by
  unfold unsubscribe
  split <;> rfl

/-- What a listener ends has no effect on what the listeners do. -/
theorem listeners_getD_unsubscribe (bus : EventBus) (keptAs : Option String) :
    ((keptAs.map bus.unsubscribe).getD bus).listeners = bus.listeners := by
  cases keptAs <;> simp

theorem heeded_congr {other : EventBus} (h : other.listeners = bus.listeners) (names : List String) :
    other.heeded names = bus.heeded names := by
  induction names with
  | nil => rfl
  | cons name rest ih => rw [heeded, heeded, ih, behaviour, behaviour, h]

theorem endings_congr {other : EventBus} (h : other.listeners = bus.listeners) (names : List String) :
    other.endings names = bus.endings names := by
  unfold endings behaviour
  rw [heeded_congr h, h]

theorem endings_cons (bus : EventBus) (name : String) (rest : List String) :
    bus.endings (name :: rest) = ((bus.behaviour name).unsubscribes.map BusChange.unsubscribe).toList ++
      if (bus.behaviour name).throws.isSome then [] else bus.endings rest := by
  unfold endings
  rw [heeded, List.filterMap_cons]
  cases hthrows : (bus.behaviour name).throws <;> cases hends : (bus.behaviour name).unsubscribes <;> simp

/-- Listeners are called in turn with the payload, and the bus is changed by what they end. -/
theorem call_eq (bus : EventBus) (payload : Value) (names : List String) :
    (call payload bus names).2.seen = (bus.heeded names).map (fun name ↦ (name, payload)) ∧
      (call payload bus names).1 = bus.after (bus.endings names) := by
  induction names generalizing bus with
  | nil => exact ⟨rfl, rfl⟩
  | cons name rest ih =>
    let next := ((bus.behaviour name).unsubscribes.map bus.unsubscribe).getD bus
    have hnext : bus.after ((bus.behaviour name).unsubscribes.map BusChange.unsubscribe).toList = next := by
      cases hends : (bus.behaviour name).unsubscribes <;> simp [next, hends, after, change]
    have hlisteners : next.listeners = bus.listeners := bus.listeners_getD_unsubscribe _
    obtain ⟨hseen, hafter⟩ := ih next
    rw [heeded_congr hlisteners] at hseen
    rw [endings_congr hlisteners] at hafter
    rw [endings_cons, after_append, hnext, heeded]
    unfold call
    simp only
    cases hthrows : (bus.behaviour name).throws with
    | some message =>
      rw [behaviour] at hthrows
      simp only [hthrows]
      exact ⟨rfl, rfl⟩
    | none =>
      rw [behaviour] at hthrows
      simp only [hthrows]
      refine ⟨?_, hafter⟩
      rw [List.map_cons]
      exact congrArg _ hseen

/-- A publication calls the listeners of its type in turn, and comes to what they end meanwhile. -/
theorem publish_eq (bus : EventBus) (type : String) (payload : Value) :
    (bus.publish type payload).2.seen = (bus.heeded (bus.listenersOf type)).map (fun name ↦ (name, payload)) ∧
      (bus.publish type payload).1 = bus.after (bus.endings (bus.listenersOf type)) :=
  bus.call_eq payload (bus.listenersOf type)

theorem serve_eq_after (bus : EventBus) (call : BusCall) : bus.serve call = bus.after (bus.changesOf call) := by
  cases call with
  | change change => rfl
  | publish type payload => exact (bus.publish_eq type payload).2

/-- Calls come to their changes. -/
theorem served_eq_after (bus : EventBus) (calls : List BusCall) :
    bus.served calls = bus.after (bus.changesOfAll calls) := by
  unfold served
  induction calls generalizing bus with
  | nil => rfl
  | cons call rest ih => rw [List.foldl_cons, ih, changesOfAll, after_append, serve_eq_after]

theorem changesOfAll_append (bus : EventBus) (before later : List BusCall) :
    bus.changesOfAll (before ++ later) =
      bus.changesOfAll before ++ (bus.served before).changesOfAll later := by
  induction before generalizing bus with
  | nil => rfl
  | cons call rest ih => rw [List.cons_append, changesOfAll, ih, changesOfAll, List.append_assoc]; rfl

end EventBus

/-! ## The latest of equal items -/

section Latest

variable {α : Type} [DecidableEq α]

theorem reverse_erase_reverse_cons (x y : α) (rest : List α) :
    ((y :: rest).reverse.erase x).reverse =
      if x ∈ rest then y :: (rest.reverse.erase x).reverse else if y = x then rest else y :: rest := by
  rw [List.reverse_cons]
  by_cases hmem : x ∈ rest
  · rw [if_pos hmem, List.erase_append_left _ (List.mem_reverse.mpr hmem), List.reverse_append]
    rfl
  · rw [if_neg hmem, List.erase_append_right _ (by simpa using hmem)]
    by_cases hsame : y = x
    · simp [hsame]
    · rw [if_neg hsame, List.erase_of_not_mem (by simpa using Ne.symm hsame)]
      simp

theorem reverse_erase_reverse_eq_self_iff (x : α) (items : List α) :
    (items.reverse.erase x).reverse = items ↔ x ∉ items := by
  rw [List.reverse_eq_iff, List.erase_eq_self_iff, List.mem_reverse]

/-- The latest of equal items is found behind the first of them. -/
theorem reverse_erase_reverse_append (x : α) (before rest : List α) :
    ((before ++ x :: rest).reverse.erase x).reverse = before ++ ((x :: rest).reverse.erase x).reverse := by
  rw [List.reverse_append, List.erase_append_left _ (by simp), List.reverse_append, List.reverse_reverse]

/-- An item can be left out instead of the latest that is equal to it exactly when nothing else stands between. -/
theorem reverse_erase_reverse_cons_self_eq_iff (x : α) (rest : List α) :
    ((x :: rest).reverse.erase x).reverse = rest ↔ ∀ y, [y, x].Sublist rest → y = x := by
  induction rest with
  | nil => simp
  | cons first rest ih =>
    rw [reverse_erase_reverse_cons]
    by_cases hfirst : first = x
    · subst hfirst
      rw [if_pos List.mem_cons_self, List.cons_inj_right, ih]
      constructor
      · intro h y hsublist
        rcases List.sublist_cons_iff.mp hsublist with hrest | ⟨_, hcons, _⟩
        · exact h y hrest
        · exact (List.cons.inj hcons).1
      · exact fun h y hsublist ↦ h y (hsublist.cons first)
    · by_cases hmem : x ∈ rest
      · have hmem' : x ∈ first :: rest := List.mem_cons_of_mem first hmem
        rw [if_pos hmem']
        refine iff_of_false (fun h ↦ hfirst (List.cons.inj h).1.symm) fun h ↦ hfirst (h first ?_)
        exact (List.singleton_sublist.mpr hmem).cons_cons first
      · have hmem' : x ∉ first :: rest := by simp [Ne.symm hfirst, hmem]
        rw [if_neg hmem', if_pos rfl]
        refine iff_of_true rfl fun y hsublist ↦ absurd (hsublist.subset (by simp)) hmem'

end Latest

/-! ## Numbered subscriptions -/

namespace Ledger

variable {ledger : Ledger}

theorem after_append (ledger : Ledger) (before later : List BusChange) :
    ledger.after (before ++ later) = (ledger.after before).after later := List.foldl_append

/-- Subscriptions have distinct numbers in ascending order, also those that are kept. -/
structure Numbered (ledger : Ledger) : Prop where
  ascending : ledger.live.Pairwise fun a b ↦ a.number < b.number
  live : ∀ ticket ∈ ledger.live, ticket.number < ledger.made
  kept : ∀ {keptAs ticket}, Association.find? keptAs ledger.kept = some ticket → ticket.number < ledger.made
  same : ∀ {keptAs ticket}, Association.find? keptAs ledger.kept = some ticket →
    ∀ other ∈ ledger.live, other.number = ticket.number → other = ticket

theorem numbered_empty : empty.Numbered where
  ascending := .nil
  live := List.forall_mem_nil _
  kept h := by simp [empty, Association.find?] at h
  same h := by simp [empty, Association.find?] at h

theorem Numbered.cancel (h : ledger.Numbered) (ticket : Ticket) : (ledger.cancel ticket).Numbered where
  ascending := h.ascending.filter _
  live other hother := h.live other (List.mem_filter.mp hother).1
  kept := h.kept
  same hkept other hother := h.same hkept other (List.mem_filter.mp hother).1

theorem Numbered.change (h : ledger.Numbered) (change : BusChange) : (ledger.change change).Numbered := by
  cases change with
  | unsubscribe keptAs =>
    unfold Ledger.change
    simp only
    split
    · next ticket _ => exact h.cancel ticket
    · exact h
  | subscribe subscription listener keptAs =>
    have hkept {name : String} {ticket : Ticket}
        (hfound :
          Association.find? name (Association.put keptAs ⟨ledger.made, subscription⟩ ledger.kept) = some ticket) :
        ticket = ⟨ledger.made, subscription⟩ ∨ Association.find? name ledger.kept = some ticket := by
      rw [Association.find?_put] at hfound
      split at hfound
      · exact .inl (Option.some.inj hfound).symm
      · exact .inr hfound
    exact
      { ascending := by
          refine List.pairwise_append.mpr ⟨h.ascending, List.pairwise_singleton _ _, fun a ha b hb ↦ ?_⟩
          rw [List.mem_singleton.mp hb]
          exact h.live a ha
        live := fun ticket hticket ↦ by
          rcases List.mem_append.mp hticket with hold | hnew
          · exact Nat.lt_succ_of_lt (h.live ticket hold)
          · rw [List.mem_singleton.mp hnew]
            exact Nat.lt_succ_self _
        kept := fun hfound ↦ by
          rcases hkept hfound with rfl | hold
          · exact Nat.lt_succ_self _
          · exact Nat.lt_succ_of_lt (h.kept hold)
        same := fun hfound other hother hnumber ↦ by
          rcases hkept hfound with rfl | hold <;> rcases List.mem_append.mp hother with hlive | hnew
          · exact absurd hnumber (Nat.ne_of_lt (h.live other hlive))
          · exact List.mem_singleton.mp hnew
          · exact h.same hold other hlive hnumber
          · rw [List.mem_singleton.mp hnew] at hnumber
            exact absurd hnumber.symm (Nat.ne_of_lt (h.kept hold)) }

theorem numbered_after (changes : List BusChange) : (empty.after changes).Numbered := by
  induction changes using List.reverseRecOn with
  | nil => exact numbered_empty
  | append_singleton before change ih =>
    rw [after_append]
    exact ih.change change

/-- Subscriptions are numbered in the order in which they are made. -/
structure Lists (ledger : Ledger) (subscriptions : List Subscription) : Prop where
  made : ledger.made = subscriptions.length
  live : ∀ ticket ∈ ledger.live, subscriptions[ticket.number]? = some ticket.subscription
  kept : ∀ {keptAs ticket}, Association.find? keptAs ledger.kept = some ticket →
    subscriptions[ticket.number]? = some ticket.subscription

theorem lists_after (changes : List BusChange) :
    (empty.after changes).Lists (changes.filterMap BusChange.subscription?) := by
  induction changes using List.reverseRecOn with
  | nil => exact ⟨rfl, List.forall_mem_nil _, fun h ↦ by simp [empty, after, Association.find?] at h⟩
  | append_singleton before change ih =>
    rw [after_append, List.filterMap_append]
    cases change with
    | unsubscribe keptAs =>
      rw [show [BusChange.unsubscribe keptAs].filterMap BusChange.subscription? = [] from rfl, List.append_nil]
      change ((empty.after before).change (.unsubscribe keptAs)).Lists _
      unfold Ledger.change
      simp only
      split
      · exact ⟨ih.made, fun ticket hticket ↦ ih.live ticket (List.mem_filter.mp hticket).1, ih.kept⟩
      · exact ih
    | subscribe subscription listener keptAs =>
      let subscriptions := before.filterMap BusChange.subscription?
      have hlast : (subscriptions ++ [subscription])[(empty.after before).made]? = some subscription := by
        rw [ih.made]
        exact List.getElem?_concat_length
      have hearlier {ticket : Ticket} (h : subscriptions[ticket.number]? = some ticket.subscription) :
          (subscriptions ++ [subscription])[ticket.number]? = some ticket.subscription :=
        (List.getElem?_append_left (List.getElem?_eq_some_iff.mp h).1).trans h
      refine ⟨?_, fun ticket hticket ↦ ?_, fun {name ticket} hfound ↦ ?_⟩
      · rw [List.length_append, ← ih.made]
        rfl
      · rcases List.mem_append.mp hticket with hlive | hnew
        · exact hearlier (ih.live ticket hlive)
        · rw [List.mem_singleton.mp hnew]
          exact hlast
      · change Association.find? name (Association.put keptAs _ _) = some ticket at hfound
        rw [Association.find?_put] at hfound
        split at hfound
        · rw [← Option.some.inj hfound]
          exact hlast
        · exact hearlier (ih.kept hfound)

end Ledger

/-! ## One end of a subscription -/

theorem Subscription.eq_of_listener {subscription other : Subscription} (htype : subscription.type = other.type)
    (hlistener : subscription.listener = other.listener) : subscription = other := by
  cases subscription
  cases other
  simp_all

/-- Without a subscription a type has the listeners that it had without the first of them that is meant. -/
theorem Subscription.map_listener_erase (subscription : Subscription) (type : String)
    (subscriptions : List Subscription) :
    ((subscriptions.erase subscription).filter fun other ↦ other.type = type).map listener =
      if subscription.type = type then
        ((subscriptions.filter fun other ↦ other.type = type).map listener).erase subscription.listener
      else (subscriptions.filter fun other ↦ other.type = type).map listener := by
  induction subscriptions with
  | nil => simp
  | cons first rest ih =>
    by_cases hfirst : first = subscription
    · subst hfirst
      by_cases htype : first.type = type <;> simp [htype]
    · rw [List.erase_cons_tail (by simpa using hfirst)]
      by_cases hother : first.type = type
      · rw [List.filter_cons_of_pos (by simpa using hother), List.map_cons, ih,
          List.filter_cons_of_pos (by simpa using hother), List.map_cons]
        split
        · next htype =>
          have hlistener : first.listener ≠ subscription.listener :=
            fun hsame ↦ hfirst (eq_of_listener (hother.trans htype.symm) hsame)
          rw [List.erase_cons_tail (by simpa using hlistener)]
        · rfl
      · rw [List.filter_cons_of_neg (by simpa using hother), ih, List.filter_cons_of_neg (by simpa using hother)]

/-- Of the listeners of a type the bus leaves out the latest that is meant. -/
theorem EventBus.listenersOf_off (bus : EventBus) (subscription : Subscription) (type : String) :
    (bus.off subscription).listenersOf type =
      if subscription.type = type then ((bus.listenersOf type).reverse.erase subscription.listener).reverse
      else bus.listenersOf type := by
  unfold listenersOf off
  simp only [List.filter_reverse, List.map_reverse, Subscription.map_listener_erase]
  split <;> simp

namespace Ledger

variable {ledger : Ledger} {ticket : Ticket}

/-- Two subscriptions in a row behind a third. -/
theorem triple_sublist_iff {before rest : List Ticket} (hticket : ticket ∉ before) (other later : Ticket) :
    [ticket, other, later].Sublist (before ++ ticket :: rest) ↔ [other, later].Sublist rest := by
  constructor
  · intro h
    obtain ⟨first, second, hsplit, hfirst, hsecond⟩ := List.sublist_append_iff.mp h
    cases first with
    | nil =>
      rw [List.nil_append] at hsplit
      exact List.cons_sublist_cons.mp (hsplit ▸ hsecond)
    | cons found _ =>
      obtain rfl : ticket = found := (List.cons.inj hsplit).1
      exact absurd (hfirst.subset List.mem_cons_self) hticket
  · exact fun h ↦ (h.cons_cons ticket).trans (List.sublist_append_right before _)

/-- Of the subscriptions to a type the one that is meant is left out. -/
theorem live_cancel_filter (ledger : Ledger) (ticket : Ticket) (type : String) :
    ((ledger.cancel ticket).live.filter fun other ↦ other.subscription.type = type) =
      (ledger.live.filter fun other ↦ other.subscription.type = type).filter
        fun other ↦ other.number ≠ ticket.number := by
  unfold cancel
  simp only [List.filter_filter]
  exact List.filter_congr fun other _ ↦ Bool.and_comm _ _

/-- The live subscriptions to a type before and behind one of them. -/
theorem Numbered.exists_split (h : ledger.Numbered) (hlive : ticket ∈ ledger.live) :
    ∃ before rest,
      (ledger.live.filter fun other ↦ other.subscription.type = ticket.subscription.type) =
          before ++ ticket :: rest ∧
        ticket ∉ before ∧
        ((ledger.cancel ticket).live.filter fun other ↦ other.subscription.type = ticket.subscription.type) =
          before ++ rest := by
  have htyped : ticket ∈ ledger.live.filter fun other ↦ other.subscription.type = ticket.subscription.type :=
    List.mem_filter.mpr ⟨hlive, by simp⟩
  obtain ⟨before, rest, hsplit⟩ := List.append_of_mem htyped
  have hascending := h.ascending.filter fun other ↦ decide (other.subscription.type = ticket.subscription.type)
  rw [hsplit] at hascending
  obtain ⟨-, hrest, hbefore⟩ := List.pairwise_append.mp hascending
  refine ⟨before, rest, hsplit, fun hmem ↦ ?_, ?_⟩
  · exact Nat.lt_irrefl _ (hbefore ticket hmem ticket List.mem_cons_self)
  · rw [live_cancel_filter, hsplit, List.filter_append, List.filter_cons_of_neg (by simp)]
    congr 1
    · refine List.filter_eq_self.mpr fun other hother ↦ ?_
      simpa using Nat.ne_of_lt (hbefore other hother ticket List.mem_cons_self)
    · refine List.filter_eq_self.mpr fun other hother ↦ ?_
      simpa using Nat.ne_of_gt ((List.pairwise_cons.mp hrest).1 other hother)

/-- Subscriptions to other types, and those under other numbers, stay. -/
theorem due_cancel_of_ne (hsame : ∀ other ∈ ledger.live, other.number = ticket.number → other = ticket)
    {type : String} (hother : ticket ∉ ledger.live ∨ ticket.subscription.type ≠ type) :
    (ledger.cancel ticket).due type = ledger.due type := by
  unfold due
  rw [live_cancel_filter]
  congr 1
  refine List.filter_eq_self.mpr fun other hmem ↦ ?_
  obtain ⟨hlive, htype⟩ := List.mem_filter.mp hmem
  have hne : other.number ≠ ticket.number := by
    intro hnumber
    obtain rfl := hsame other hlive hnumber
    rcases hother with hgone | hdifferent
    · exact hgone hlive
    · exact hdifferent (by simpa using htype)
  simpa using hne

theorem mem_due_iff (subscription : Subscription) :
    subscription.listener ∈ ledger.due subscription.type ↔
      ∃ other ∈ ledger.live, other.subscription = subscription := by
  obtain ⟨type, listener⟩ := subscription
  simp only [due, List.mem_map, List.mem_filter, decide_eq_true_eq, and_assoc]
  refine exists_congr fun other ↦ and_congr_right fun _ ↦ ?_
  rw [Subscription.mk.injEq]

end Ledger

/-- A bus that calls what is due may end the latest subscription in place of the one that is meant exactly when that
is not noticed. -/
theorem EventBus.listenersOf_off_eq_due_iff {bus : EventBus} {ledger : Ledger} {ticket : Ticket}
    (hnumbered : ledger.Numbered) (hsame : ∀ other ∈ ledger.live, other.number = ticket.number → other = ticket)
    (hagree : ∀ type, bus.listenersOf type = ledger.due type) :
    (∀ type, (bus.off ticket.subscription).listenersOf type = (ledger.cancel ticket).due type) ↔
      ledger.Unnoticed ticket := by
  have hothers {type : String} (hne : ticket.subscription.type ≠ type) :
      (bus.off ticket.subscription).listenersOf type = (ledger.cancel ticket).due type := by
    rw [listenersOf_off, if_neg hne, hagree, Ledger.due_cancel_of_ne hsame (.inr hne)]
  have hmeant : (∀ type, (bus.off ticket.subscription).listenersOf type = (ledger.cancel ticket).due type) ↔
      ((ledger.due ticket.subscription.type).reverse.erase ticket.subscription.listener).reverse =
        (ledger.cancel ticket).due ticket.subscription.type := by
    rw [← hagree]
    constructor
    · intro h
      have hoff := bus.listenersOf_off ticket.subscription ticket.subscription.type
      rw [if_pos rfl] at hoff
      exact hoff.symm.trans (h _)
    · intro h type
      by_cases htype : ticket.subscription.type = type
      · subst htype
        rw [listenersOf_off, if_pos rfl, h]
      · exact hothers htype
  rw [hmeant]
  by_cases hlive : ticket ∈ ledger.live
  · obtain ⟨before, rest, hsplit, hbefore, hcancelled⟩ := hnumbered.exists_split hlive
    have htyped (other : Ticket) : other ∈ before ++ ticket :: rest ↔
        other ∈ ledger.live ∧ other.subscription.type = ticket.subscription.type := by
      rw [← hsplit, List.mem_filter, decide_eq_true_eq]
    unfold Ledger.due
    rw [hsplit, hcancelled, List.map_append, List.map_cons, reverse_erase_reverse_append, List.map_append,
      List.append_cancel_left_eq, reverse_erase_reverse_cons_self_eq_iff]
    constructor
    · intro hnone
      refine ⟨fun {other later} hsublist htype hlater ↦ ?_, fun hgone ↦ absurd hlive hgone⟩
      have hfiltered : [ticket, other, later].Sublist (before ++ ticket :: rest) := by
        rw [← hsplit]
        simpa [htype, hlater] using hsublist.filter fun other ↦
          decide (other.subscription.type = ticket.subscription.type)
      have hnames := ((Ledger.triple_sublist_iff hbefore other later).mp hfiltered).map
        fun ticket ↦ ticket.subscription.listener
      have hlistener := hnone _ (by simpa [hlater] using hnames)
      exact Subscription.eq_of_listener htype hlistener
    · intro hunnoticed name hnames
      obtain ⟨found, hfound, hmap⟩ := List.sublist_map_iff.mp hnames
      obtain ⟨other, _, rfl, rfl, hrest⟩ := List.map_eq_cons_iff.mp hmap.symm
      obtain ⟨later, _, rfl, hlater, hnil⟩ := List.map_eq_cons_iff.mp hrest
      obtain rfl := List.map_eq_nil_iff.mp hnil
      have htype {found : Ticket} (hmem : found ∈ rest) : found.subscription.type = ticket.subscription.type :=
        ((htyped found).mp (List.mem_append_right before (List.mem_cons_of_mem ticket hmem))).2
      have hsublist := (Ledger.triple_sublist_iff hbefore other later).mpr hfound
      rw [← hsplit] at hsublist
      have hequal := hunnoticed.between (hsublist.trans List.filter_sublist) (htype (hfound.subset (by simp)))
        (Subscription.eq_of_listener (htype (hfound.subset (by simp))) hlater)
      exact congrArg Subscription.listener hequal
  · rw [Ledger.due_cancel_of_ne hsame (.inl hlive), reverse_erase_reverse_eq_self_iff, Ledger.mem_due_iff]
    constructor
    · intro hnone
      refine ⟨fun hsublist ↦ absurd (hsublist.subset List.mem_cons_self) hlive, fun _ other hother hequal ↦ ?_⟩
      exact hnone ⟨other, hother, hequal⟩
    · rintro hunnoticed ⟨other, hother, hequal⟩
      exact hunnoticed.ended hlive other hother hequal

/-! ## Histories -/

namespace EventBus

/-- A bus keeps under each name the subscription that the ledger keeps there. -/
theorem find?_kept_after (changes : List BusChange) (keptAs : String) :
    Association.find? keptAs (empty.after changes).kept =
      (Association.find? keptAs (Ledger.empty.after changes).kept).map Ticket.subscription := by
  induction changes using List.reverseRecOn generalizing keptAs with
  | nil => rfl
  | append_singleton before made ih =>
    rw [after_append, Ledger.after_append]
    cases made with
    | subscribe subscription listener name =>
      have hbus : ((empty.after before).after [.subscribe subscription listener name]).kept =
        Association.put name subscription (empty.after before).kept := rfl
      have hledger : ((Ledger.empty.after before).after [.subscribe subscription listener name]).kept =
        Association.put name ⟨_, subscription⟩ (Ledger.empty.after before).kept := rfl
      rw [hbus, hledger, Association.find?_put, Association.find?_put, ih]
      split <;> rfl
    | unsubscribe name =>
      have hbus : ((empty.after before).after [.unsubscribe name]).kept = (empty.after before).kept := by
        change ((empty.after before).unsubscribe name).kept = _
        unfold unsubscribe
        split <;> rfl
      have hledger : ((Ledger.empty.after before).after [.unsubscribe name]).kept =
          (Ledger.empty.after before).kept := by
        change ((Ledger.empty.after before).change (.unsubscribe name)).kept = _
        unfold Ledger.change
        simp only
        split <;> rfl
      rw [hbus, hledger, ih]

/-- A publication after some changes calls what is due. -/
def Meets (changes : List BusChange) : Prop :=
  ∀ type, (empty.after changes).listenersOf type = (Ledger.empty.after changes).due type

/-- After a change a publication calls what is due again, unless the change is an end that is noticed. -/
theorem meets_append_iff {before : List BusChange} (h : Meets before) (made : BusChange) :
    Meets (before ++ [made]) ↔ ∀ keptAs ticket, made = .unsubscribe keptAs →
      Association.find? keptAs (Ledger.empty.after before).kept = some ticket →
      (Ledger.empty.after before).Unnoticed ticket := by
  unfold Meets
  rw [after_append, Ledger.after_append]
  cases made with
  | subscribe subscription listener name =>
    refine iff_of_true (fun type ↦ ?_) (by simp)
    have hbus : ((empty.after before).after [.subscribe subscription listener name]).listenersOf type =
        (empty.after before).listenersOf type ++
          ([subscription].filter fun other ↦ other.type = type).map Subscription.listener := by
      rw [listenersOf, listenersOf, ← List.map_append, ← List.filter_append]
      rfl
    have hledger : ((Ledger.empty.after before).after [.subscribe subscription listener name]).due type =
        (Ledger.empty.after before).due type ++
          ([subscription].filter fun other ↦ other.type = type).map Subscription.listener := by
      rw [Ledger.due, Ledger.due]
      change List.map _ (List.filter _ ((Ledger.empty.after before).live ++ [⟨_, subscription⟩])) = _
      rw [List.filter_append, List.map_append]
      by_cases htype : subscription.type = type <;> simp [htype]
    rw [hbus, hledger, h]
  | unsubscribe name =>
    have hkept := find?_kept_after before name
    have hnumbered := Ledger.numbered_after before
    change (∀ type, ((empty.after before).unsubscribe name).listenersOf type =
      ((Ledger.empty.after before).change (.unsubscribe name)).due type) ↔ _
    cases hfound : Association.find? name (Ledger.empty.after before).kept with
    | none =>
      have hbus : (empty.after before).unsubscribe name = empty.after before := by
        unfold unsubscribe
        rw [hkept, hfound]
        rfl
      have hledger : (Ledger.empty.after before).change (.unsubscribe name) = Ledger.empty.after before := by
        simp only [Ledger.change, hfound]
      rw [hbus, hledger]
      refine iff_of_true h fun keptAs ticket hmade hticket ↦ ?_
      obtain rfl := BusChange.unsubscribe.inj hmade
      simp [hfound] at hticket
    | some ticket =>
      have hbus : (empty.after before).unsubscribe name = (empty.after before).off ticket.subscription := by
        unfold unsubscribe
        rw [hkept, hfound]
        rfl
      have hledger : (Ledger.empty.after before).change (.unsubscribe name) =
          (Ledger.empty.after before).cancel ticket := by
        simp only [Ledger.change, hfound]
      rw [hbus, hledger, listenersOf_off_eq_due_iff hnumbered (hnumbered.same hfound) h]
      refine ⟨fun hunnoticed keptAs other hmade hother ↦ ?_, fun hall ↦ hall name ticket rfl hfound⟩
      obtain rfl := BusChange.unsubscribe.inj hmade
      exact Option.some.inj (hfound.symm.trans hother) ▸ hunnoticed

/-- At every moment a publication would call what is due exactly when no end of a subscription is noticed. -/
theorem forall_meets_iff (changes : List BusChange) :
    (∀ before, before <+: changes → Meets before) ↔ ∀ before keptAs ticket,
      before ++ [.unsubscribe keptAs] <+: changes →
      Association.find? keptAs (Ledger.empty.after before).kept = some ticket →
      (Ledger.empty.after before).Unnoticed ticket := by
  induction changes using List.reverseRecOn with
  | nil =>
    refine iff_of_true (fun before hbefore ↦ ?_) fun before keptAs ticket hbefore ↦ ?_
    · obtain rfl := List.prefix_nil.mp hbefore
      exact fun type ↦ rfl
    · simp at hbefore
  | append_singleton changes made ih =>
    simp only [List.prefix_concat_iff, forall_eq_or_imp]
    constructor
    · rintro ⟨hlast, hmeets⟩ before keptAs ticket hbefore hfound
      rcases hbefore with hall | hearlier
      · obtain ⟨rfl, hmade⟩ := List.append_inj' hall rfl
        have hunnoticed := (meets_append_iff (hmeets before List.prefix_rfl) made).mp hlast
        exact hunnoticed keptAs ticket (List.singleton_inj.mp hmade).symm hfound
      · exact ih.mp hmeets before keptAs ticket hearlier hfound
    · intro hunnoticed
      have hmeets : ∀ before, before <+: changes → Meets before :=
        ih.mpr fun before keptAs ticket hearlier ↦ hunnoticed before keptAs ticket (.inr hearlier)
      refine ⟨(meets_append_iff (hmeets changes List.prefix_rfl) made).mpr fun keptAs ticket hmade ↦ ?_, hmeets⟩
      exact hunnoticed changes keptAs ticket (.inl (by rw [hmade]))

/-- When nobody subscribes a listener to a type again, each end is that of the subscription that is meant, however often
it is asked for. -/
theorem meets_of_nodup {changes : List BusChange} (hnodup : (changes.filterMap BusChange.subscription?).Nodup) :
    Meets changes := by
  refine (forall_meets_iff changes).mpr (fun before keptAs ticket hbefore hfound ↦ ?_) changes List.prefix_rfl
  have hlists := Ledger.lists_after before
  have hnumbered := Ledger.numbered_after before
  have hearlier : (before.filterMap BusChange.subscription?).Nodup :=
    hnodup.sublist (((List.prefix_append before _).trans hbefore).sublist.filterMap _)
  have hequal {other : Ticket} (hother : other ∈ (Ledger.empty.after before).live)
      (hsubscription : other.subscription = ticket.subscription) : other = ticket := by
    refine hnumbered.same hfound other hother ?_
    have hlength := (List.getElem?_eq_some_iff.mp (hlists.kept hfound)).1
    refine ((List.getElem?_inj hlength hearlier).mp ?_).symm
    rw [hlists.kept hfound, hlists.live other hother, hsubscription]
  refine ⟨fun {other later} hsublist _ hlater ↦ ?_, fun hended other hother hsubscription ↦ ?_⟩
  · obtain rfl := hequal (hsublist.subset (by simp)) hlater
    have hascending := hnumbered.ascending.sublist hsublist
    simp at hascending
  · exact hended (hequal hother hsubscription ▸ hother)

/-- Whatever is called, a publication calls the listeners of its moment in turn, up to the first that throws.  These are
the listeners that are due, each once for each of its subscriptions and in their order, at every moment exactly when no
end of a subscription is noticed. -/
theorem publications_call_due_iff (calls : List BusCall) :
    (∀ before type payload later, calls = before ++ .publish type payload :: later →
      empty.changesOfAll before <+: empty.changesOfAll calls ∧
        ((empty.served before).publish type payload).2.seen = ((empty.served before).heeded
          ((empty.after (empty.changesOfAll before)).listenersOf type)).map fun name ↦ (name, payload)) ∧
    ((∀ before, before <+: empty.changesOfAll calls → ∀ type,
        (empty.after before).listenersOf type = (Ledger.empty.after before).due type) ↔
      ∀ before keptAs ticket, before ++ [.unsubscribe keptAs] <+: empty.changesOfAll calls →
        Association.find? keptAs (Ledger.empty.after before).kept = some ticket →
        (Ledger.empty.after before).Unnoticed ticket) := by
  refine ⟨?_, forall_meets_iff (empty.changesOfAll calls)⟩
  rintro before type payload later rfl
  refine ⟨?_, ?_⟩
  · rw [changesOfAll_append]
    exact List.prefix_append _ _
  · rw [← served_eq_after]
    exact ((empty.served before).publish_eq type payload).1

/-- A subscription is ended twice, which ends another one of the same listener as well. -/
theorem publications_miss_after_repeated_end :
    let subscription : Subscription := ⟨"datanode:removed", "a"⟩
    let calls : List BusCall := [.change (.subscribe subscription {} "1"), .change (.subscribe subscription {} "2"),
      .change (.unsubscribe "1"), .change (.unsubscribe "1")]
    let changes := empty.changesOfAll calls
    ((empty.served calls).publish "datanode:removed" .null).2.seen = [] ∧
      (Ledger.empty.after changes).due "datanode:removed" = ["a"] ∧
      ¬∀ before keptAs ticket, before ++ [.unsubscribe keptAs] <+: changes →
        Association.find? keptAs (Ledger.empty.after before).kept = some ticket →
        (Ledger.empty.after before).Unnoticed ticket := by
  intro subscription calls changes
  refine ⟨by decide, by decide, fun hunnoticed ↦ ?_⟩
  have hmeets := (publications_call_due_iff calls).2.mpr hunnoticed changes List.prefix_rfl "datanode:removed"
  exact absurd hmeets (by decide)

end EventBus

end ClusterMembership
