import ClusterMembership.Value

/-!
# The event bus

Listeners subscribe to types of events and are called in the order of their subscriptions, over the list as it
was when the event was published.  The same listener may subscribe several times; ending one of its
subscriptions to a type ends the latest.

A listener notes what it is called with.  Then it may end a subscription by the name under which the
subscription is kept, and then it may throw, which ends the publication.
-/

namespace ClusterMembership

/-- A subscription of a listener to a type of events. -/
structure Subscription where
  type : String
  listener : String
  deriving DecidableEq, Inhabited

/-- What a listener does after it has noted an event. -/
structure Listener where
  throws : Option String := none
  unsubscribes : Option String := none
  deriving DecidableEq, Inhabited

/-- Subscriptions in order, the listeners by name, and the subscriptions kept for being ended. -/
structure EventBus where
  subscriptions : List Subscription
  listeners : List (String × Listener)
  kept : List (String × Subscription)
  deriving DecidableEq, Inhabited

/-- What was noted during a publication, and the message of a listener that threw. -/
structure Publication where
  seen : List (String × Value)
  thrown : Option String
  deriving DecidableEq, Inhabited

namespace EventBus

def empty : EventBus := ⟨[], [], []⟩

/-- Subscribe a listener and keep the subscription under a name.  A listener that is known already stays as
it was made. -/
def subscribe (bus : EventBus) (subscription : Subscription) (listener : Listener) (keptAs : String) :
    EventBus where
  subscriptions := bus.subscriptions ++ [subscription]
  listeners :=
    if (Association.find? subscription.listener bus.listeners).isSome then bus.listeners
    else bus.listeners ++ [(subscription.listener, listener)]
  kept := Association.put keptAs subscription bus.kept

/-- End the latest subscription of a listener to a type. -/
def off (bus : EventBus) (subscription : Subscription) : EventBus :=
  { bus with subscriptions := (bus.subscriptions.reverse.erase subscription).reverse }

def unsubscribe (bus : EventBus) (keptAs : String) : EventBus :=
  match Association.find? keptAs bus.kept with
  | some subscription => bus.off subscription
  | none => bus

def listenersOf (bus : EventBus) (type : String) : List String :=
  (bus.subscriptions.filter fun subscription ↦ subscription.type = type).map Subscription.listener

def call (payload : Value) : EventBus → List String → EventBus × Publication
  | bus, [] => (bus, ⟨[], none⟩)
  | bus, name :: rest =>
    let listener := (Association.find? name bus.listeners).getD {}
    let after := (listener.unsubscribes.map bus.unsubscribe).getD bus
    match listener.throws with
    | some message => (after, ⟨[(name, payload)], some message⟩)
    | none =>
      let (final, publication) := call payload after rest
      (final, { publication with seen := (name, payload) :: publication.seen })

def publish (bus : EventBus) (type : String) (payload : Value) : EventBus × Publication :=
  call payload bus (bus.listenersOf type)

end EventBus

end ClusterMembership
