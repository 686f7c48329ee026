import ClusterMembership.OrderedMap

/-!
# Locks as chained tails

A task that asks for the lock of a datanode makes a request.  A request has a tail, which is resolved when the request
has been released and the tail that it was chained to is resolved.  For every datanode the tail of the latest request is
kept: the next request is chained to it, its task waits for it, and its own tail is kept instead.  A request that is
released gives up the tail that is kept only when it is still its own; else a later request has replaced it.
-/

namespace ClusterMembership

structure LockRequest where
  id : String
  /-- The task that asks. -/
  task : Nat
  /-- The request that it is chained to, if a tail was kept when it was made. -/
  previous : Option Nat
  released : Bool := false
  deriving DecidableEq, Inhabited

/-- The requests that were made, by number, and for every lock the request whose tail is kept. -/
structure LockTails where
  requests : List LockRequest := []
  tails : OrderedMap Nat := .empty
  deriving DecidableEq, Inhabited

namespace LockTails

/-- Which tails are resolved, in the order of their requests. -/
def resolutions (requests : List LockRequest) : List Bool :=
  requests.foldl (fun earlier request ↦
    earlier ++ [request.released && request.previous.all fun number ↦ earlier.getD number false]) []

def isResolved (locks : LockTails) (number : Nat) : Bool := (resolutions locks.requests).getD number false

/-- Whether the task of a request goes on: it waits while the tail that the request was chained to is not resolved. -/
def isAdmitted (locks : LockTails) (number : Nat) : Bool :=
  (locks.requests[number]?).any fun request ↦ request.previous.all locks.isResolved

/-- Whether a tail is kept for a lock. -/
def isLocked (locks : LockTails) (id : String) : Bool := locks.tails.contains id

/-- Make a request; its number is the number of those made before. -/
def ask (locks : LockTails) (id : String) (task : Nat) : LockTails where
  requests := locks.requests ++ [{ id, task, previous := locks.tails.get? id }]
  tails := locks.tails.insert id locks.requests.length

def release (locks : LockTails) (id : String) (number : Nat) : LockTails where
  requests := locks.requests.modify number fun request ↦ { request with released := true }
  tails := if locks.tails.get? id = some number then locks.tails.erase id else locks.tails

/-- The task that waits for the tail of a request and goes on because that is resolved. -/
def successor? (locks : LockTails) (number : Nat) : Option Nat :=
  if locks.isResolved number then
    (locks.requests.find? fun request ↦ request.previous = some number).map LockRequest.task
  else none

end LockTails

end ClusterMembership
