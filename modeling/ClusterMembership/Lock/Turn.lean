/-!
# Turns

What can go on stands in a line and takes turns.  An entry may let a number of turns pass before its own: it then
goes to the end of the line again each time it comes to the front.
-/

namespace ClusterMembership

/-- An entry of a line: a task, by number, and the number of turns until its next step. -/
structure Turn where
  task : Nat
  wait : Nat
  deriving DecidableEq, Inhabited

namespace Turn

/-- A turn with one turn less to wait. -/
def passed (turn : Turn) : Turn := { turn with wait := turn.wait - 1 }

/-- Whether a turn that has come to the front is to be taken. -/
def isDue (turn : Turn) : Bool := turn.wait ≤ 1

/-- The number of turns that pass before a task starts after a lock was passed on to it. -/
def handover : Nat := 2

end Turn

end ClusterMembership
