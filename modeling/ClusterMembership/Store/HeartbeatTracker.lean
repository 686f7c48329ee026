import ClusterMembership.OrderedMap
import ClusterMembership.Text.Instant

/-!
# Times of heartbeats

An observer notes when it last saw a heartbeat of each datanode.  A datanode never seen counts as seen at the
start of 1970, so that it has been silent for long.
-/

namespace ClusterMembership

/-- When each datanode was last seen. -/
structure HeartbeatTracker where
  seen : OrderedMap Instant
  deriving DecidableEq, Inhabited

namespace HeartbeatTracker

def empty : HeartbeatTracker := ⟨.empty⟩

def get (tracker : HeartbeatTracker) (id : String) : Instant := (tracker.seen.get? id).getD 0

def record (tracker : HeartbeatTracker) (id : String) (now : Instant) : HeartbeatTracker :=
  ⟨tracker.seen.insert id now⟩

def erase (tracker : HeartbeatTracker) (id : String) : HeartbeatTracker := ⟨tracker.seen.erase id⟩

end HeartbeatTracker

end ClusterMembership
