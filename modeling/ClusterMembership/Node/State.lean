import ClusterMembership.Value

/-!
# States of a datanode

The operational state is what an administrator wants of a datanode, the health is what the recency of its
heartbeats says, and a port name is the role a port is advertised for.
-/

namespace ClusterMembership

/-- What an administrator wants of a datanode. -/
inductive OperationalState where
  | inService | decommissioning | decommissioned | enteringMaintenance | inMaintenance
  deriving DecidableEq, Inhabited

namespace OperationalState

def all : List OperationalState :=
  [inService, decommissioning, decommissioned, enteringMaintenance, inMaintenance]

def name : OperationalState → String
  | inService => "IN_SERVICE"
  | decommissioning => "DECOMMISSIONING"
  | decommissioned => "DECOMMISSIONED"
  | enteringMaintenance => "ENTERING_MAINTENANCE"
  | inMaintenance => "IN_MAINTENANCE"

def ofName? (name : String) : Option OperationalState := all.find? fun state ↦ state.name = name

def isWritten (field : Field) : Bool := field.text?.any fun text ↦ (ofName? text).isSome

end OperationalState

/-- How recently a datanode was heard of. -/
inductive Health where
  | healthy | stale | dead
  deriving DecidableEq, Inhabited

namespace Health

/-- Every health, from the best to the worst. -/
def all : List Health := [healthy, stale, dead]

def name : Health → String
  | healthy => "HEALTHY"
  | stale => "STALE"
  | dead => "DEAD"

def ofName? (name : String) : Option Health := all.find? fun health ↦ health.name = name

/-- Ranks of health, the worst highest. -/
def rank : Health → Nat
  | healthy => 0
  | stale => 1
  | dead => 2

end Health

inductive PortName where
  | standalone | ratis | ratisAdmin | ratisServer | ratisDatastream
  | rest | replication | http | https | clientRpc
  deriving DecidableEq, Inhabited

namespace PortName

def all : List PortName :=
  [standalone, ratis, ratisAdmin, ratisServer, ratisDatastream, rest, replication, http, https,
    clientRpc]

def name : PortName → String
  | standalone => "STANDALONE"
  | ratis => "RATIS"
  | ratisAdmin => "RATIS_ADMIN"
  | ratisServer => "RATIS_SERVER"
  | ratisDatastream => "RATIS_DATASTREAM"
  | rest => "REST"
  | replication => "REPLICATION"
  | http => "HTTP"
  | https => "HTTPS"
  | clientRpc => "CLIENT_RPC"

def ofName? (name : String) : Option PortName := all.find? fun port ↦ port.name = name

def isWritten (field : Field) : Bool := field.text?.any fun text ↦ (ofName? text).isSome

end PortName

end ClusterMembership
