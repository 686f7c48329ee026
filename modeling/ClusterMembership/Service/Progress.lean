import ClusterMembership.Service.Manager
import ClusterMembership.Table

/-!
# Locked operations

An operation on a datanode runs under the datanode's lock.  It starts on the state of the service at once and
either ends there or waits for one request to the node table; when the table has answered, it goes on with
what it has kept meanwhile and ends.  `Progress` says how far it has come after its start.
-/

namespace ClusterMembership

structure Acknowledgement where
  permitted : Bool
  datanode : Details
  clusterId : String
  deriving DecidableEq

namespace Acknowledgement

def outcome (acknowledgement : Acknowledgement) : String :=
  if acknowledgement.permitted then "success" else "errorNodeNotPermitted"

/-- An acknowledgement as an object; one that permits repeats the addresses. -/
def toValue (acknowledgement : Acknowledgement) : Value :=
  let addresses : List (String × Field) :=
    if acknowledgement.permitted then
      [("hostName", acknowledgement.datanode.hostName), ("ipAddress", acknowledgement.datanode.ipAddress)]
    else []
  .ofFields
    ([("errorCode", some (.text acknowledgement.outcome)),
      ("datanode", some acknowledgement.datanode.toValue),
      ("clusterId", some (.text acknowledgement.clusterId))] ++ addresses)

end Acknowledgement

inductive Reply where
  | nothing
  | acknowledged (acknowledgement : Acknowledgement)
  | commands (items : List Command)
  | changed (flag : Bool)
  | count (number : Nat)
  | value (given : Value)
  deriving DecidableEq

namespace Reply

def toValue : Reply → Value
  | .nothing => .null
  | .acknowledged acknowledgement => acknowledgement.toValue
  | .commands items => .list (items.map Command.toValue)
  | .changed flag => .bool flag
  | .count number => .ofNat number
  | .value given => given

end Reply

abbrev Outcome := Except Failure Reply

/-- How far an operation has come after its start; `rest` is what it keeps while it waits. -/
inductive Progress (rest : Type) where
  | ended (outcome : Outcome)
  | asking (table : Nat) (request : TableRequest) (kept : rest)

end ClusterMembership
