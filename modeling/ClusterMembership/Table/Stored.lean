import ClusterMembership.Node.Details

/-!
# Stored details

Details that come back from a database are trusted only as far as their shape goes: ten members of the right
types.  What does not fit is refused as a whole; what fits is reduced to those ten members.
-/

namespace ClusterMembership

namespace StoredDetails

def readText : Field → Option Value
  | some (.text text) => some (.text text)
  | _ => none

def readNumber : Field → Option Value
  | some (.number value) => some (.number value)
  | _ => none

def readState (field : Field) : Option Value :=
  if OperationalState.isWritten field then field else none

/-- A port, reduced to its name and value. -/
def readPort : Value → Option Value
  | .object members =>
    let name := Members.get members "name"
    match name, Members.get members "value" with
    | some (.text text), some (.number value) =>
      if PortName.isWritten name then some (.object [("name", .text text), ("value", .number value)])
      else none
    | _, _ => none
  | _ => none

def readPorts : Field → Option Value
  | some (.list ports) => (ports.mapM readPort).map .list
  | _ => none

/-- The members of stored details and how each is read. -/
def shape : List (String × (Field → Option Value)) :=
  [("uuid", readText), ("hostName", readText), ("ipAddress", readText), ("ports", readPorts),
    ("networkLocation", readText), ("persistedOpState", readState),
    ("persistedOpStateExpiryEpochSec", readNumber), ("version", readText), ("setupTime", readNumber),
    ("revision", readText)]

def readMembers (members : Members) : List (String × (Field → Option Value)) → Option Members
  | [] => some []
  | (name, reader) :: rest =>
    match reader (Members.get members name), readMembers members rest with
    | some value, some others => some ((name, value) :: others)
    | _, _ => none

def read? : Value → Option Details
  | .object members => (readMembers members shape).map Details.mk
  | _ => none

end StoredDetails

end ClusterMembership
