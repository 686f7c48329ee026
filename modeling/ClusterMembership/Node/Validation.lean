import ClusterMembership.Node.Address
import ClusterMembership.Node.Details
import ClusterMembership.Node.HostName
import ClusterMembership.Node.Identifier
import ClusterMembership.Node.Location

/-!
# Validation of details

Each member of the details has a check that finds its first flaw or none.  `check` runs all checks in a fixed order;
details without flaws may register.  Ports, the location, the expiry and the time of setup may be left out.  A flaw of a
port quotes the name that is unknown, so that the checks fail where this name has no text.
-/

namespace ClusterMembership

inductive FlawKind where
  | required | wrongType | wrongFormat | wrongValue | tooLong | outOfRange | duplicate
  deriving DecidableEq, Inhabited

namespace FlawKind

def name : FlawKind → String
  | required => "REQUIRED"
  | wrongType => "INVALID_TYPE"
  | wrongFormat => "INVALID_FORMAT"
  | wrongValue => "INVALID_VALUE"
  | tooLong => "TOO_LONG"
  | outOfRange => "OUT_OF_RANGE"
  | duplicate => "DUPLICATE"

end FlawKind

structure Flaw where
  field : String
  message : String
  kind : FlawKind
  deriving DecidableEq, Inhabited

namespace Flaw

def toValue (flaw : Flaw) : Value :=
  .object [("field", .text flaw.field), ("message", .text flaw.message),
    ("code", .text flaw.kind.name)]

def problem (flaw : Flaw) : FieldProblem :=
  { field := flaw.field, message := flaw.message, rule := some flaw.kind.name }

end Flaw

namespace Validation

/-- Check a text that must be there: first that it is given, then that it is a text, then its form. -/
def requiredText (field label : String) (form : String → Option Flaw) : Field → Option Flaw
  | none | some .null | some (.text "") => some ⟨field, s!"{label} is required", .required⟩
  | some (.text text) => form text
  | some _ => some ⟨field, s!"{label} must be a string", .wrongType⟩

def identifier : Field → Option Flaw :=
  requiredText "uuid" "Datanode UUID" fun text ↦
    if Identifier.isValid text then none
    else some ⟨"uuid", "Datanode UUID must be a valid UUID", .wrongFormat⟩

def hostName : Field → Option Flaw :=
  requiredText "hostName" "Host name" fun text ↦
    if HostName.isTooLong text then
      some ⟨"hostName", s!"Host name cannot exceed {HostName.greatestLength} characters", .tooLong⟩
    else if HostName.isWellFormed text then none
    else
      some ⟨"hostName", "Host name must consist of dot-separated alphanumeric labels", .wrongFormat⟩

def ipAddress : Field → Option Flaw :=
  requiredText "ipAddress" "IP address" fun text ↦
    if Address.isValid text then none
    else some ⟨"ipAddress", "IP address must be a valid IPv4 or IPv6 address", .wrongFormat⟩

def portRange : Int × Int := (1, 65535)

def isPortValue : Field → Bool
  | some (.number value) =>
    value.isInteger && (Number.ofInt portRange.1).atMost value &&
      value.atMost (Number.ofInt portRange.2)
  | _ => false

/-- The failure of asking for a text where there is none. -/
def noText : Failure := .misshapen "Cannot convert object to primitive value"

/-- The text of a field, or else the failure of asking for it. -/
def shown (field : Field) : Except Failure String :=
  match field.shown? with
  | some text => .ok text
  | none => .error noText

/-- The flaw of the port at an index, given the names of the ports before it. -/
def portFlaw (seen : List String) (index : Nat) (port : Value) : Except Failure (Option Flaw) :=
  if !port.isObject then
    .ok (some ⟨s!"ports[{index}]", "Port must be an object with name and value", .wrongType⟩)
  else
    let name := port.member "name"
    if !PortName.isWritten name then
      (shown name).map fun text ↦ some ⟨s!"ports[{index}].name", s!"Unknown port name: {text}", .wrongValue⟩
    else if !isPortValue (port.member "value") then
      .ok (some ⟨s!"ports[{index}].value",
        s!"Port value must be an integer between {portRange.1} and {portRange.2}", .outOfRange⟩)
    else if seen.contains name.text then
      .ok (some ⟨s!"ports[{index}].name", s!"Duplicate port name: {name.text}", .duplicate⟩)
    else .ok none

/-- The first flaw in a list of ports. -/
def portsFlaw (seen : List String) (index : Nat) : List Value → Except Failure (Option Flaw)
  | [] => .ok none
  | port :: rest =>
    match portFlaw seen index port with
    | .ok none => portsFlaw (seen ++ [(port.member "name").text]) (index + 1) rest
    | ended => ended

/-- Check the ports; a datanode may advertise none. -/
def checkPorts : Field → Except Failure (Option Flaw)
  | none | some .null => .ok none
  | some (.list ports) => portsFlaw [] 0 ports
  | some _ => .ok (some ⟨"ports", "Ports must be an array", .wrongType⟩)

/-- The flaw of ports, if there is one that can be told. -/
def ports (given : Field) : Option Flaw := (checkPorts given).toOption.join

/-- Check a location; the default stands for one that is left out. -/
def networkLocation : Field → Option Flaw
  | none | some .null => none
  | some (.text text) =>
    if Location.isWellFormed text.toList then none
    else
      some ⟨"networkLocation", "Network location must be an absolute path such as /dc1/rack1",
        .wrongFormat⟩
  | some _ => some ⟨"networkLocation", "Network location must be a string", .wrongType⟩

/-- The field that an operational state is expected in. -/
def operationalField : String := "persistedOpState"

def operational (field : String) (state : Field) : Option Flaw :=
  if !state.isPresent then some ⟨field, "Operational state is required", .required⟩
  else if OperationalState.isWritten state then none
  else
    let names := String.intercalate ", " (OperationalState.all.map OperationalState.name)
    some ⟨field, s!"Operational state must be one of: {names}", .wrongValue⟩

/-- Check an integer that may be left out and must not be negative. -/
def nonNegativeInteger (field : String) (value : Field) : Option Flaw :=
  let flaw : Flaw := ⟨field, s!"{field} must be a non-negative integer", .outOfRange⟩
  match value with
  | none | some .null => none
  | some (.number value) => if value.isInteger && !value.less 0 then none else some flaw
  | some _ => some flaw

/-- Find all flaws of what should be details. -/
def check : Field → Except Failure (List Flaw)
  | some (.object members) =>
    let get := Members.get members
    (checkPorts (get "ports")).map fun port ↦
      [identifier (get "uuid"), hostName (get "hostName"), ipAddress (get "ipAddress"), port,
        networkLocation (get "networkLocation"), operational operationalField (get "persistedOpState"),
        nonNegativeInteger "persistedOpStateExpiryEpochSec" (get "persistedOpStateExpiryEpochSec"),
        nonNegativeInteger "setupTime" (get "setupTime")].filterMap fun found ↦ found
  | _ => .ok [⟨"input", "Datanode details must be an object", .wrongType⟩]

/-- The flaws of what should be details, as far as they can be told. -/
def flaws (offered : Field) : List Flaw := (check offered).toOption.getD []

end Validation

end ClusterMembership
