import ClusterMembership.Failure
import ClusterMembership.Node.State

/-!
# What a datanode says about itself

Details are an object whose members the service passes on, also those it does not know.  Ten members have a
meaning; each may be left out, and reading one gives a field.  `Details.normalize` is the form in which details
are kept: every port is a plain object of its own and a location is always named.
-/

namespace ClusterMembership

structure Details where
  members : Members
  deriving DecidableEq, Inhabited

def defaultLocation : String := "/default-rack"

structure Descriptor where
  hostName : Field
  ipAddress : Field
  version : Field
  setupTime : Field
  revision : Field
  deriving DecidableEq, Inhabited

namespace Descriptor

def empty : Descriptor where
  hostName := some (.text "")
  ipAddress := some (.text "")
  version := some (.text "")
  setupTime := some (.number 0)
  revision := some (.text "")

def toValue (descriptor : Descriptor) : Value :=
  .ofFields [("hostName", descriptor.hostName), ("ipAddress", descriptor.ipAddress),
    ("version", descriptor.version), ("setupTime", descriptor.setupTime),
    ("revision", descriptor.revision)]

end Descriptor

namespace Details

/-! ## Members -/

def get (details : Details) (name : String) : Field := Members.get details.members name

def toValue (details : Details) : Value := .object details.members

def identity (details : Details) : Field := details.get "uuid"

/-- The identifier under which the service knows the datanode. -/
def id (details : Details) : String := details.identity.text?.getD ""

def hostName (details : Details) : Field := details.get "hostName"

def ipAddress (details : Details) : Field := details.get "ipAddress"

def ports (details : Details) : Field := details.get "ports"

def networkLocation (details : Details) : Field := details.get "networkLocation"

/-- The location, empty when none is given. -/
def location (details : Details) : String := details.networkLocation.text?.getD ""

/-- The operational state that the datanode keeps. -/
def operational (details : Details) : Field := details.get "persistedOpState"

/-- When the operational state lapses, in seconds since the start of 1970. -/
def expiry (details : Details) : Field := details.get "persistedOpStateExpiryEpochSec"

def descriptor (details : Details) : Descriptor where
  hostName := details.hostName
  ipAddress := details.ipAddress
  version := details.get "version"
  setupTime := details.get "setupTime"
  revision := details.get "revision"

def withOperational (details : Details) (state expiry : Field) : Details :=
  ⟨(details.members.setField "persistedOpState" state).setField
    "persistedOpStateExpiryEpochSec" expiry⟩

/-- Whether the datanode has a host name or IP address. -/
def hasAddress (details : Details) (address : String) : Bool :=
  details.hostName = some (.text address) || details.ipAddress = some (.text address)

/-- Details are determined by the object that they are. -/
theorem toValue_inj {a b : Details} : a.toValue = b.toValue ↔ a = b := by
  cases a
  cases b
  simp [toValue]

theorem get_withOperational (details : Details) (state expiry : Field) (name : String) :
    (details.withOperational state expiry).get name =
      if "persistedOpStateExpiryEpochSec" = name then expiry
      else if "persistedOpState" = name then state else details.get name := by
  unfold get withOperational
  rw [Members.get_setField, Members.get_setField]

theorem get_withOperational_of_ne (details : Details) (state expiry : Field) {name : String}
    (hstate : "persistedOpState" ≠ name) (hexpiry : "persistedOpStateExpiryEpochSec" ≠ name) :
    (details.withOperational state expiry).get name = details.get name := by
  rw [get_withOperational, if_neg hexpiry, if_neg hstate]

@[simp]
theorem operational_withOperational (details : Details) (state expiry : Field) :
    (details.withOperational state expiry).operational = state :=
  get_withOperational details state expiry "persistedOpState"

@[simp]
theorem expiry_withOperational (details : Details) (state expiry : Field) :
    (details.withOperational state expiry).expiry = expiry :=
  get_withOperational details state expiry "persistedOpStateExpiryEpochSec"

@[simp]
theorem identity_withOperational (details : Details) (state expiry : Field) :
    (details.withOperational state expiry).identity = details.identity :=
  get_withOperational_of_ne details state expiry (by decide) (by decide)

@[simp]
theorem id_withOperational (details : Details) (state expiry : Field) :
    (details.withOperational state expiry).id = details.id := by
  rw [id, identity_withOperational, id]

@[simp]
theorem networkLocation_withOperational (details : Details) (state expiry : Field) :
    (details.withOperational state expiry).networkLocation = details.networkLocation :=
  get_withOperational_of_ne details state expiry (by decide) (by decide)

@[simp]
theorem location_withOperational (details : Details) (state expiry : Field) :
    (details.withOperational state expiry).location = details.location := by
  rw [location, networkLocation_withOperational, location]

/-- Details with the operational state that they have already are the same. -/
theorem withOperational_self (details : Details) :
    details.withOperational details.operational details.expiry = details := by
  have hstate : details.members.setField "persistedOpState" details.operational = details.members :=
    Members.setField_get details.members "persistedOpState"
  have hexpiry :
      details.members.setField "persistedOpStateExpiryEpochSec" details.expiry = details.members :=
    Members.setField_get details.members "persistedOpStateExpiryEpochSec"
  rw [withOperational, hstate, hexpiry]

/-! ## The kept form -/

/-- The members that a copy of a value has: those of an object, the items of a list by position, the
characters of a text by position. -/
def membersOf : Value → Members
  | .object members => members
  | .list items => items.zipIdx.map fun (item, index) ↦ (toString index, item)
  | .text chars => chars.toList.zipIdx.map fun (c, index) ↦ (toString index, .text c.toString)
  | _ => []

/-- Each port as an object of its own. -/
def copyPorts : Field → Except Failure (List Value)
  | some (.list ports) => .ok (ports.map fun port ↦ .object (membersOf port))
  | none => .error (.misshapen "Cannot read properties of undefined (reading 'map')")
  | some .null => .error (.misshapen "Cannot read properties of null (reading 'map')")
  | some _ => .error (.misshapen "details.ports.map is not a function")

/-- A location as it is kept: the default stands for one that is left out or empty. -/
def keptLocation (location : Field) : Value :=
  if location.isTruthy then location.getD .null else .text defaultLocation

/-- The form in which details are kept. -/
def normalize (details : Details) : Except Failure Details :=
  (copyPorts details.ports).map fun ports ↦
    ⟨(details.members.set "ports" (.list ports)).set "networkLocation"
      (keptLocation details.networkLocation)⟩

def findPort (name : String) : List Value → Except Failure Field
  | [] => .ok none
  | .null :: _ => .error (.misshapen "Cannot read properties of null (reading 'name')")
  | port :: rest => if port.member "name" = some (.text name) then .ok (some port) else findPort name rest

def getPort (details : Details) (name : String) : Except Failure Field :=
  match details.ports with
  | some (.list ports) => findPort name ports
  | some .null => .error (.misshapen "Cannot read properties of null (reading 'find')")
  | none => .error (.misshapen "Cannot read properties of undefined (reading 'find')")
  | some _ => .error (.misshapen "details.ports.find is not a function")

/-- The details in a field, or the refusal to read a member of nothing. -/
def ofField (field : Field) : Except Failure Details :=
  match field with
  | none => .error (.misshapen "Cannot read properties of undefined (reading 'uuid')")
  | some .null => .error (.misshapen "Cannot read properties of null (reading 'uuid')")
  | some (.object members) => .ok ⟨members⟩
  | some _ => .ok ⟨[]⟩

end Details

end ClusterMembership
