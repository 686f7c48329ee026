import ClusterMembership.Node.Details
import ClusterMembership.Report
import ClusterMembership.Text.Instant
import ClusterMembership.Text.Listing

/-!
# Registry records

The record of a registered datanode holds its details, the status that the service gives it, the time of its
last heartbeat and its last reports.  A listing shows records as `ListItem`s, sorted by host name and then
by identifier.
-/

namespace ClusterMembership

/-- The status that the service holds for a datanode. -/
structure NodeStatus where
  operational : Field
  health : Health
  expiry : Field
  deriving DecidableEq, Inhabited

namespace NodeStatus

/-- Whether the datanode is expected to serve. -/
def isInService (status : NodeStatus) : Bool :=
  status.operational = some (.text OperationalState.inService.name)

def isHealthy (status : NodeStatus) : Bool := status.health = .healthy

def isHealthyInService (status : NodeStatus) : Bool := status.isHealthy && status.isInService

def toValue (status : NodeStatus) : Value :=
  .ofFields [("operationalState", status.operational), ("health", some (.text status.health.name)),
    ("opStateExpiryEpochSec", status.expiry)]

/-- The status that an object describes; one without a known health is healthy. -/
def ofField (field : Field) : NodeStatus where
  operational := field.member "operationalState"
  health := (Health.ofName? (field.member "health").text).getD .healthy
  expiry := field.member "opStateExpiryEpochSec"

end NodeStatus

/-- Which records are wanted: each condition that is given must hold. -/
structure NodeFilter where
  health : Field := none
  operational : Field := none
  deriving DecidableEq, Inhabited

def NodeFilter.ofField (field : Field) : NodeFilter :=
  ⟨field.member "health", field.member "operationalState"⟩

/-- What the service knows of a registered datanode. -/
structure NodeRecord where
  details : Details
  status : NodeStatus
  lastHeartbeat : Instant
  layout : LayoutReport
  storage : StorageUsage
  registeredAt : Instant
  updatedAt : Instant
  deriving DecidableEq, Inhabited

structure ListItem where
  identity : Field
  hostName : Field
  ipAddress : Field
  networkLocation : Field
  status : NodeStatus
  lastHeartbeat : Instant
  storage : StorageUsage
  deriving DecidableEq, Inhabited

namespace NodeRecord

/-- The record of a datanode that has just registered with details in their kept form.  It starts in the
operational state that it reports, and registering counts as a heartbeat. -/
def registered (details : Details) (layout : LayoutReport) (now : Instant) : NodeRecord where
  details := details
  status := ⟨details.operational, .healthy, details.expiry⟩
  lastHeartbeat := now
  layout := layout
  storage := .empty
  registeredAt := now
  updatedAt := now

/-- The record of a datanode that has just registered. -/
def create (details : Details) (layout : LayoutReport) (now : Instant) :
    Except Failure NodeRecord :=
  details.normalize.map fun kept ↦ registered kept layout now

def id (record : NodeRecord) : String := record.details.id

/-- Milliseconds without a heartbeat, never negative. -/
def silence (record : NodeRecord) (now : Instant) : Int := max 0 (now - record.lastHeartbeat)

def satisfies (record : NodeRecord) (filter : NodeFilter) : Bool :=
  (filter.health.isNone || filter.health = some (.text record.status.health.name)) &&
    (filter.operational.isNone || filter.operational.same record.status.operational)

def toValue (record : NodeRecord) : Value :=
  .object [("details", record.details.toValue), ("status", record.status.toValue),
    ("lastHeartbeat", .ofInt record.lastHeartbeat), ("layoutVersion", record.layout.toValue),
    ("storage", record.storage.toValue), ("registeredAt", .ofInt record.registeredAt),
    ("updatedAt", .ofInt record.updatedAt)]

def ofField (field : Field) : NodeRecord where
  details := ⟨(field.member "details").members⟩
  status := .ofField (field.member "status")
  lastHeartbeat := (field.member "lastHeartbeat").integer?.getD 0
  layout := .ofField (field.member "layoutVersion")
  storage := .ofField (field.member "storage")
  registeredAt := (field.member "registeredAt").integer?.getD 0
  updatedAt := (field.member "updatedAt").integer?.getD 0

def toListItem (record : NodeRecord) : ListItem where
  identity := record.details.identity
  hostName := record.details.hostName
  ipAddress := record.details.ipAddress
  networkLocation := record.details.networkLocation
  status := record.status
  lastHeartbeat := record.lastHeartbeat
  storage := record.storage

end NodeRecord

namespace ListItem

def host (item : ListItem) : String := item.hostName.text?.getD ""

def id (item : ListItem) : String := item.identity.text?.getD ""

def atMost (a b : ListItem) : Bool :=
  if Text.listedAlike a.host b.host then Text.listedAtMost a.id b.id
  else Text.listedAtMost a.host b.host

/-- Items by host name, then by identifier. -/
def sorted (items : List ListItem) : List ListItem := items.mergeSort atMost

def toValue (item : ListItem) : Value :=
  .ofFields [("uuid", item.identity), ("hostName", item.hostName), ("ipAddress", item.ipAddress),
    ("networkLocation", item.networkLocation), ("operationalState", item.status.operational),
    ("health", some (.text item.status.health.name)),
    ("lastHeartbeat", some (.ofInt item.lastHeartbeat)), ("storage", some item.storage.toValue)]

def ofField (field : Field) : ListItem where
  identity := field.member "uuid"
  hostName := field.member "hostName"
  ipAddress := field.member "ipAddress"
  networkLocation := field.member "networkLocation"
  status := .ofField field
  lastHeartbeat := (field.member "lastHeartbeat").integer?.getD 0
  storage := .ofField (field.member "storage")

end ListItem

end ClusterMembership
