import ClusterMembership.Duration
import ClusterMembership.Failure

/-!
# Configuration

The service is configured by overrides of the defaults or by environment variables.  Both ways end with the
same check of consistency, which reports every offending field at once.  The two policies are checked where
they are read from the environment.
-/

namespace ClusterMembership

/-- The settings of the service; intervals are in milliseconds. -/
structure Configuration where
  clusterId : String
  heartbeatInterval : Number
  staleInterval : Number
  deadInterval : Number
  checkInterval : Number
  observerInterval : Number
  observerMultiplier : Number
  pendingCommands : String
  durability : String
  deriving DecidableEq, Inhabited

structure ConfigurationOverrides where
  clusterId : Option String := none
  heartbeatInterval : Option Number := none
  staleInterval : Option Number := none
  deadInterval : Option Number := none
  checkInterval : Option Number := none
  observerInterval : Option Number := none
  observerMultiplier : Option Number := none
  pendingCommands : Option String := none
  durability : Option String := none
  deriving DecidableEq, Inhabited

def ConfigurationOverrides.ofField (field : Field) : ConfigurationOverrides where
  clusterId := (field.member "clusterId").text?
  heartbeatInterval := (field.member "heartbeatIntervalMs").number?
  staleInterval := (field.member "staleNodeIntervalMs").number?
  deadInterval := (field.member "deadNodeIntervalMs").number?
  checkInterval := (field.member "heartbeatCheckIntervalMs").number?
  observerInterval := (field.member "observerHeartbeatIntervalMs").number?
  observerMultiplier := (field.member "observerStaleMultiplier").number?
  pendingCommands := (field.member "pendingCommandsOnReregister").text?
  durability := (field.member "registrationDurability").text?

abbrev Environment := List (String × String)

namespace Environment

def ofField (field : Field) : Environment :=
  field.members.filterMap fun entry ↦ (Field.text? (some entry.2)).map fun text ↦ (entry.1, text)

def get? (environment : Environment) (name : String) : Option String :=
  Association.find? name environment

end Environment

inductive Interval where
  | heartbeat | stale | dead | check | observer
  deriving DecidableEq, Inhabited

namespace Interval

/-- Every interval, in the order in which they are checked. -/
def all : List Interval := [heartbeat, stale, dead, check, observer]

def field : Interval → String
  | heartbeat => "heartbeatIntervalMs"
  | stale => "staleNodeIntervalMs"
  | dead => "deadNodeIntervalMs"
  | check => "heartbeatCheckIntervalMs"
  | observer => "observerHeartbeatIntervalMs"

def variableName : Interval → String
  | heartbeat => "HEARTBEAT_INTERVAL"
  | stale => "STALE_NODE_INTERVAL"
  | dead => "DEAD_NODE_INTERVAL"
  | check => "HEARTBEAT_CHECK_INTERVAL"
  | observer => "OBSERVER_HEARTBEAT_INTERVAL"

def value (configuration : Configuration) : Interval → Number
  | heartbeat => configuration.heartbeatInterval
  | stale => configuration.staleInterval
  | dead => configuration.deadInterval
  | check => configuration.checkInterval
  | observer => configuration.observerInterval

def update (configuration : Configuration) (value : Number) : Interval → Configuration
  | heartbeat => { configuration with heartbeatInterval := value }
  | stale => { configuration with staleInterval := value }
  | dead => { configuration with deadInterval := value }
  | check => { configuration with checkInterval := value }
  | observer => { configuration with observerInterval := value }

end Interval

namespace Configuration

/-- The settings of a service that is not configured. -/
def default : Configuration where
  clusterId := "CID-local"
  heartbeatInterval := 30000
  staleInterval := 300000
  deadInterval := 600000
  checkInterval := 3000
  observerInterval := 60000
  observerMultiplier := 3
  pendingCommands := "retain"
  durability := "best-effort"

/-- Policies for commands that wait for a datanode when it is asked to register again. -/
def pendingPolicies : List String := ["retain", "discard"]

/-- Policies for failed writes to the node table. -/
def durabilityPolicies : List String := ["best-effort", "strict"]

/-- Whether waiting commands are dropped when a datanode is asked to register again. -/
def discardsPending (configuration : Configuration) : Bool := configuration.pendingCommands = "discard"

/-- Whether a failed write makes the operation fail. -/
def isStrict (configuration : Configuration) : Bool := configuration.durability = "strict"

def toValue (configuration : Configuration) : Value :=
  .object [("clusterId", .text configuration.clusterId),
    ("heartbeatIntervalMs", .number configuration.heartbeatInterval),
    ("staleNodeIntervalMs", .number configuration.staleInterval),
    ("deadNodeIntervalMs", .number configuration.deadInterval),
    ("heartbeatCheckIntervalMs", .number configuration.checkInterval),
    ("observerHeartbeatIntervalMs", .number configuration.observerInterval),
    ("observerStaleMultiplier", .number configuration.observerMultiplier),
    ("pendingCommandsOnReregister", .text configuration.pendingCommands),
    ("registrationDurability", .text configuration.durability)]

/-! ## Consistency -/

def clusterProblem (configuration : Configuration) : Option FieldProblem :=
  if Text.isBlankText configuration.clusterId then
    some { field := "clusterId", message := "Cluster id cannot be empty", rule := some "required" }
  else none

def intervalProblem (configuration : Configuration) (interval : Interval) : Option FieldProblem :=
  let value := interval.value configuration
  if value.isFinite && Number.less 0 value then none
  else
    some { field := interval.field, message := "Must be a positive duration", rule := some "range",
           received := some (.number value) }

def orderProblem (configuration : Configuration) : Option FieldProblem :=
  if configuration.deadInterval.atMost configuration.staleInterval then
    some { field := "staleNodeIntervalMs",
           message := "Stale interval must be shorter than the dead interval",
           rule := some "constraint", received := some (.number configuration.staleInterval) }
  else none

def multiplierProblem (configuration : Configuration) : Option FieldProblem :=
  let value := configuration.observerMultiplier
  if value.isFinite && !value.less 1 then none
  else
    some { field := "observerStaleMultiplier", message := "Multiplier must be at least 1",
           rule := some "range", received := some (.number value) }

def problems (configuration : Configuration) : List FieldProblem :=
  configuration.clusterProblem.toList ++
    Interval.all.filterMap configuration.intervalProblem ++
    configuration.orderProblem.toList ++ configuration.multiplierProblem.toList

def validate (configuration : Configuration) : Except Failure Unit :=
  match configuration.problems with
  | [] => .ok ()
  | problems => .error (.service (.fieldsWrong problems))

/-! ## Overrides -/

/-- The defaults with some settings replaced. -/
def withOverrides (overrides : ConfigurationOverrides) : Configuration where
  clusterId := overrides.clusterId.getD default.clusterId
  heartbeatInterval := overrides.heartbeatInterval.getD default.heartbeatInterval
  staleInterval := overrides.staleInterval.getD default.staleInterval
  deadInterval := overrides.deadInterval.getD default.deadInterval
  checkInterval := overrides.checkInterval.getD default.checkInterval
  observerInterval := overrides.observerInterval.getD default.observerInterval
  observerMultiplier := overrides.observerMultiplier.getD default.observerMultiplier
  pendingCommands := overrides.pendingCommands.getD default.pendingCommands
  durability := overrides.durability.getD default.durability

def create (overrides : ConfigurationOverrides) : Except Failure Configuration :=
  let configuration := withOverrides overrides
  configuration.validate.map fun _ ↦ configuration

/-- A configuration as overrides of every setting. -/
def toOverrides (configuration : Configuration) : ConfigurationOverrides where
  clusterId := some configuration.clusterId
  heartbeatInterval := some configuration.heartbeatInterval
  staleInterval := some configuration.staleInterval
  deadInterval := some configuration.deadInterval
  checkInterval := some configuration.checkInterval
  observerInterval := some configuration.observerInterval
  observerMultiplier := some configuration.observerMultiplier
  pendingCommands := some configuration.pendingCommands
  durability := some configuration.durability

/-! ## Environment -/

def readMultiplier? (raw : String) : Option Number :=
  if Text.isBlankText raw || Number.read raw = .notANumber then none else some (Number.read raw)

/-- The policy that a text names, of those that there are. -/
def readPolicy? (policies : List String) (raw : String) : Option String :=
  if policies.contains raw then some raw else none

/-- A setting that is read from an environment variable, and what is said of a text that cannot be read.  A setting that
is replaced by what it is stays as it is. -/
structure Setting (α : Type) where
  variableName : String
  field : String
  read? : String → Option α
  value : Configuration → α
  update : Configuration → α → Configuration
  complaint : String
  rule : String
  expected : Option String := none
  update_value : ∀ configuration, update configuration (value configuration) = configuration

namespace Setting

def problem {α : Type} (setting : Setting α) (raw : String) : FieldProblem where
  field := setting.field
  message := s!"{setting.variableName} {setting.complaint}"
  rule := some setting.rule
  expected := setting.expected
  received := some (.text raw)

def ofInterval (interval : Interval) : Setting Number where
  variableName := interval.variableName
  field := interval.field
  read? := Duration.read?
  value configuration := interval.value configuration
  update configuration value := interval.update configuration value
  complaint := "is not a duration"
  rule := "format"
  expected := some "e.g. 500ms, 30s, 5m, 1h"
  update_value configuration := by cases interval <;> rfl

def multiplier : Setting Number where
  variableName := "OBSERVER_STALE_MULTIPLIER"
  field := "observerStaleMultiplier"
  read? := readMultiplier?
  value := observerMultiplier
  update configuration value := { configuration with observerMultiplier := value }
  complaint := "is not a number"
  rule := "format"
  update_value _ := rfl

def pending : Setting String where
  variableName := "PENDING_COMMANDS_ON_REREGISTER"
  field := "pendingCommandsOnReregister"
  read? := readPolicy? pendingPolicies
  value := pendingCommands
  update configuration policy := { configuration with pendingCommands := policy }
  complaint := "must be retain or discard"
  rule := "enum"
  update_value _ := rfl

def durability : Setting String where
  variableName := "REGISTRATION_DURABILITY"
  field := "registrationDurability"
  read? := readPolicy? durabilityPolicies
  value := Configuration.durability
  update configuration policy := { configuration with durability := policy }
  complaint := "must be best-effort or strict"
  rule := "enum"
  update_value _ := rfl

end Setting

/-- A configuration being read, and the problems met so far. -/
structure Draft where
  configuration : Configuration
  problems : List FieldProblem

namespace Draft

def readCluster (environment : Environment) (draft : Draft) : Draft :=
  match environment.get? "CLUSTER_ID" with
  | none => draft
  | some value => { draft with configuration := { draft.configuration with clusterId := value } }

/-- Read a setting: of a text that cannot be read a problem is noted. -/
def readWith {α : Type} (environment : Environment) (draft : Draft) (setting : Setting α) : Draft :=
  match environment.get? setting.variableName with
  | none => draft
  | some raw =>
    match setting.read? raw with
    | some value => { draft with configuration := setting.update draft.configuration value }
    | none => { draft with problems := draft.problems ++ [setting.problem raw] }

end Draft

def draft (environment : Environment) : Draft :=
  let start : Draft := ⟨default, []⟩
  let cluster := start.readCluster environment
  let intervals := Interval.all.foldl (fun draft interval ↦ draft.readWith environment (.ofInterval interval)) cluster
  ((intervals.readWith environment .multiplier).readWith environment .pending).readWith environment .durability

/-- A configuration from environment variables: malformed ones are reported together, before the check of
consistency. -/
def load (environment : Environment) : Except Failure Configuration :=
  let draft := draft environment
  match draft.problems with
  | [] => draft.configuration.validate.map fun _ ↦ draft.configuration
  | problems => .error (.service (.fieldsWrong problems))

/-! ## Thresholds -/

/-- The silence after which an observer asks a datanode to register again. -/
def outdatedThreshold (configuration : Configuration) : Number :=
  configuration.observerMultiplier * configuration.observerInterval

/-- Whether a silence in milliseconds has reached a threshold. -/
def isReached (threshold : Number) (silence : Int) : Bool := threshold.atMost (.finite silence)

end Configuration

end ClusterMembership
