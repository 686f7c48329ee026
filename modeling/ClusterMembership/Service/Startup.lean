import ClusterMembership.Service.Loading
import ClusterMembership.Service.Monitoring
import ClusterMembership.Table.Connection

/-!
# Starting a service

A service is made as a primary or as an observer.  A membership process takes its mode and its configuration from
the environment unless they are given, makes the service over a node table, loads what the table holds, and turns
monitoring on.  Without a node table of its own it uses the database that the environment describes.
-/

namespace ClusterMembership

inductive MembershipMode where
  | primary | observer
  deriving DecidableEq, Inhabited

namespace MembershipMode

def name : MembershipMode → String
  | primary => "primary"
  | observer => "observer"

def ofName? (name : String) : Option MembershipMode := [primary, observer].find? fun mode ↦ mode.name = name

def variableName : String := "MEMBERSHIP_MODE"

/-- The mode that a text names, in any case and with blanks around it; no text names the primary. -/
def read (text : Option String) : Except Failure MembershipMode :=
  match text with
  | none => .ok primary
  | some text =>
    let name := Text.lowerAscii (Text.trim text)
    if name = "" || name = primary.name then .ok primary
    else if name = observer.name then .ok observer
    else
      .error (.service (.fieldWrong variableName
        s!"{variableName} must be primary or observer, got {text}" (some "INVALID_VALUE")))

end MembershipMode

/-- How a service is set up, beside its configuration. -/
structure ServiceSettings where
  mode : MembershipMode := .primary
  layout : Layout := .create none none .command
  authority : StateAuthority := .enforce
  clusterId : Option String := none
  table : Option Nat := none
  monitored : Bool := false
  clock : Instant

namespace Service

def managerFor (settings : ServiceSettings) (configuration : Configuration) : Manager :=
  let isObserver := settings.mode = .observer
  { configuration := configuration
    layout := if isObserver then { settings.layout with mode := .logOnly } else settings.layout
    authority := if isObserver then .followReported else settings.authority
    cluster := { id := settings.clusterId.getD configuration.clusterId }
    table := settings.table
    clock := settings.clock }

/-- Make a service with a consistent configuration. -/
def make (settings : ServiceSettings) (configuration : Configuration) : Service :=
  let manager := managerFor settings configuration
  { manager := if settings.monitored then manager.startMonitoring else manager
    observer :=
      if settings.mode = .observer then some (Observer.create configuration) else none }

def create (settings : ServiceSettings) (overrides : ConfigurationOverrides) : Except Failure Service :=
  (Configuration.create overrides).map (make settings)

end Service

structure StartupOptions where
  mode : Option MembershipMode := none
  overrides : Option ConfigurationOverrides := none
  environment : Environment := []
  table : Option Table := none
  clusterId : Option String := none

namespace StartupOptions

def resolveMode (options : StartupOptions) : Except Failure MembershipMode :=
  match options.mode with
  | some mode => .ok mode
  | none => MembershipMode.read (options.environment.get? MembershipMode.variableName)

def resolveConfiguration (options : StartupOptions) : Except Failure Configuration :=
  match options.overrides with
  | some overrides => Configuration.create overrides
  | none => Configuration.load options.environment

def resolveTable (options : StartupOptions) : Except Failure Table :=
  match options.table with
  | some table => .ok table
  | none =>
    (Connection.load options.environment).validate.bind fun _ ↦
      (HostedTable.create (Database.create [] []) none none).map fun hosted ↦
        Table.ofStore (.hosted hosted)

/-- The mode, the configuration and the node table of the process; the first that is wrong is refused. -/
def resolve (options : StartupOptions) : Except Failure (MembershipMode × Configuration × Table) :=
  options.resolveMode.bind fun mode ↦
    options.resolveConfiguration.bind fun configuration ↦
      options.resolveTable.map fun table ↦ (mode, configuration, table)

end StartupOptions

/-- The component that logs the start and the end of a process. -/
def startupComponent : String := "bootstrap"

structure StartedProcess where
  world : World
  mode : MembershipMode
  loaded : Nat

namespace World

/-- Load a new service, turn monitoring on and log the start. -/
def launch (world : World) (mode : MembershipMode) : Except Failure StartedProcess :=
  match world.load with
  | (_, .error failure) => .error failure
  | (ended, .ok reply) =>
    let loaded := match reply with
      | .count number => number
      | _ => 0
    let monitored := ended.mapManager Manager.startMonitoring
    let noted := monitored.mapManager fun manager ↦ manager.note
      { component := startupComponent, level := .info, message := "Membership service started"
        context := [("mode", .text mode.name), ("clusterId", .text manager.configuration.clusterId),
          ("loaded", .ofNat loaded)] }
    .ok ⟨noted, mode, loaded⟩

def startUp (options : StartupOptions) (clock : Instant) : Except Failure StartedProcess :=
  options.resolve.bind fun (mode, configuration, table) ↦
    let settings : ServiceSettings := { mode, clusterId := options.clusterId, table := some 0, clock }
    let world : World := ⟨Service.make settings configuration, [table]⟩
    world.launch mode

def shutDown (world : World) (mode : MembershipMode) : World :=
  let disposed : World := { world with service := world.service.dispose }
  disposed.mapManager fun manager ↦ manager.note
    { component := startupComponent, level := .info, message := "Membership service stopped"
      context := [("mode", .text mode.name)] }

end World

end ClusterMembership
