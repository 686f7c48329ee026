import ClusterMembership.Command
import ClusterMembership.Log
import ClusterMembership.Node.Details
import ClusterMembership.Report

/-!
# Layout versions

The service and every datanode have a layout version of their software and one of their stored metadata.  The
service is finalized once its metadata has caught up with its software; from then on a datanode whose metadata
lies behind is due to finalize too.  Whether it is sent a command for that is a setting.
-/

namespace ClusterMembership

/-- Whether a datanode that is due to finalize is sent a command. -/
inductive FinalizeMode where
  | command | logOnly
  deriving DecidableEq, Inhabited

namespace FinalizeMode

def name : FinalizeMode → String
  | command => "command"
  | logOnly => "log-only"

def ofName? (name : String) : Option FinalizeMode :=
  [command, logOnly].find? fun mode ↦ mode.name = name

end FinalizeMode

/-- What the layout of a datanode means for the cluster. -/
inductive LayoutCheck where
  | nodeAhead | finalizeRequired | upToDate
  deriving DecidableEq, Inhabited

namespace LayoutCheck

def name : LayoutCheck → String
  | nodeAhead => "node-ahead"
  | finalizeRequired => "finalize-required"
  | upToDate => "up-to-date"

end LayoutCheck

/-- The layout versions of the service and how it deals with datanodes that lie behind. -/
structure Layout where
  software : Number
  metadata : Number
  mode : FinalizeMode
  deriving DecidableEq, Inhabited

namespace Layout

def greatestVersion : Number := 8

def component : String := "layout-version-coordinator"

/-- Layout versions of the service; the metadata is never ahead of the software. -/
def create (software metadata : Option Number) (mode : FinalizeMode) : Layout :=
  let software := software.getD greatestVersion
  ⟨software, (metadata.getD software).minimum software, mode⟩

/-- The layout that an object describes; what it leaves out takes the default. -/
def ofField (field : Field) (mode : FinalizeMode) : Layout :=
  create (field.member "software").number? (field.member "metadata").number? mode

/-- Whether the metadata has caught up with the software. -/
def isFinalized (layout : Layout) : Bool := layout.metadata.equal layout.software

def finalize (layout : Layout) : Layout := { layout with metadata := layout.software }

def report (layout : Layout) : LayoutReport := ⟨layout.software, layout.metadata⟩

/-- The versions given to a datanode that is loaded from storage: neither ahead nor due to finalize. -/
def pinned (layout : Layout) : LayoutReport := ⟨layout.software, layout.software⟩

/-- Compare the reported layout of a datanode with that of the service. -/
def check (layout : Layout) (reported : LayoutReport) : LayoutCheck :=
  if layout.software.less reported.software then .nodeAhead
  else if layout.isFinalized && reported.metadata.less layout.metadata then .finalizeRequired
  else .upToDate

def checkNotes (layout : Layout) (details : Details) (reported : LayoutReport) : List Note :=
  let about (versions : List (String × Field)) : Members :=
    .ofFields (("datanodeId", details.identity) :: ("hostName", details.hostName) :: versions)
  match layout.check reported with
  | .nodeAhead =>
    [{ component, level := .error
       message := "Datanode runs a newer software layout than the control plane"
       context := about
        [("datanodeSoftwareLayoutVersion", some (.number reported.software)),
          ("softwareLayoutVersion", some (.number layout.software))] }]
  | .finalizeRequired =>
    [{ component, level := .info
       message := "Datanode metadata layout is behind the finalized control plane"
       context := about
        [("datanodeMetadataLayoutVersion", some (.number reported.metadata)),
          ("metadataLayoutVersion", some (.number layout.metadata))] }]
  | .upToDate => []

/-- Whether a datanode with a reported layout is sent a command to finalize. -/
def sendsFinalize (layout : Layout) (reported : LayoutReport) : Bool :=
  layout.check reported = .finalizeRequired && layout.mode = .command

def finalizeCommand (layout : Layout) (now : Instant) : Command :=
  .issue .finalizeLayout
    (.object [("finalizeNewLayoutVersion", .bool true),
      ("softwareLayoutVersion", .number layout.software),
      ("metadataLayoutVersion", .number layout.metadata)])
    now

/-- The command to finalize for a datanode with a reported layout, when it is due and commands are sent. -/
def commandFor (layout : Layout) (reported : LayoutReport) (now : Instant) : Option Command :=
  if layout.sendsFinalize reported then some (layout.finalizeCommand now) else none

end Layout

end ClusterMembership
