import ClusterMembership.Text.Instant
import ClusterMembership.Value

/-!
# Commands for datanodes

A command waits for a datanode until the reply to one of its heartbeats carries it away.  Commands that the
service itself issues get a fresh identifier; since the service never looks at identifiers, one text stands
for all of them.
-/

namespace ClusterMembership

inductive CommandKind where
  | reregister | closeContainer | deleteBlocks | deleteContainer | replicateContainer
  | reconstructContainers | createPipeline | closePipeline | setOperationalState
  | finalizeLayout | refreshUsage
  deriving DecidableEq, Inhabited

namespace CommandKind

def all : List CommandKind :=
  [reregister, closeContainer, deleteBlocks, deleteContainer, replicateContainer,
    reconstructContainers, createPipeline, closePipeline, setOperationalState, finalizeLayout,
    refreshUsage]

def name : CommandKind → String
  | reregister => "reregisterCommand"
  | closeContainer => "closeContainerCommand"
  | deleteBlocks => "deleteBlocksCommand"
  | deleteContainer => "deleteContainerCommand"
  | replicateContainer => "replicateContainerCommand"
  | reconstructContainers => "reconstructECContainersCommand"
  | createPipeline => "createPipelineCommand"
  | closePipeline => "closePipelineCommand"
  | setOperationalState => "setNodeOperationalStateCommand"
  | finalizeLayout => "finalizeNewLayoutVersionCommand"
  | refreshUsage => "refreshVolumeUsageInfo"

def ofName? (name : String) : Option CommandKind := all.find? fun kind ↦ kind.name = name

def isWritten (field : Field) : Bool := field.text?.any fun text ↦ (ofName? text).isSome

end CommandKind

structure Command where
  id : String
  kind : CommandKind
  payload : Value
  issuedAt : Instant
  deriving DecidableEq, Inhabited

namespace Command

/-- The identifier of commands that the service issues itself. -/
def issuedId : String := "generated"

def issue (kind : CommandKind) (payload : Value) (now : Instant) : Command :=
  ⟨issuedId, kind, payload, now⟩

def reregister (now : Instant) : Command := issue .reregister (.object []) now

def toValue (command : Command) : Value :=
  .object [("id", .text command.id), ("type", .text command.kind.name),
    ("payload", command.payload), ("issuedAt", .ofInt command.issuedAt)]

/-- The command that an object describes; one of no known kind is one to register again. -/
def ofField (field : Field) : Command where
  id := (field.member "id").text
  kind := (CommandKind.ofName? (field.member "type").text).getD .reregister
  payload := (field.member "payload").getD (.object [])
  issuedAt := (field.member "issuedAt").integer?.getD 0

end Command

end ClusterMembership
