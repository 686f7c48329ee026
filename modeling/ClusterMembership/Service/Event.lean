import ClusterMembership.Log
import ClusterMembership.Node.Details

/-!
# Events of the service

The service publishes what happens to datanodes and logs what it does.  Both are collected in a trace, in the
order in which they happen.
-/

namespace ClusterMembership

inductive Event where
  | registered (id : String) (details : Details) (isNew : Bool)
  | healthChanged (id : String) (previous current : Health)
  | removed (id : String)
  | pipelineReport (id : String) (report : Value)
  deriving DecidableEq

namespace Event

def type : Event → String
  | registered _ _ _ => "datanode:registered"
  | healthChanged _ _ _ => "datanode:health-changed"
  | removed _ => "datanode:removed"
  | pipelineReport _ _ => "datanode:pipeline-report"

def datanode : Event → String
  | registered id _ _ | healthChanged id _ _ | removed id | pipelineReport id _ => id

def payload : Event → Value
  | registered id details isNew =>
    .object [("datanodeId", .text id), ("details", details.toValue), ("newNode", .bool isNew)]
  | healthChanged id previous current =>
    .object [("datanodeId", .text id), ("previous", .text previous.name),
      ("current", .text current.name)]
  | removed id => .object [("datanodeId", .text id)]
  | pipelineReport id report => .object [("datanodeId", .text id), ("report", report)]

end Event

/-- Events and log entries, in order. -/
structure Trace where
  events : List Event := []
  entries : List LogEntry := []
  deriving DecidableEq, Inhabited

namespace Trace

def publish (trace : Trace) (event : Event) : Trace := { trace with events := trace.events ++ [event] }

def note (trace : Trace) (now : Instant) (note : Note) : Trace :=
  { trace with entries := trace.entries ++ (note.entryFor now).toList }

end Trace

end ClusterMembership
