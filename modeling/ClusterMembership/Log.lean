import ClusterMembership.Configuration
import ClusterMembership.Text.Instant
import ClusterMembership.Value.Text

/-!
# Logging

A logger writes entries whose level is not below its own.  Context flows down: a child logger adds to the
context of its parent, and what a single call adds goes over both.  An entry is handed to a sink as it is, or
written to the console as a line of JSON or, for people, as coloured text.

A logger's own level is any text.  Text that names no level compares with none, so such a logger writes
nothing; it is refused only where the level comes from the environment.
-/

namespace ClusterMembership

inductive LogLevel where
  | debug | info | warn | error | fatal
  deriving DecidableEq, Inhabited

namespace LogLevel

/-- Every level, the least severe first. -/
def all : List LogLevel := [debug, info, warn, error, fatal]

def name : LogLevel → String
  | debug => "debug"
  | info => "info"
  | warn => "warn"
  | error => "error"
  | fatal => "fatal"

def severity : LogLevel → Nat
  | debug => 10
  | info => 20
  | warn => 30
  | error => 40
  | fatal => 50

def ofName? (name : String) : Option LogLevel := all.find? fun level ↦ level.name = name

/-- Names that every object has by inheritance.  A look-up by name finds them too, so they pass for
levels where only their presence is tested. -/
def inheritedNames : List String :=
  ["constructor", "hasOwnProperty", "isPrototypeOf", "propertyIsEnumerable", "toLocaleString",
    "toString", "valueOf", "__defineGetter__", "__defineSetter__", "__lookupGetter__",
    "__lookupSetter__", "__proto__"]

def accepts (text : String) : Bool := (ofName? text).isSome || inheritedNames.contains text

/-- The letters and the colour of a level in coloured text. -/
def label : LogLevel → String × String
  | debug => ("DEBUG", "\x1b[90m")
  | info => ("INFO ", "\x1b[36m")
  | warn => ("WARN ", "\x1b[33m")
  | error => ("ERROR", "\x1b[31m")
  | fatal => ("FATAL", "\x1b[35m")

def stream : LogLevel → String
  | debug => "debug"
  | info => "info"
  | warn => "warn"
  | error | fatal => "error"

end LogLevel

structure ErrorSummary where
  name : String
  message : String
  stack : Option String := none
  code : Field := none
  deriving DecidableEq, Inhabited

namespace ErrorSummary

/-- A code as entries show it: a text or a number. -/
def shownCode : Field → Field
  | some (.text code) => some (.text code)
  | some (.number code) => some (.number code)
  | _ => none

def ofFailure : Failure → ErrorSummary
  | .service error => { name := error.name, message := error.message, code := some (.ofInt error.code) }
  | .plain error =>
    { name := error.name, message := error.message, stack := error.stack, code := shownCode error.code }
  | failure => { name := failure.name, message := failure.message }

def toValue (summary : ErrorSummary) : Value :=
  .ofFields [("name", some (.text summary.name)), ("message", some (.text summary.message)),
    ("stack", summary.stack.map .text), ("code", summary.code)]

end ErrorSummary

structure LogEntry where
  timestamp : Instant
  level : LogLevel
  message : String
  context : Members
  error : Option ErrorSummary := none
  deriving DecidableEq, Inhabited

namespace LogEntry

/-- An entry as an object; an empty context is left out. -/
def toValue (entry : LogEntry) : Value :=
  .ofFields [("timestamp", some (.text (Instant.text entry.timestamp))),
    ("level", some (.text entry.level.name)), ("message", some (.text entry.message)),
    ("meta", if entry.context.isEmpty then none else some (.object entry.context)),
    ("error", entry.error.map ErrorSummary.toValue)]

def plainColour : String := "\x1b[0m"

/-- A coloured part of an entry's text about a member of its context, empty when there is none. -/
def remark (entry : LogEntry) (name before after : String) : String :=
  match Members.get entry.context name with
  | some value =>
    let colour := entry.level.label.2
    if value.isTruthy then s!" {colour}{before}{value.display}{after}{plainColour}" else ""
  | none => ""

/-- The error of an entry as text on lines of its own. -/
def errorText : Option ErrorSummary → String
  | none => ""
  | some summary =>
    let stack := match summary.stack with
      | none | some "" => ""
      | some stack => "\n" ++ stack
    s!"\n  Error: {summary.name}: {summary.message}{stack}"

def colouredText (entry : LogEntry) : String :=
  let label := entry.level.label
  let time := Instant.text entry.timestamp
  s!"{time} {label.2}{label.1}{plainColour} {entry.message}" ++ entry.remark "component" "(" ")" ++
    entry.remark "datanodeId" "[dn " "]" ++ errorText entry.error

end LogEntry

inductive LogSink where
  /-- The console, as JSON or as coloured text. -/
  | console (coloured : Bool)
  /-- A function that takes entries. -/
  | function
  /-- Nowhere. -/
  | silence
  deriving DecidableEq, Inhabited

/-- What a written entry looks like at its sink. -/
inductive WrittenEntry where
  | line (stream : String) (entry : Value)
  | text (stream : String) (text : String)
  | handed (entry : Value)
  deriving DecidableEq

/-- A logger: its level, its sink, the service and component it was set up with, and its context. -/
structure Logger where
  level : String
  sink : LogSink
  service : Field
  component : Field
  context : Members
  deriving DecidableEq, Inhabited

/-- How a logger is set up; what is left out takes the default. -/
structure LoggerSettings where
  level : Option String := none
  service : Field := none
  component : Field := none
  sink : LogSink := .console false
  deriving DecidableEq, Inhabited

/-- What a call gives to a logger beside its message: an error and a context. -/
structure LogAttachment where
  error : Option Failure := none
  context : Members := []
  deriving DecidableEq

/-- What a call about an error attaches: the error with a context, or another context in place of the error,
which then counts alone. -/
def LogAttachment.about (subject : Failure ⊕ Members) (context : Members) : LogAttachment :=
  match subject with
  | .inl error => { error := some error, context }
  | .inr inPlace => { context := inPlace }

namespace Logger

/-- The first field when it is truthy, else the second. -/
def preferred (first second : Field) : Field := if first.isTruthy then first else second

/-- The context of a logger: the service and component of its settings go over those of the context. -/
def settledContext (service component : Field) (context : Members) : Members :=
  (context.setField "service" (preferred service (Members.get context "service"))).setField
    "component" (preferred component (Members.get context "component"))

def create (settings : LoggerSettings) (context : Members) : Logger where
  level := settings.level.getD LogLevel.info.name
  sink := settings.sink
  service := settings.service
  component := settings.component
  context := settledContext settings.service settings.component context

/-- Whether the environment is that of a test run. -/
def isTestEnvironment (environment : Environment) : Bool :=
  environment.get? "NODE_ENV" = some "test" || environment.get? "VITEST" = some "true"

/-- Settings as the environment changes them: silent in a test run without a level of its own, else at the
level that the environment names. -/
def serviceSettings (environment : Environment) (settings : LoggerSettings) : LoggerSettings :=
  let level := (environment.get? "LOG_LEVEL").getD ""
  if isTestEnvironment environment && level = "" then
    { settings with level := some LogLevel.fatal.name, sink := .silence }
  else if LogLevel.accepts level then { settings with level := some level }
  else settings

def createService (environment : Environment) (settings : LoggerSettings) (context : Members) : Logger :=
  create (serviceSettings environment settings) context

def serviceName : String := "strata-membership"

/-- The logger that is there without being set up. -/
def standard : Logger :=
  create { service := some (.text serviceName), sink := .console true } []

def ofComponent (component : String) : Logger :=
  createService [] { level := some LogLevel.debug.name, service := some (.text serviceName) }
    [("component", .text component)]

def child (logger : Logger) (context : Members) : Logger :=
  { logger with
    context := settledContext logger.service logger.component (Members.merge logger.context context) }

def withDatanode (logger : Logger) (identity : Field) : Logger :=
  match identity with
  | some id => logger.child [("datanodeId", id)]
  | none => { logger with context := Association.without "datanodeId" logger.context }

/-- Whether entries of a level, given by name, are written. -/
def isEnabled (logger : Logger) (level : String) : Bool :=
  match LogLevel.ofName? level, LogLevel.ofName? logger.level with
  | some asked, some own => own.severity ≤ asked.severity
  | _, _ => false

/-- The entry for a message, when its level is enabled. -/
def entryFor (logger : Logger) (now : Instant) (level : LogLevel) (message : String)
    (attachment : LogAttachment) : Option LogEntry :=
  if logger.isEnabled level.name then
    some
      { timestamp := now, level, message,
        context := Members.merge logger.context attachment.context,
        error := attachment.error.map ErrorSummary.ofFailure }
  else none

def deliver (logger : Logger) (entry : LogEntry) : List WrittenEntry :=
  match logger.sink with
  | .silence => []
  | .function => [.handed entry.toValue]
  | .console true => [.text entry.level.stream entry.colouredText]
  | .console false => [.line entry.level.stream entry.toValue.jsonForm]

def write (logger : Logger) (now : Instant) (level : LogLevel) (message : String)
    (attachment : LogAttachment) : List WrittenEntry :=
  ((logger.entryFor now level message attachment).map logger.deliver).getD []

end Logger

/-- A message that a component of the service has for its log. -/
structure Note where
  component : String
  level : LogLevel
  message : String
  context : Members := []
  error : Option Failure := none
  deriving DecidableEq

namespace Note

/-- A note about one datanode, whose identity goes under the context of the note itself. -/
def about (note : Note) (identity : Field) : Note :=
  { note with context := Members.merge (.ofFields [("datanodeId", identity)]) note.context }

def entryFor (note : Note) (now : Instant) : Option LogEntry :=
  (Logger.ofComponent note.component).entryFor now note.level note.message
    { error := note.error, context := note.context }

end Note

end ClusterMembership
