import ClusterMembership.Text.Instant
import ClusterMembership.Value.Text

/-!
# Failures

An operation of the service ends with a reply or with a failure.  Most failures are errors of the service's
own: they carry a numeric code, a context object and, according to their kind, the fields that were wrong, the
datanode or the location concerned, or the table operation that failed.  The others come from below: an
ordinary error of a table, a value that lacks the shape an operation relies on, or any value raised by a table.
-/

namespace ClusterMembership

/-! ## Codes -/

/-- What went wrong, by category. -/
inductive ErrorCode where
  | unknown | internal | notImplemented | timeout
  | validationFailed | invalidInput | missingRequiredField | invalidFormat | outOfRange
  | constraintViolation
  | notFound | alreadyExists | conflict
  | nodeNotFound | nodeNotPermitted | nodeRegistrationFailed
  | clusterUnhealthy
  | invalidTopology
  | persistenceFailure | persistenceUnavailable
  deriving DecidableEq

namespace ErrorCode

def all : List ErrorCode :=
  [unknown, internal, notImplemented, timeout, validationFailed, invalidInput, missingRequiredField,
    invalidFormat, outOfRange, constraintViolation, notFound, alreadyExists, conflict, nodeNotFound,
    nodeNotPermitted, nodeRegistrationFailed, clusterUnhealthy, invalidTopology, persistenceFailure,
    persistenceUnavailable]

/-- The number of a code: thousands give the category. -/
def number : ErrorCode → Int
  | unknown => 1000
  | internal => 1001
  | notImplemented => 1002
  | timeout => 1003
  | validationFailed => 2000
  | invalidInput => 2001
  | missingRequiredField => 2002
  | invalidFormat => 2003
  | outOfRange => 2004
  | constraintViolation => 2005
  | notFound => 5000
  | alreadyExists => 5001
  | conflict => 5002
  | nodeNotFound => 7000
  | nodeNotPermitted => 7001
  | nodeRegistrationFailed => 7002
  | clusterUnhealthy => 10000
  | invalidTopology => 11000
  | persistenceFailure => 12000
  | persistenceUnavailable => 12001

def name : ErrorCode → String
  | unknown => "UNKNOWN"
  | internal => "INTERNAL"
  | notImplemented => "NOT_IMPLEMENTED"
  | timeout => "TIMEOUT"
  | validationFailed => "VALIDATION_FAILED"
  | invalidInput => "INVALID_INPUT"
  | missingRequiredField => "MISSING_REQUIRED_FIELD"
  | invalidFormat => "INVALID_FORMAT"
  | outOfRange => "OUT_OF_RANGE"
  | constraintViolation => "CONSTRAINT_VIOLATION"
  | notFound => "NOT_FOUND"
  | alreadyExists => "ALREADY_EXISTS"
  | conflict => "CONFLICT"
  | nodeNotFound => "NODE_NOT_FOUND"
  | nodeNotPermitted => "NODE_NOT_PERMITTED"
  | nodeRegistrationFailed => "NODE_REGISTRATION_FAILED"
  | clusterUnhealthy => "CLUSTER_UNHEALTHY"
  | invalidTopology => "INVALID_TOPOLOGY"
  | persistenceFailure => "PERSISTENCE_FAILURE"
  | persistenceUnavailable => "PERSISTENCE_UNAVAILABLE"

end ErrorCode

/-! ## Errors of the service -/

structure FieldProblem where
  field : String
  message : String
  rule : Option String := none
  expected : Option String := none
  received : Field := none
  deriving DecidableEq

/-- What an error of the service is about. -/
inductive ErrorKind where
  | general
  | node (id : Option String)
  | topology (location : String)
  | persistence (operation : String) (key : Option String)
  | validation (problems : List FieldProblem)
  deriving DecidableEq

structure ServiceError where
  kind : ErrorKind
  message : String
  code : Int
  context : Members := []
  correlation : Option String := none
  cause : Option String := none
  deriving DecidableEq

/-- An ordinary error: a name and a message, perhaps with a code and a trace of calls. -/
structure PlainError where
  message : String
  name : String := "Error"
  code : Field := none
  stack : Option String := none
  deriving DecidableEq

/-- How an operation can fail. -/
inductive Failure where
  | service (error : ServiceError)
  | plain (error : PlainError)
  /-- A value lacked the shape that the operation relies on. -/
  | misshapen (message : String)
  /-- A value that is no error was raised. -/
  | raised (value : Value)
  deriving DecidableEq

instance : Inhabited Failure := ⟨.raised .null⟩

namespace FieldProblem

def toValue (problem : FieldProblem) : Value :=
  .ofFields [("field", some (.text problem.field)), ("message", some (.text problem.message)),
    ("rule", problem.rule.map .text), ("expected", problem.expected.map .text),
    ("received", problem.received)]

def ofValue (value : Value) : FieldProblem where
  field := (value.member "field").text
  message := (value.member "message").text
  rule := (value.member "rule").text?
  expected := (value.member "expected").text?
  received := value.member "received"

end FieldProblem

def PlainError.ofValue (value : Value) : PlainError where
  message := (value.member "message").text
  name := (value.member "name").text?.getD "Error"
  code := value.member "code"
  stack := (value.member "stack").text?

namespace ErrorKind

def name : ErrorKind → String
  | general => "StrataError"
  | node _ => "NodeError"
  | topology _ => "TopologyError"
  | persistence _ _ => "PersistenceError"
  | validation _ => "ValidationError"

def isNode : ErrorKind → Bool
  | node _ => true
  | _ => false

def isTopology : ErrorKind → Bool
  | topology _ => true
  | _ => false

def isPersistence : ErrorKind → Bool
  | persistence _ _ => true
  | _ => false

def isValidation : ErrorKind → Bool
  | validation _ => true
  | _ => false

/-- What an error says by its kind, under published names. -/
def fields : ErrorKind → List (String × Field)
  | general => []
  | node id => [("datanodeId", id.map .text)]
  | topology location => [("networkLocation", some (.text location))]
  | persistence operation key => [("operation", some (.text operation)), ("key", key.map .text)]
  | validation problems => [("details", some (.list (problems.map FieldProblem.toValue)))]

end ErrorKind

namespace ServiceError

def name (error : ServiceError) : String := error.kind.name

def problems? (error : ServiceError) : Option (List FieldProblem) :=
  match error.kind with
  | .validation problems => some problems
  | _ => none

def detailsField (error : ServiceError) : Field :=
  error.problems?.map fun problems ↦ .list (problems.map FieldProblem.toValue)

def isNodeNotFound (error : ServiceError) : Bool :=
  match error.kind with
  | .node _ => error.code = ErrorCode.nodeNotFound.number
  | _ => false

/-- Whether the same request may succeed later. -/
def isRetryable (error : ServiceError) : Bool :=
  [ErrorCode.timeout, ErrorCode.internal, ErrorCode.persistenceUnavailable].any fun code ↦
    code.number = error.code

/-- The error as answered to a client. -/
def response (error : ServiceError) (moment : Instant) : Value :=
  .object [("error", .ofFields
    [("name", some (.text error.name)), ("code", some (.ofInt error.code)),
      ("message", some (.text error.message)), ("details", error.detailsField),
      ("meta", some (.object error.context)), ("timestamp", some (.text (Instant.text moment))),
      ("correlationId", error.correlation.map .text)])]

/-- The error as logged, without the trace of calls. -/
def logForm (error : ServiceError) (moment : Instant) : Value :=
  .ofFields
    [("error", some (.text error.name)), ("code", some (.ofInt error.code)),
      ("message", some (.text error.message)), ("meta", some (.object error.context)),
      ("timestamp", some (.text (Instant.text moment))),
      ("correlationId", error.correlation.map .text), ("cause", error.cause.map .text)]

def problemsOf (error : ServiceError) (field : String) : List FieldProblem :=
  (error.problems?.getD []).filter fun problem ↦ problem.field = field

/-- Mark an error with the request it belongs to. -/
def withCorrelation (error : ServiceError) (correlation : String) : ServiceError :=
  { error with correlation := some correlation }

/-! ## Making errors -/

/-- An error about a datanode; the context names the datanode as the resource. -/
def node (message : String) (id : Option String)
    (code : Int := ErrorCode.nodeNotFound.number) (context : Members := []) : ServiceError where
  kind := .node id
  message := message
  code := code
  context := (context.set "resourceType" (.text "datanode")).setField "resourceId" (id.map .text)

def nodeNotFound (id : String) : ServiceError := node s!"Datanode {id} not found" (some id)

def nodeNotPermitted (id reason : String) : ServiceError :=
  node s!"Datanode {id} is not permitted to register: {reason}" (some id)
    ErrorCode.nodeNotPermitted.number [("reason", .text reason)]

def topology (message location : String) (context : Members := []) : ServiceError where
  kind := .topology location
  message := message
  code := ErrorCode.invalidTopology.number
  context := context.set "networkLocation" (.text location)

def invalidLocation (id location reason : String) : ServiceError :=
  topology s!"Failed to add {id} at {location}: {reason}" location
    [("resourceType", .text "datanode"), ("resourceId", .text id), ("reason", .text reason)]

def persistence (message operation : String) (key : Option String := none)
    (cause : Option String := none) : ServiceError where
  kind := .persistence operation key
  message := message
  code := ErrorCode.persistenceFailure.number
  context := .ofFields [("operation", some (.text operation)), ("key", key.map .text)]
  cause := cause

def validation (message : String) (problems : List FieldProblem := []) (context : Members := [])
    (code : Int := ErrorCode.validationFailed.number) : ServiceError where
  kind := .validation problems
  message := message
  code := code
  context := context

def fieldWrong (field message : String) (rule : Option String := none) : ServiceError :=
  validation s!"Validation failed for field: {field}" [{ field, message, rule }]

def fieldRequired (field : String) : ServiceError :=
  validation s!"Missing required field: {field}"
    [{ field, message := "This field is required", rule := some "required" }]
    [("field", .text field)] ErrorCode.missingRequiredField.number

def fieldFormat (field expected : String) (received : Field := none) : ServiceError :=
  validation s!"Invalid format for field: {field}"
    [{ field, message := s!"Expected {expected}", rule := some "format", expected := some expected,
       received }]
    [("field", .text field)] ErrorCode.invalidFormat.number

def rangeText : Option Number → Option Number → String
  | some least, some greatest => s!"between {least.text} and {greatest.text}"
  | some least, none => s!"at least {least.text}"
  | none, some greatest => s!"at most {greatest.text}"
  | none, none => ""

def fieldRange (field : String) (least greatest : Option Number) (received : Field := none) :
    ServiceError :=
  let expected := rangeText least greatest
  validation s!"Value out of range for field: {field}"
    [{ field, message := s!"Expected value {expected}", rule := some "range",
       expected := some expected, received }]
    [("field", .text field)] ErrorCode.outOfRange.number

def fieldsWrong (problems : List FieldProblem) : ServiceError :=
  let names := String.intercalate ", " (problems.map FieldProblem.field)
  validation s!"Validation failed for fields: {names}" problems

/-- A rule that relates fields is broken; a field is named only when it has a name. -/
def constraintBroken (message : String) (field : Option String := none) : ServiceError :=
  let problems := match field with
    | some "" | none => []
    | some name => [{ field := name, message, rule := some "constraint" }]
  validation message problems (.ofFields [("field", field.map .text)])
    ErrorCode.constraintViolation.number

end ServiceError

namespace Failure

def error (message : String) : Failure := plain { message }

/-- Whether a failure is an error rather than another raised value. -/
def isError : Failure → Bool
  | raised _ => false
  | _ => true

/-- The message of a failure as an error; a raised value is shown. -/
def message : Failure → String
  | service error => error.message
  | plain error => error.message
  | misshapen message => message
  | raised value => value.display

def name : Failure → String
  | service error => error.name
  | plain error => error.name
  | misshapen _ => "TypeError"
  | raised _ => "Error"

/-- The failure itself when it is an error, else an ordinary error that shows the raised value. -/
def toError : Failure → Failure
  | raised value => error value.display
  | other => other

/-- A failure as an error of the service; an ordinary error becomes the cause. -/
def wrap (failure : Failure) (code : Int := ErrorCode.unknown.number) : ServiceError :=
  match failure with
  | service error => error
  | raised value => { kind := .general, message := value.display, code }
  | other => { kind := .general, message := other.message, code, cause := some other.message }

/-- A failure of the node table as a persistence error; one that is such an error stays as it is. -/
def wrapPersistence (failure : Failure) (operation : String) (key : Option String) : ServiceError :=
  let wrapped :=
    let target := match key with
      | some "" | none => ""
      | some key => s!" for {key}"
    ServiceError.persistence s!"Node table {operation}{target} failed: {failure.message}" operation key
      (some failure.message)
  match failure with
  | service error =>
    match error.kind with
    | .persistence _ _ => error
    | _ => wrapped
  | _ => wrapped

end Failure

end ClusterMembership
