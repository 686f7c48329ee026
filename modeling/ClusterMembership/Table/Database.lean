import ClusterMembership.Failure
import ClusterMembership.Text.Units

/-!
# A database of rows

The hosted node table speaks to a database by requests.  A request names a table and selects one row, selects
a page of rows in the order of their identifiers, stores a row or deletes one.  The database at hand answers
from its rows, unless it has been given answers beforehand; those are used up first.  It keeps every
request it was sent.
-/

namespace ClusterMembership

inductive DatabaseQuery where
  | selectOne (id : String)
  | selectPage (first : Nat) (last : Number) (size : Nat)
  | upsert (row : Value)
  | delete (id : String)
  deriving DecidableEq

structure DatabaseRequest where
  table : String
  query : DatabaseQuery
  deriving DecidableEq

/-- The answer of a database: data, and an error when it failed. -/
structure DatabaseAnswer where
  data : Value := .null
  error : Value := .null
  deriving DecidableEq, Inhabited

def DatabaseAnswer.ofValue (value : Value) : DatabaseAnswer :=
  ⟨(value.member "data").getD .null, (value.member "error").getD .null⟩

/-- Rows in stored order, answers given beforehand, and the requests received. -/
structure Database where
  rows : List Value
  answers : List DatabaseAnswer
  requests : List DatabaseRequest
  deriving DecidableEq, Inhabited

namespace DatabaseRequest

def columns : String := "id, details"

def toValue (request : DatabaseRequest) : Value :=
  let table := ("table", Value.text request.table)
  match request.query with
  | .selectOne id =>
    .object [table, ("select", .text columns), ("eq", .texts ["id", id]), ("single", .bool true)]
  | .selectPage first last _ =>
    .object [table, ("select", .text columns),
      ("order", .list [.text "id", .object [("ascending", .bool true)]]),
      ("range", .list [.ofNat first, .number last])]
  | .upsert row =>
    .object [table, ("upsert", row), ("options", .object [("onConflict", .text "id")])]
  | .delete id => .object [table, ("delete", .bool true), ("eq", .texts ["id", id])]

end DatabaseRequest

namespace Database

/-- A database with rows and answers given beforehand. -/
def create (rows : List Value) (answers : List DatabaseAnswer) : Database := ⟨rows, answers, []⟩

def givenRows (database : Database) : List Value :=
  database.answers.flatMap fun answer ↦ Field.items (some answer.data)

/-- The identifier of a row, empty when it has none. -/
def rowId (row : Value) : String := (row.member "id").text?.getD ""

/-- Replace the first row with the identifier of a row, or append the row. -/
def store (row : Value) : List Value → List Value
  | [] => [row]
  | other :: rest => if rowId other = rowId row then row :: rest else other :: store row rest

def sortedRows (rows : List Value) : List Value :=
  rows.mergeSort fun a b ↦ Text.atMost (rowId a) (rowId b)

def answer (rows : List Value) : DatabaseQuery → List Value × DatabaseAnswer
  | .selectOne id =>
    match rows.filter fun row ↦ rowId row = id with
    | [] => (rows, {})
    | [row] => (rows, { data := row })
    | _ => (rows, { error := .object [("message", .text "multiple rows returned")] })
  | .selectPage first _ size => (rows, { data := .list (((sortedRows rows).drop first).take size) })
  | .upsert row => (store row rows, {})
  | .delete id => (rows.filter fun row ↦ rowId row ≠ id, {})

def send (database : Database) (request : DatabaseRequest) : Database × DatabaseAnswer :=
  let received := database.requests ++ [request]
  match database.answers with
  | given :: rest => ({ database with answers := rest, requests := received }, given)
  | [] =>
    let (rows, given) := answer database.rows request.query
    ({ database with rows := rows, requests := received }, given)

end Database

end ClusterMembership
