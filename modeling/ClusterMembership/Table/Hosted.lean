import ClusterMembership.Table.Database
import ClusterMembership.Table.Memory
import ClusterMembership.Table.Stored
import ClusterMembership.Text.Instant

/-!
# The hosted node table

Details are kept as rows of a table in a database.  An iterator asks for one page after another, in ascending
order of identifier, until a page comes back that is not full.  A row that does not have the shape of
stored details is an error, and so is every failure that the database reports.
-/

namespace ClusterMembership

structure HostedIterator where
  offset : Nat
  buffer : List TableEntry
  exhausted : Bool
  closed : Bool
  deriving DecidableEq, Inhabited

structure HostedTable where
  database : Database
  name : String
  pageSize : Nat
  iterators : List HostedIterator
  deriving DecidableEq, Inhabited

/-- A page that was fetched: from which table, how many rows, and the number of rows passed since the start. -/
structure PageNote where
  table : String
  rows : Nat
  offset : Nat
  deriving DecidableEq, Inhabited

namespace HostedTable

def standardName : String := "datanodes"

def standardPageSize : Nat := 500

/-- The number of rows on a page, when it is a positive integer. -/
def readPageSize (size : Number) : Except Failure Nat :=
  match size with
  | .finite value =>
    if value.den = 1 ∧ 1 ≤ value then .ok value.num.toNat else refused
  | _ => refused
where
  /-- The refusal of a page size. -/
  refused : Except Failure Nat :=
    .error (.plain
      { message := s!"pageSize must be a positive integer, got {size.text}", name := "RangeError" })

def create (database : Database) (pageSize : Option Number) (name : Option String) :
    Except Failure HostedTable :=
  (readPageSize (pageSize.getD (Number.ofNat standardPageSize))).map fun size ↦
    ⟨database, name.getD standardName, size, []⟩

def reported (operation : String) (key : Option String) (error : Value) : Failure :=
  let message := ((error.member "message").map Value.display).getD ""
  .service ((Failure.error message).wrapPersistence operation key)

def readRow (table : HostedTable) (operation : String) (row : Value) : Except Failure TableEntry :=
  let malformed (target : String) (key : Option String) : Except Failure TableEntry :=
    .error (.service (.persistence s!"Malformed row in {table.name}{target}" operation key))
  match row with
  | .object members =>
    match Members.get members "id", (Members.get members "details").bind StoredDetails.read? with
    | some (.text id), some details => .ok ⟨id, some details.toValue⟩
    | some (.text id), none => malformed s!" for {id}" (some id)
    | _, _ => malformed "" none
  | _ => malformed "" none

def send (table : HostedTable) (query : DatabaseQuery) : HostedTable × DatabaseAnswer :=
  let (database, answer) := table.database.send ⟨table.name, query⟩
  ({ table with database := database }, answer)

def get (table : HostedTable) (id : String) : HostedTable × Except Failure Field :=
  let (sent, answer) := table.send (.selectOne id)
  if answer.error.isTruthy then (sent, .error (reported "get" (some id) answer.error))
  else if !answer.data.isTruthy then (sent, .ok none)
  else (sent, (table.readRow "get" answer.data).map TableEntry.details)

/-- Store details under an identifier, with the time of the change. -/
def put (table : HostedTable) (now : Instant) (id : String) (details : Field) :
    HostedTable × Except Failure Unit :=
  let row := Value.ofFields
    [("id", some (.text id)), ("details", details), ("updated_at", some (.text (Instant.text now)))]
  let (sent, answer) := table.send (.upsert row)
  (sent, if answer.error.isTruthy then .error (reported "put" (some id) answer.error) else .ok ())

def delete (table : HostedTable) (id : String) : HostedTable × Except Failure Unit :=
  let (sent, answer) := table.send (.delete id)
  (sent, if answer.error.isTruthy then .error (reported "delete" (some id) answer.error) else .ok ())

def iterate (table : HostedTable) : HostedTable × Nat :=
  ({ table with iterators := table.iterators ++ [⟨0, [], false, false⟩] }, table.iterators.length)

def setIterator (table : HostedTable) (number : Nat) (iterator : HostedIterator) : HostedTable :=
  { table with iterators := table.iterators.set number iterator }

/-- The rows of a page; no data is an empty page. -/
def pageRows : Value → Except Failure (List Value)
  | .null => .ok []
  | .list rows => .ok rows
  | _ => .error (.misshapen "rows.map is not a function")

/-- Read the rows of a page up to the first that is malformed. -/
def readRows (table : HostedTable) (rows : List Value) : Except Failure (List TableEntry) :=
  rows.mapM (table.readRow "iterate")

/-- The place of the last row of a page that starts at an offset. -/
def lastPlace (table : HostedTable) (offset : Nat) : Number :=
  Number.ofNat offset + Number.ofNat table.pageSize + Number.ofInt (-1)

def fetch (table : HostedTable) (offset : Nat) : HostedTable × Except Failure (List TableEntry) :=
  let (sent, answer) := table.send (.selectPage offset (table.lastPlace offset) table.pageSize)
  if answer.error.isTruthy then (sent, .error (reported "iterate" none answer.error))
  else (sent, (pageRows answer.data).bind table.readRows)

/-- An iterator that holds the entries of the page it has just fetched. -/
def turned (table : HostedTable) (iterator : HostedIterator) (page : List TableEntry) : HostedIterator :=
  { iterator with
    buffer := page
    offset := iterator.offset + page.length
    exhausted := page.length < table.pageSize }

/-- Hand out the first entry that an iterator holds. -/
def shift (table : HostedTable) (number : Nat) (iterator : HostedIterator) :
    HostedTable × Option TableEntry :=
  (table.setIterator number { iterator with buffer := iterator.buffer.tail }, iterator.buffer.head?)

/-- Ask an iterator for its next entry; it fetches a page when it holds none and the last page was full. -/
def next (table : HostedTable) (number : Nat) :
    HostedTable × Option PageNote × Except Failure (Option TableEntry) :=
  match table.iterators[number]? with
  | none | some ⟨_, _, _, true⟩ =>
    (table, none, .error (.service (.persistence "Iterator is closed" "iterate")))
  | some iterator =>
    if iterator.buffer.isEmpty && !iterator.exhausted then
      match table.fetch iterator.offset with
      | (sent, .error failure) => (sent, none, .error failure)
      | (sent, .ok page) =>
        let turned := sent.turned iterator page
        let (shifted, entry) := sent.shift number turned
        (shifted, some ⟨table.name, page.length, turned.offset⟩, .ok entry)
    else
      let (shifted, entry) := table.shift number iterator
      (shifted, none, .ok entry)

def close (table : HostedTable) (number : Nat) : HostedTable :=
  match table.iterators[number]? with
  | some iterator => table.setIterator number { iterator with buffer := [], closed := true }
  | none => table

end HostedTable

end ClusterMembership
