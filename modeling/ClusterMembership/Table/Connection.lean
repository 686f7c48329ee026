import ClusterMembership.Configuration

/-!
# The connection to the database

The hosted node table needs the address of a database and a key.  The address has a default for development;
the key has none.
-/

namespace ClusterMembership

/-- The address of a database and the key for it. -/
structure Connection where
  url : String
  key : String
  deriving DecidableEq, Inhabited

namespace Connection

def urlVariable : String := "SUPABASE_URL"

def keyVariable : String := "SUPABASE_SERVICE_ROLE_KEY"

def localUrl : String := "http://127.0.0.1:54321"

def load (environment : Environment) : Connection where
  url := (environment.get? urlVariable).getD localUrl
  key := (environment.get? keyVariable).getD ""

def toValue (connection : Connection) : Value :=
  .object [("url", .text connection.url), ("serviceRoleKey", .text connection.key)]

/-- Control characters and the space, which do not count at the ends of an address. -/
def isMargin (c : Char) : Bool := c.toNat ≤ 0x20

/-- What follows one of the schemes of the web, in any case, and two slashes. -/
def afterScheme? (chars : List Char) : Option (List Char) :=
  ["https://", "http://"].findSome? fun scheme ↦
    let (head, rest) := chars.splitAt scheme.length
    if head.map Char.toLower = scheme.toList then some rest else none

/-- The host of an address, up to its path, query or fragment. -/
def hostChars (chars : List Char) : List Char :=
  chars.takeWhile fun c ↦ c ≠ '/' && c ≠ '?' && c ≠ '#'

def isAddress (text : String) : Bool :=
  let chars := text.toList.dropWhile isMargin
  match afterScheme? (chars.reverse.dropWhile isMargin).reverse with
  | none => false
  | some rest =>
    let host := hostChars rest
    !host.isEmpty && !host.any fun c ↦ Text.isBlank c

def missing (variableName : String) : FieldProblem :=
  { field := variableName, message := s!"Missing required environment variable: {variableName}" }

def urlProblems (url : String) : List FieldProblem :=
  if Text.isBlankText url then [missing urlVariable]
  else if isAddress url then []
  else [{ field := urlVariable, message := s!"{urlVariable} is not a valid URL" }]

def keyProblems (key : String) : List FieldProblem :=
  if Text.isBlankText key then [missing keyVariable] else []

def validate (connection : Connection) : Except Failure Unit :=
  match urlProblems connection.url ++ keyProblems connection.key with
  | [] => .ok ()
  | problems => .error (.service (.fieldsWrong problems))

end Connection

/-- The shared client for the database: it is made when it is first asked for and then kept.  Clients are
numbered in the order in which they are made. -/
structure SharedClient where
  current : Option Nat := none
  made : Nat := 0
  deriving DecidableEq, Inhabited

namespace SharedClient

/-- The shared client, made when there is none. -/
def get (shared : SharedClient) (connection : Connection) : Except Failure (SharedClient × Nat) :=
  match shared.current with
  | some client => .ok (shared, client)
  | none => connection.validate.map fun _ ↦ (⟨some shared.made, shared.made + 1⟩, shared.made)

def reset (shared : SharedClient) : SharedClient := { shared with current := none }

end SharedClient

end ClusterMembership
