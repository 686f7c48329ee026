import ClusterMembership.Number
import ClusterMembership.OrderedMap

/-!
# JSON values

Datanodes describe themselves in JSON, and the service hands on what it does not interpret.  A value keeps
the members of an object in the order in which they came.  A member may also be left out: `Field` is a
value or nothing, and nothing differs from `null`.
-/

namespace ClusterMembership

/-- A JSON value, with all doubles as numbers. -/
inductive Value where
  | null
  | bool (flag : Bool)
  | number (value : Number)
  | text (chars : String)
  | list (items : List Value)
  | object (members : List (String × Value))

namespace Value

mutual

def decEq : (a b : Value) → Decidable (a = b)
  | null, b => match b with
    | null => isTrue rfl
    | bool _ | number _ | text _ | list _ | object _ => isFalse (by intro h; injection h)
  | bool a, b => match b with
    | bool b => if h : a = b then isTrue (by rw [h])
      else isFalse (by intro e; injection e; contradiction)
    | null | number _ | text _ | list _ | object _ => isFalse (by intro h; injection h)
  | number a, b => match b with
    | number b => if h : a = b then isTrue (by rw [h])
      else isFalse (by intro e; injection e; contradiction)
    | null | bool _ | text _ | list _ | object _ => isFalse (by intro h; injection h)
  | text a, b => match b with
    | text b => if h : a = b then isTrue (by rw [h])
      else isFalse (by intro e; injection e; contradiction)
    | null | bool _ | number _ | list _ | object _ => isFalse (by intro h; injection h)
  | list a, b => match b with
    | list b => match decEqItems a b with
      | isTrue h => isTrue (by rw [h])
      | isFalse h => isFalse (by intro e; injection e; contradiction)
    | null | bool _ | number _ | text _ | object _ => isFalse (by intro h; injection h)
  | object a, b => match b with
    | object b => match decEqMembers a b with
      | isTrue h => isTrue (by rw [h])
      | isFalse h => isFalse (by intro e; injection e; contradiction)
    | null | bool _ | number _ | text _ | list _ => isFalse (by intro h; injection h)

def decEqItems : (a b : List Value) → Decidable (a = b)
  | [], [] => isTrue rfl
  | [], _ :: _ | _ :: _, [] => isFalse (by intro h; injection h)
  | a :: as, b :: bs => match decEq a b, decEqItems as bs with
    | isTrue h, isTrue hs => isTrue (by rw [h, hs])
    | isFalse h, _ | _, isFalse h => isFalse (by intro e; injection e; contradiction)

def decEqMembers : (a b : List (String × Value)) → Decidable (a = b)
  | [], [] => isTrue rfl
  | [], _ :: _ | _ :: _, [] => isFalse (by intro h; injection h)
  | (k, a) :: as, (l, b) :: bs =>
    if hk : k = l then
      match decEq a b, decEqMembers as bs with
      | isTrue h, isTrue hs => isTrue (by rw [hk, h, hs])
      | isFalse h, _ => isFalse (by intro e; injection e with e; injection e; contradiction)
      | _, isFalse h => isFalse (by intro e; injection e; contradiction)
    else isFalse (by intro e; injection e with e; injection e; contradiction)

end

instance : DecidableEq Value := decEq

instance : Inhabited Value := ⟨.null⟩

end Value

abbrev Field := Option Value

abbrev Members := List (String × Value)

namespace Members

def get (members : Members) (name : String) : Field := Association.find? name members

/-- Set a member, in its place when it is there. -/
def set (members : Members) (name : String) (value : Value) : Members :=
  Association.put name value members

/-- Set a member, or leave it out. -/
def setField (members : Members) (name : String) : Field → Members
  | some value => members.set name value
  | none => Association.without name members

/-- The members of the second object over those of the first. -/
def merge (base added : Members) : Members := added.foldl (fun all entry ↦ set all entry.1 entry.2) base

/-- An object from members some of which may be left out. -/
def ofFields (fields : List (String × Field)) : Members :=
  fields.filterMap fun field ↦ field.2.map fun value ↦ (field.1, value)

@[simp]
theorem get_set (members : Members) (name other : String) (value : Value) :
    (members.set name value).get other = if name = other then some value else members.get other :=
  Association.find?_put name other value members

theorem get_setField (members : Members) (name other : String) (field : Field) :
    (members.setField name field).get other = if name = other then field else members.get other := by
  cases field with
  | none => exact Association.find?_without name other members
  | some value => exact get_set members name other value

/-- Setting a member to what it is changes nothing. -/
theorem setField_get (members : Members) (name : String) :
    members.setField name (members.get name) = members := by
  cases h : members.get name with
  | none => exact Association.without_of_find?_eq_none h
  | some value => exact Association.put_of_find?_eq_some h

/-- Of two settings of a member the last counts, unless the first took the member out of its place. -/
theorem setField_setField {members : Members} {name : String} {first : Field}
    (h : first = none → members.get name = none) (last : Field) :
    (members.setField name first).setField name last = members.setField name last := by
  cases first with
  | none =>
    have hsame : members.setField name none = members := Association.without_of_find?_eq_none (h rfl)
    rw [hsame]
  | some value =>
    cases last with
    | none => exact Association.without_put name value members
    | some last => exact Association.put_put name value last members

/-- Settings of two members may change places when the first is left out or is there already. -/
theorem setField_comm {members : Members} {name other : String} (hne : name ≠ other) {field : Field}
    (h : members.get name = none → field = none) (added : Field) :
    (members.setField other added).setField name field =
      (members.setField name field).setField other added := by
  cases field with
  | none =>
    cases added with
    | none => exact Association.without_comm name other members
    | some added => exact Association.without_put_of_ne hne added members
  | some value =>
    have hpresent : members.get name ≠ none := fun hnone ↦ by simpa using h hnone
    cases added with
    | none => exact (Association.without_put_of_ne (Ne.symm hne) value members).symm
    | some added => exact Association.put_comm hne value added hpresent

end Members

namespace Value

def ofNat (n : Nat) : Value := .number (Number.ofNat n)

def ofInt (n : Int) : Value := .number (Number.ofInt n)

def texts (items : List String) : Value := .list (items.map .text)

def ofFields (fields : List (String × Field)) : Value := .object (Members.ofFields fields)

/-- A member of an object; other values have none. -/
def member : Value → String → Field
  | .object members, name => Members.get members name
  | _, _ => none

/-- Neither absent, `null`, `false`, zero, undefined as a number, nor the empty text. -/
def isTruthy : Value → Bool
  | .null => false
  | .bool flag => flag
  | .number value => !(value = Number.finite 0 || value = Number.notANumber)
  | .text chars => chars ≠ ""
  | .list _ | .object _ => true

/-- Whether a value is an object, so neither `null` nor a list. -/
def isObject : Value → Bool
  | .object _ => true
  | _ => false

/-- Whether two separately received values count as the same: scalars by value, a number that is
undefined never, and two lists or objects never. -/
def same : Value → Value → Bool
  | .null, .null => true
  | .bool a, .bool b => a = b
  | .number a, .number b => a.equal b
  | .text a, .text b => a = b
  | _, _ => false

/-- A value as a term of a sum: texts, lists and objects count as undefined. -/
def toNumber : Value → Number
  | .number value => value
  | .null => 0
  | .bool flag => if flag then 1 else 0
  | _ => .notANumber

end Value

namespace Field

def isTruthy (field : Field) : Bool := field.any Value.isTruthy

/-- Present and not `null`. -/
def isPresent : Field → Bool
  | none | some .null => false
  | some _ => true

/-- Two fields count as the same when both are left out or both hold the same value. -/
def same : Field → Field → Bool
  | none, none => true
  | some a, some b => a.same b
  | _, _ => false

def text? : Field → Option String
  | some (.text chars) => some chars
  | _ => none

/-- The text a field holds, empty if it holds none. -/
def text (field : Field) : String := field.text?.getD ""

def number? : Field → Option Number
  | some (.number value) => some value
  | _ => none

/-- The whole part of the number a field holds, if it holds one. -/
def integer? (field : Field) : Option Int := field.number?.bind Number.truncate?

/-- The items of the list a field holds, none if it holds no list. -/
def items : Field → List Value
  | some (.list items) => items
  | _ => []

/-- The members of the object a field holds, none if it holds no object. -/
def members : Field → Members
  | some (.object members) => members
  | _ => []

def member (field : Field) (name : String) : Field := field.bind (·.member name)

/-- Read what a field holds, unless it is left out or counts as nothing. -/
def read {α : Type} (read : Field → α) (field : Field) : Option α :=
  if field.isTruthy then some (read field) else none

/-- A field as a term of a sum; one left out counts as undefined. -/
def toNumber (field : Field) : Number := field.elim .notANumber Value.toNumber

end Field

end ClusterMembership
