import ClusterMembership.Number.Text
import ClusterMembership.Value

/-!
# Texts of values

`Value.shown?` is a value inside a message: the items of a list are joined by commas without brackets, `null` inside a
list is empty, and an object shows only its kind.  An object with a member `toString` shows nothing: it is asked for its
text under that name, and a member is no function that could answer.  `Value.json` is the JSON text of a value.
JSON has no infinities and no undefined numbers, so both are written as `null`; `Value.jsonForm` is the
value that the text reads back as.
-/

namespace ClusterMembership

namespace Value

mutual

/-- The text of a value inside a message, if it has one. -/
def shown? : Value → Option String
  | .null => some "null"
  | .bool flag => some (if flag then "true" else "false")
  | .number value => some value.text
  | .text chars => some chars
  | .list items => (shownItems? items).map (String.intercalate ",")
  | .object members => if (Members.get members "toString").isSome then none else some "[object Object]"

def shownItems? : List Value → Option (List String)
  | [] => some []
  | .null :: rest => (shownItems? rest).map ("" :: ·)
  | item :: rest => item.shown?.bind fun text ↦ (shownItems? rest).map (text :: ·)

end

/-- The text of a value that is known to have one, as texts in a log and raised values do. -/
def display (value : Value) : String := value.shown?.getD "[object Object]"

mutual

/-- The value that the JSON text of a value reads back as. -/
def jsonForm : Value → Value
  | .number value => if value.isFinite then .number value else .null
  | .list items => .list (jsonItems items)
  | .object members => .object (jsonMembers members)
  | other => other

/-- The items of a list in the form JSON can hold. -/
def jsonItems : List Value → List Value
  | [] => []
  | item :: rest => item.jsonForm :: jsonItems rest

/-- The members of an object in the form JSON can hold. -/
def jsonMembers : List (String × Value) → List (String × Value)
  | [] => []
  | (name, value) :: rest => (name, value.jsonForm) :: jsonMembers rest

end

def hexDigit (n : Nat) : Char := (Nat.toDigits 16 n).headD '0'

/-- A character inside a JSON text: quotes, backslashes and control characters are escaped. -/
def jsonChar (c : Char) : List Char :=
  if c = '"' then ['\\', '"']
  else if c = '\\' then ['\\', '\\']
  else if c = '\n' then ['\\', 'n']
  else if c = '\r' then ['\\', 'r']
  else if c = '\t' then ['\\', 't']
  else if c = '\x08' then ['\\', 'b']
  else if c = '\x0c' then ['\\', 'f']
  else if c.toNat < 0x20 then ['\\', 'u', '0', '0', hexDigit (c.toNat / 16), hexDigit (c.toNat % 16)]
  else [c]

def jsonText (text : String) : String :=
  String.ofList ('"' :: text.toList.flatMap jsonChar ++ ['"'])

mutual

def json : Value → String
  | .null => "null"
  | .bool flag => if flag then "true" else "false"
  | .number value => if value.isFinite then value.text else "null"
  | .text chars => jsonText chars
  | .list items => "[" ++ String.intercalate "," (jsonTexts items) ++ "]"
  | .object members => "\x7b" ++ String.intercalate "," (jsonPairs members) ++ "\x7d"

def jsonTexts : List Value → List String
  | [] => []
  | item :: rest => item.json :: jsonTexts rest

def jsonPairs : List (String × Value) → List String
  | [] => []
  | (name, value) :: rest => (jsonText name ++ ":" ++ value.json) :: jsonPairs rest

end

end Value

def Field.shown? : Field → Option String
  | some value => value.shown?
  | none => some "undefined"

end ClusterMembership
