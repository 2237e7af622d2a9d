/-
This file writes values as JSON.
-/

import Backfill.Text.Quoted
import Backfill.Text.Shortest

namespace Backfill.Json

/-- A value to be written; the members of a table keep their order. -/
inductive Value
  | null
  | boolean (value : Bool)
  | integer (value : Int)
  | double (value : Float)
  | text (value : String)
  | list (items : List Value)
  | table (members : List (String × Value))
deriving Inhabited

/-- A character inside quotes: the quote, the backslash and the controls are escaped. -/
def escape (character : Char) : List Char :=
  if character = '"' then ['\\', '"']
  else if character = '\\' then ['\\', '\\']
  else if character.toNat = 0x08 then ['\\', 'b']
  else if character.toNat = 0x09 then ['\\', 't']
  else if character.toNat = 0x0a then ['\\', 'n']
  else if character.toNat = 0x0c then ['\\', 'f']
  else if character.toNat = 0x0d then ['\\', 'r']
  else if character.toNat < 0x20 then
    ['\\', 'u', '0', '0', Nat.digitChar (character.toNat / 16), Nat.digitChar (character.toNat % 16)]
  else [character]

/-- A text between quotes. -/
def quoted (text : String) : String :=
  String.ofList ('"' :: text.toList.flatMap escape ++ ['"'])

namespace Value

mutual

/-- The text of a value without blanks. -/
def compact : Value → String
  | .null => "null"
  | .boolean value => if value then "true" else "false"
  | .integer value => toString value
  | .double value => Text.doubleText value
  | .text value => quoted value
  | .list items => "[" ++ ",".intercalate (compactItems items) ++ "]"
  | .table members => "\x7b" ++ ",".intercalate (compactMembers members) ++ "\x7d"

/-- The texts of the items of a list. -/
def compactItems : List Value → List String
  | [] => []
  | item :: rest => item.compact :: compactItems rest

/-- The texts of the members of a table. -/
def compactMembers : List (String × Value) → List String
  | [] => []
  | (key, value) :: rest => (quoted key ++ ":" ++ value.compact) :: compactMembers rest

end

/-- A line of a value that is spread over lines, at a depth of nesting. -/
def indented (depth : Nat) (text : String) : String :=
  String.ofList ('\n' :: List.replicate (2 * depth) ' ') ++ text

mutual

/-- The text of a value with each item and member on a line of its own. -/
def spread (depth : Nat) : Value → String
  | .list (item :: rest) =>
      "[" ++ ",".intercalate (spreadItems (depth + 1) (item :: rest)) ++ indented depth "]"
  | .table (member :: rest) =>
      "\x7b" ++ ",".intercalate (spreadMembers (depth + 1) (member :: rest)) ++
        indented depth "\x7d"
  | .list [] => "[]"
  | .table [] => "\x7b\x7d"
  | .null => "null"
  | .boolean value => (Value.boolean value).compact
  | .integer value => (Value.integer value).compact
  | .double value => (Value.double value).compact
  | .text value => quoted value

/-- The lines of the items of a list. -/
def spreadItems (depth : Nat) : List Value → List String
  | [] => []
  | item :: rest => indented depth (item.spread depth) :: spreadItems depth rest

/-- The lines of the members of a table. -/
def spreadMembers (depth : Nat) : List (String × Value) → List String
  | [] => []
  | (key, value) :: rest =>
      indented depth (quoted key ++ ": " ++ value.spread depth) :: spreadMembers depth rest

end

/-- The text of a value for people to read. -/
def pretty (value : Value) : String :=
  value.spread 0

/-- A list of numbers. -/
def naturals (values : List Nat) : Value :=
  .list (values.map fun value : Nat => .integer value)

/-- A natural number. -/
def natural (value : Nat) : Value :=
  .integer value

/-- A value that may be absent. -/
def optional {α : Type} (write : α → Value) : Option α → Value
  | some value => write value
  | none => .null

end Value

end Backfill.Json
