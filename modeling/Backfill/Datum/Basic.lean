/-
This file holds the tree of plain data that documents are read into.
-/

import Backfill.Text.Quoted
import Backfill.Text.Shortest

namespace Backfill

/-- A number is whole, or a double, or too large for a double. -/
inductive Number
  | integer (value : Int)
  | double (value : Float)
  | outOfRange

/-- The kind of a value, as named where another kind is expected. -/
inductive Found
  | integer (value : Int)
  | double (value : Float)
  | boolean (value : Bool)
  | text (value : String)
  | null
  | sequence
  | map

/-- This is the wording of a kind; a scalar shows its value. -/
def Found.message : Found → String
  | .integer value => s!"integer `{value}`"
  | .double value => s!"floating point `{Text.doubleText value}`"
  | .boolean value => s!"boolean `{value}`"
  | .text value => s!"string {Text.quote value}"
  | .null => "null"
  | .sequence => "sequence"
  | .map => "map"

/-- A container ends in its closing mark, or is cut off by the first error of the document, which
may be a key that is no string. -/
inductive Ending
  | closed
  | cut
  | strayKey (found : Found)

/-- Whether the container is complete. -/
def Ending.isClosed : Ending → Bool
  | .closed => true
  | _ => false

/-- A document is read into such a tree up to its first error, so that everything before the error
can still be judged. -/
inductive Datum
  | null
  | boolean (value : Bool)
  | number (value : Number)
  | text (value : Option String)
  | list (items : List Datum) (ending : Ending)
  | table (members : List (Option String × Datum)) (ending : Ending)
  | broken

namespace Datum

/-- Whether the document's first error lies outside the value and all its members. -/
def isComplete : Datum → Bool
  | .list _ ending => ending.isClosed
  | .table _ ending => ending.isClosed
  | .broken => false
  | _ => true

/-- The deepest level of nested containers that a value may reach when it is kept. -/
def maxLevel : Nat := 127

mutual

/-- Whether a complete value at a nesting level has only numbers within range, well-formed texts
and no container nested too deeply. -/
def isKept (level : Nat) : Datum → Bool
  | .null => true
  | .boolean _ => true
  | .number value => match value with
      | .outOfRange => false
      | _ => true
  | .text value => value.isSome
  | .list items ending => ending.isClosed && level ≤ maxLevel && itemsKept (level + 1) items
  | .table members ending => ending.isClosed && level ≤ maxLevel && membersKept (level + 1) members
  | .broken => false

/-- Whether every item of a list is kept. -/
def itemsKept (level : Nat) : List Datum → Bool
  | [] => true
  | item :: rest => item.isKept level && itemsKept level rest

/-- Whether every member of a table is kept. -/
def membersKept (level : Nat) : List (Option String × Datum) → Bool
  | [] => true
  | (key, value) :: rest => key.isSome && value.isKept level && membersKept level rest

end

end Datum

end Backfill
