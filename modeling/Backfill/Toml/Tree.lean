/-
This file builds the tree of a configuration file and keeps its rules on defining a table twice.
-/

import Backfill.Datum.Basic

namespace Backfill.Toml

/-- A node is a finished value, a table, which may be implicit or dotted, or a list of tables that
headers build. -/
inductive Node
  | value (datum : Datum)
  | table (implicit dotted : Bool) (members : List (String × Node))
  | tables (items : List (List (String × Node)))

/-- The members of a table. -/
abbrev Members := List (String × Node)

/-- The members with the node of one key changed. -/
def Members.replace (members : Members) (key : String) (node : Node) : Members :=
  members.map fun member => if member.1 = key then (key, node) else member

/-- The members with another one at the end. -/
def Members.append (members : Members) (key : String) (node : Node) : Members :=
  members ++ [(key, node)]

/-- An edit of the members of a table, which is told whether the table is dotted, and may be
refused. -/
abbrev Edit := Bool → Members → Option Members

/-- An edit of the table at the end of a path, on which the tables that do not exist are made. -/
def Edit.at (edit : Edit) (byDots : Bool) : List String → Edit
  | [], isDotted, members => edit isDotted members
  | key :: path, _, members =>
      match members.lookup key with
      | none => do
          let inner ← Edit.at edit byDots path byDots []
          return members.append key (.table true byDots inner)
      | some (.value _) => none
      | some (.table implicit isDotted inner) =>
          if byDots && !implicit then none
          else do
            let inner ← Edit.at edit byDots path isDotted inner
            return members.replace key (.table implicit isDotted inner)
      | some (.tables items) => do
          let last ← items.getLast?
          let inner ← Edit.at edit byDots path false last
          return members.replace key (.tables (items.dropLast ++ [inner]))

/-- A path and the key at its end. -/
structure KeyPath where
  path : List String
  key : String

/-- A key with its value is put into a table in which it must be new, by dots into dotted tables
only. -/
def define (place : KeyPath) (value : Datum) : Edit :=
  Edit.at (fun isDotted members =>
    if isDotted == place.path.isEmpty || (members.lookup place.key).isSome then none
    else some (members.append place.key (.value value))) true place.path

/-- A file is read into a root, to which the table of the last header is still to be added. -/
structure Draft where
  root : Members
  current : Members
  header : Option (KeyPath × Bool)

/-- The file with nothing read. -/
def Draft.blank : Draft :=
  ⟨[], [], none⟩

/-- The root with the table of the last header added. -/
def Draft.finish (draft : Draft) : Option Members :=
  match draft.header with
  | none => some draft.current
  | some (place, isList) =>
      Edit.at (fun _ members =>
        match members.lookup place.key, isList with
        | none, true => some (members.append place.key (.tables [draft.current]))
        | none, false => some (members.append place.key (.table false false draft.current))
        | some (.tables items), true =>
            some (members.replace place.key (.tables (items ++ [draft.current])))
        | _, _ => none) false place.path false draft.root

/-- A key with its value belongs to the table of the last header. -/
def Draft.define (draft : Draft) (place : KeyPath) (value : Datum) : Option Draft := do
  let current ← Toml.define place value false draft.current
  return { draft with current }

/-- The members of a table that may still be defined at a place, if the place is free. -/
def claim (place : KeyPath) (root : Members) : Option (Members × Members) := do
  let taken ← find place.path root
  match taken with
  | none => return (root, [])
  | some (.table true false inner) =>
      let rest ← Edit.at (fun _ members =>
        some (members.filter fun member => member.1 ≠ place.key)) false place.path false root
      return (rest, inner)
  | some _ => none
where
  find : List String → Members → Option (Option Node)
    | [], members => some (members.lookup place.key)
    | key :: path, members =>
        match members.lookup key with
        | none => some none
        | some (.value _) => none
        | some (.table _ _ inner) => find path inner
        | some (.tables items) => items.getLast?.bind (find path)

/-- A header starts a table that no header has defined before. -/
def Draft.startTable (draft : Draft) (place : KeyPath) : Option Draft := do
  let root ← draft.finish
  let (root, current) ← claim place root
  return ⟨root, current, some (place, false)⟩

/-- A header of a list starts another table of the list. -/
def Draft.startItem (draft : Draft) (place : KeyPath) : Option Draft := do
  let root ← draft.finish
  match ← claim.find place place.path root with
  | none => return ⟨root, [], some (place, true)⟩
  | some (.tables _) => return ⟨root, [], some (place, true)⟩
  | some _ => none

mutual

/-- The data of a node. -/
def Node.toDatum : Node → Datum
  | .value datum => datum
  | .table _ _ members => .table (membersToData members) .closed
  | .tables items => .list (itemsToData items) .closed

/-- The data of the members of a table. -/
def membersToData : List (String × Node) → List (Option String × Datum)
  | [] => []
  | (key, node) :: rest => (some key, node.toDatum) :: membersToData rest

/-- The data of a list of tables. -/
def itemsToData : List (List (String × Node)) → List Datum
  | [] => []
  | members :: rest => .table (membersToData members) .closed :: itemsToData rest

end

end Backfill.Toml
