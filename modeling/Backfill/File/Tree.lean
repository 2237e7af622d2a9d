/-
This file holds trees of files and directories as plain values.
-/

import Backfill.File.Fault
import Backfill.File.Path

namespace Backfill

/-- What stands at a place in a tree. -/
inductive FileBody
  | directory
  | file (content : Array UInt8)
deriving DecidableEq, Repr

/-- A place in a tree has permissions. -/
structure FileNode where
  body : FileBody
  mode : Nat
deriving DecidableEq, Repr

/-- The steps from the root to a place, the last one first. -/
abbrev Place := List String

/-- A tree knows what stands at each place other than the root, and in which directory paths
start. -/
structure FileTree where
  nodes : List (Place × FileNode)
  start : Place
deriving DecidableEq, Repr

namespace FileTree

/-- The permissions of a new directory. -/
def directoryMode : Nat := 0o755

/-- The permissions of a new file. -/
def fileMode : Nat := 0o644

/-- What stands at a place. -/
def node? (tree : FileTree) (place : Place) : Option FileNode :=
  if place.isEmpty then some ⟨.directory, directoryMode⟩ else tree.nodes.lookup place

/-- The tree with something else at a place. -/
def put (tree : FileTree) (place : Place) (node : FileNode) : FileTree :=
  { tree with nodes := (place, node) :: tree.nodes.filter (·.1 ≠ place) }

/-- The directories that lead to a place. -/
def directoriesTo : Place → List (Place × FileNode)
  | [] => []
  | step :: rest => (step :: rest, ⟨.directory, directoryMode⟩) :: directoriesTo rest

/-- A tree with nothing in it but the directory in which paths start. -/
def empty (start : Place) : FileTree :=
  ⟨directoriesTo start, start⟩

/-- Going on from a place takes a directory there. -/
def enter (tree : FileTree) (place : Place) : Except FileFault Unit :=
  match tree.node? place with
  | none => .error .notFound
  | some ⟨.directory, _⟩ => .ok ()
  | some ⟨.file _, _⟩ => .error .notDirectory

/-- The place that steps lead to, if something stands at every place but the last. -/
def follow (tree : FileTree) : Place → List String → Except FileFault Place
  | place, [] => .ok place
  | place, step :: rest => do
      tree.enter place
      tree.follow (if step = ".." then place.tail else step :: place) rest

/-- Where the steps of a path start. -/
def origin (tree : FileTree) (path : String) : Place :=
  if Path.isAbsolute path then [] else tree.start

/-- The place that a path leads to. -/
def place (tree : FileTree) (path : String) : Except FileFault Place :=
  if path.isEmpty then .error .notFound
  else tree.follow (tree.origin path) (Path.steps path)

/-- What stands where a path leads to. -/
def find? (tree : FileTree) (path : String) : Option FileNode :=
  (tree.place path).toOption.bind tree.node?

/-- The content of a file. -/
def read (tree : FileTree) (path : String) : Except FileFault (Array UInt8) := do
  match tree.node? (← tree.place path) with
  | none => throw .notFound
  | some ⟨.directory, _⟩ => throw .isDirectory
  | some ⟨.file content, _⟩ => return content

/-- Writing changes a file that is there and makes one that is not. -/
def modify (tree : FileTree) (path : String) (change : Array UInt8 → Array UInt8) :
    Except FileFault FileTree := do
  let place ← tree.place path
  match tree.node? place with
  | none => return tree.put place ⟨.file (change #[]), fileMode⟩
  | some ⟨.directory, _⟩ => throw .isDirectory
  | some ⟨.file content, mode⟩ => return tree.put place ⟨.file (change content), mode⟩

/-- The tree with a directory at every place that the steps pass. -/
def makeAlong (tree : FileTree) : Place → List String → Except FileFault FileTree
  | _, [] => .ok tree
  | place, step :: rest => do
      if step = ".." then tree.makeAlong place.tail rest
      else
        let next := step :: place
        match tree.node? next with
        | none => (tree.put next ⟨.directory, directoryMode⟩).makeAlong next rest
        | some ⟨.directory, _⟩ => tree.makeAlong next rest
        | some ⟨.file _, _⟩ => throw (if rest.isEmpty then .alreadyExists else .notDirectory)

/-- The tree with a directory where a path leads to and at every place on the way. -/
def makeDirectories (tree : FileTree) (path : String) : Except FileFault FileTree :=
  tree.makeAlong (tree.origin path) (Path.steps path)

/-- The tree with other permissions where a path leads to. -/
def restrict (tree : FileTree) (path : String) (mode : Nat) : FileTree :=
  match tree.place path with
  | .error _ => tree
  | .ok place =>
      match tree.node? place with
      | none => tree
      | some node => tree.put place { node with mode }

/-- The tree without a file. -/
def remove (tree : FileTree) (path : String) : FileTree :=
  match tree.place path with
  | .error _ => tree
  | .ok place => { tree with nodes := tree.nodes.filter (·.1 ≠ place) }

theorem nodePut (tree : FileTree) (place : Place) (node : FileNode) (below : place ≠ []) :
    (tree.put place node).node? place = some node := by
  cases place with
  | nil => exact absurd rfl below
  | cons step rest => simp [node?, put]

end FileTree

end Backfill
