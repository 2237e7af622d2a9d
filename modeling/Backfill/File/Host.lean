/-
This file says what the program asks of the system that it runs on.
-/

import Backfill.File.Tree

namespace Backfill

/-- What a path can lead to. -/
inductive FileKind
  | directory
  | file
deriving DecidableEq, Repr

/-- A host has variables, files and a clock, whose operations run in `m`. -/
structure Host (m : Type → Type) where
  /-- The value of a variable of the environment. -/
  value? : String → m (Option String)
  /-- What a path leads to, if anything is there. -/
  kind? : String → m (Option FileKind)
  /-- The content of a file. -/
  read : String → m (Except FileFault (Array UInt8))
  /-- Replaces the content of a file, which is made if it is not there. -/
  write : String → Array UInt8 → m (Except FileFault Unit)
  /-- Adds to the end of a file, which is made if it is not there. -/
  append : String → Array UInt8 → m (Except FileFault Unit)
  /-- Makes a directory and those on the way to it. -/
  makeDirectories : String → m (Except FileFault Unit)
  /-- Sets the permissions of a file or directory. -/
  restrict : String → Nat → m Unit
  /-- The time in nanoseconds since the start of the year 1970. -/
  now : m Int

namespace Host

/-- Whether a path leads to a file. -/
def isFile {m : Type → Type} [Monad m] (host : Host m) (path : String) : m Bool := do
  return (← host.kind? path) = some .file

/-- An operation that may replace the tree. -/
def replace (operation : FileTree → Except FileFault FileTree) :
    StateM FileTree (Except FileFault Unit) := fun tree =>
  match operation tree with
  | .ok next => (.ok (), next)
  | .error fault => (.error fault, tree)

/-- The host whose files are those of a tree, and whose clock stands still. -/
def ofTree (values : String → Option String) : Host (StateM FileTree) where
  value? name := return values name
  kind? path := do
    return ((← get).find? path).map fun node =>
      match node.body with
      | .directory => .directory
      | .file _ => .file
  read path := return (← get).read path
  write path content := replace (·.modify path fun _ => content)
  append path content := replace (·.modify path (· ++ content))
  makeDirectories path := replace (·.makeDirectories path)
  restrict path mode := modify (·.restrict path mode)
  now := return 0

end Host

end Backfill
