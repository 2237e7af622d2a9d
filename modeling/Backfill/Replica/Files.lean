/-
This file opens the replica that a host holds in a file and writes it back.
-/

import Backfill.File.Host
import Backfill.Replica.Basic
import Backfill.Replica.Cell
import Backfill.Replica.Settings

namespace Backfill.Replica

variable {m : Type → Type} [Monad m]

/-- Whether a path names a replica that is kept in memory only. -/
def isTransient (path : String) : Bool :=
  path = ":memory:"

/-- The event of opening a replica. -/
def openedEvent (path : String) : Event :=
  let mode := if isTransient path then "memory" else "wal"
  ⟨.debug, .replica, "opened replica", [("path", .text path), ("journal_mode", .text mode)]⟩

/-- Makes the directory that a file lies in. -/
def makeParent (host : Host m) (path : String) : m (Except FileFault Unit) := do
  match (Path.parent? path).filter (!·.isEmpty) with
  | none => return .ok ()
  | some parent => host.makeDirectories parent

/-- Opens the replica in a file, or makes it together with its directory. -/
def openAt (host : Host m) (path : String) : m (Except ReplicaError Replica) := do
  if isTransient path then return .ok .empty
  match ← makeParent host path with
  | .error cause => return .error (.file cause)
  | .ok () =>
      match ← host.kind? path with
      | some .directory => return .error (.database (.unopenable path))
      | some .file =>
          match ← host.read path with
          | .error _ => return .error (.database (.unopenable path))
          | .ok content =>
              match Tables.ofFile? content with
              | some tables => return .ok (.ofTables tables)
              | none => return .error (.database .notDatabase)
      | none =>
          match ← host.write path (Tables.toFile .empty) with
          | .error _ => return .error (.database (.unopenable path))
          | .ok () => return .ok .empty

/-- Opens a replica that is there. -/
def openExisting (host : Host m) (path : String) : m (Except ReplicaError Replica) := do
  match ← host.kind? path with
  | none => return .error (.file (.other s!"replica not found: {path}"))
  | some _ => openAt host path

/-- Writes the durable tables to a file. -/
def save (host : Host m) (path : String) (replica : Replica) : m (Except FileFault Unit) :=
  if isTransient path then return .ok () else host.write path replica.committed.toFile

end Backfill.Replica
