/-
This file holds the program: it runs a command on the system and prints what it came to.
-/

import Backfill.Command.Run
import Std.Time.DateTime.Timestamp

namespace Backfill

/-- The fault that an error of the system amounts to. -/
def FileFault.ofError : IO.Error → FileFault
  | .noFileOrDirectory _ _ _ => .notFound
  | .alreadyExists _ _ _ => .alreadyExists
  | .inappropriateType _ 21 _ => .isDirectory
  | .inappropriateType _ _ _ => .notDirectory
  | error => .other (toString error)

/-- The result of an action with its fault. -/
def attemptAction {α : Type} (action : IO α) : IO (Except FileFault α) := do
  return (← action.toBaseIO).mapError FileFault.ofError

/-- What a path leads to. -/
def kindAt? (path : String) : IO (Option FileKind) := do
  match ← (IO.FS.realPath path).toBaseIO with
  | .error _ => return none
  | .ok place => return some (if ← place.isDir then .directory else .file)

/-- The rights that three bits of permissions give. -/
def accessRight (bits : Nat) : IO.AccessRight :=
  ⟨bits.testBit 2, bits.testBit 1, bits.testBit 0⟩

/-- The rights that permissions give to the owner, the group and all others. -/
def fileRight (mode : Nat) : IO.FileRight :=
  ⟨accessRight (mode / 64), accessRight (mode / 8), accessRight mode⟩

/-- The system as a host. -/
def systemHost : Host IO where
  value? name := IO.getEnv name
  kind? path := kindAt? path
  read path := do
    return (← attemptAction (IO.FS.readBinFile path)).map ByteArray.data
  write path content := attemptAction (IO.FS.writeBinFile path ⟨content⟩)
  append path content := attemptAction do
    IO.FS.Handle.write (← IO.FS.Handle.mk path .append) ⟨content⟩
  makeDirectories path := attemptAction (IO.FS.createDirAll path)
  restrict path mode := do
    let _ ← attemptAction (IO.setAccessRights path (fileRight mode))
  now := do
    return (← Std.Time.Timestamp.now).toNanosecondsSinceUnixEpoch.val

end Backfill

/-- Runs the command that the arguments name, and gives its exit code. -/
def main (arguments : List String) : IO UInt32 := do
  let outcome ← Backfill.Command.run Backfill.systemHost .silent arguments
  for line in outcome.events do
    IO.eprint line
  IO.print outcome.output
  if let some failure := outcome.failure then
    IO.eprint failure.text
  return UInt32.ofNat outcome.code
