/-
This file opens the binary log that a host holds, and saves one to it.
-/

import Backfill.File.Host
import Backfill.Log.Reader
import Backfill.Log.Writer

namespace Backfill

variable {m : Type → Type} [Monad m]

/-- What stands in the place of a file; a directory opens too. -/
def Host.openBody (host : Host m) (path : String) : m (Except FileFault FileBody) := do
  match ← host.read path with
  | .ok content => return .ok (.file content)
  | .error .isDirectory => return .ok .directory
  | .error fault => return .error fault

/-- Whether a host holds both files of the log. -/
def LogSettings.isAvailable (settings : LogSettings) (host : Host m) : m Bool := do
  match settings.indexPath?, settings.dataPath? with
  | some index, some data => return (← host.isFile index) && (← host.isFile data)
  | _, _ => return false

/-- The log that the settings name, whose index is opened first. -/
def LogReader.ofHost (settings : LogSettings) (host : Host m) : m (Except LogError LogReader) := do
  match settings.indexPath?, settings.dataPath? with
  | some indexPath, some dataPath =>
      match ← host.openBody indexPath with
      | .error fault => return .error (.file fault)
      | .ok index =>
          match ← host.openBody dataPath with
          | .error fault => return .error (.file fault)
          | .ok data => return .ok (.ofFiles settings index data)
  | _, _ => return .error .notConfigured

/-- Puts content over the front of a file; what stands behind it stays. -/
def Host.overlay (host : Host m) (path : String) (content : Array UInt8) :
    m (Except FileFault Unit) := do
  match ← host.read path with
  | .error fault => return .error fault
  | .ok old => host.write path (content ++ old.extract content.size old.size)

/-- Does actions in order up to the first fault. -/
def Host.inOrder : List (m (Except FileFault Unit)) → m (Except FileFault Unit)
  | [] => return .ok ()
  | action :: rest => do
      match ← action with
      | .error fault => return .error fault
      | .ok () => Host.inOrder rest

/-- Saves both files of a log where the settings name them, in place of what was there. -/
def LogWriter.save (log : LogWriter) (settings : LogSettings) (host : Host m) :
    m (Except LogError Unit) := do
  match settings.directory, settings.indexPath?, settings.dataPath? with
  | some directory, some index, some data =>
      let saved ← Host.inOrder [host.makeDirectories directory, host.write index #[],
        host.write data #[], host.overlay data log.data, host.overlay index log.index]
      return saved.mapError LogError.file
  | _, _, _ => return .error .notConfigured

end Backfill
