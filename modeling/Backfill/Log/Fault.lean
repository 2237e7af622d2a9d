/-
This file names what can go wrong when a binary log is read.
-/

import Backfill.File.Fault

namespace Backfill

/-- An entry is truncated for one of these reasons. -/
inductive Truncation
  | startsPastEnd (offset dataLength : Nat)
  | endOfData
  | runsPastEnd (length : Nat)
  | other (reason : String)
deriving DecidableEq, Repr

/-- This is the wording of a truncation. -/
def Truncation.message : Truncation → String
  | .startsPastEnd offset dataLength => s!"offset {offset} past data end {dataLength}"
  | .endOfData => FileFault.endOfData.message
  | .runsPastEnd length => s!"record of {length} bytes runs past data end"
  | .other reason => reason

/-- An entry cannot be decoded for one of these reasons. -/
inductive Corruption
  | lengthOverflow
  | lengthMismatch (stored written : Nat)
  | tooLong (length limit : Nat)
  | badRecord (reason : String)
deriving DecidableEq, Repr

/-- This is the wording of a corruption. -/
def Corruption.message : Corruption → String
  | .lengthOverflow => "length prefix overflows u64"
  | .lengthMismatch stored written => s!"index length {stored} != prefix length {written}"
  | .tooLong length limit => s!"record length {length} exceeds limit {limit}"
  | .badRecord reason => reason

/-- Reading a log fails for one of these reasons. -/
inductive LogError
  | notConfigured
  | notFound (position : Nat)
  | truncated (position : Nat) (cause : Truncation)
  | undecodable (position : Nat) (cause : Corruption)
  | file (cause : FileFault)
deriving DecidableEq, Repr

/-- This is the wording of a failure. -/
def LogError.message : LogError → String
  | .notConfigured => "binary log directory is not configured"
  | .notFound position => s!"position {position} is past the end of the index"
  | .truncated position cause => s!"entry at position {position} is truncated: {cause.message}"
  | .undecodable position cause =>
      s!"entry at position {position} cannot be decoded: {cause.message}"
  | .file cause => s!"I/O error: {cause.message}"

/-- Damage to a single entry can be passed over; any other failure cannot. -/
def LogError.isSkippable : LogError → Bool
  | .truncated _ _ => true
  | .undecodable _ _ => true
  | _ => false

end Backfill
