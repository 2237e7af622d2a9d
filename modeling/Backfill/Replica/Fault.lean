/-
This file names what can go wrong with a replica.
-/

import Backfill.File.Fault

namespace Backfill

/-- The database refuses an operation for one of these reasons. -/
inductive DatabaseFault
  | unopenable (path : String)
  | notDatabase
  | nestedTransaction
  | invalidParameterName (name : String)
deriving DecidableEq, Repr

/-- This is the wording of a refusal. -/
def DatabaseFault.message : DatabaseFault → String
  | .unopenable path => s!"unable to open database file: {path}"
  | .notDatabase => "file is not a database"
  | .nestedTransaction => "cannot start a transaction within a transaction"
  | .invalidParameterName name => s!"Invalid parameter name: {name}"

/-- A replica operation fails for one of these reasons. -/
inductive ReplicaError
  | database (cause : DatabaseFault)
  | file (cause : FileFault)
  | integerOverflow (field : String)
  | invalidValue (detail : String)
  | gapOrder (detail : String)
  | noTransaction
deriving DecidableEq, Repr

/-- This is the wording of a failure. -/
def ReplicaError.message : ReplicaError → String
  | .database cause => s!"sqlite error: {cause.message}"
  | .file cause => s!"I/O error: {cause.message}"
  | .integerOverflow field => s!"integer conversion overflow for field: {field}"
  | .invalidValue detail => s!"invalid database value: {detail}"
  | .gapOrder detail => s!"gap query returned out-of-order or overlapping ranges: {detail}"
  | .noTransaction => "no transaction is open"

end Backfill
