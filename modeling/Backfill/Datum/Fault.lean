/-
This file names what can be wrong with a document and with the values in it.
-/

import Backfill.Datum.Basic

namespace Backfill

/-- A document is refused for one of these reasons. -/
inductive DatumFault
  | malformed
  | wrongType (found : Found) (expected : String)
  | wrongValue (found : Found) (expected : String)
  | wrongLength (count : Nat) (expected : String)
  | missingField (name : String)
  | duplicateField (name : String)
  | unknownVariant (name : String) (known : List String)
  | rejected (reason : String)

/-- Names between backquotes, as alternatives. -/
def alternatives : List String → String
  | [] => "nothing"
  | [name] => s!"`{name}`"
  | [first, second] => s!"`{first}` or `{second}`"
  | names => "one of " ++ ", ".intercalate (names.map fun name => s!"`{name}`")

/-- This is the wording of a fault. -/
def DatumFault.message : DatumFault → String
  | .malformed => "JSON syntax error"
  | .wrongType found expected => s!"invalid type: {found.message}, expected {expected}"
  | .wrongValue found expected => s!"invalid value: {found.message}, expected {expected}"
  | .wrongLength count expected => s!"invalid length {count}, expected {expected}"
  | .missingField name => s!"missing field `{name}`"
  | .duplicateField name => s!"duplicate field `{name}`"
  | .unknownVariant name known => s!"unknown variant `{name}`, expected {alternatives known}"
  | .rejected reason => reason

end Backfill
