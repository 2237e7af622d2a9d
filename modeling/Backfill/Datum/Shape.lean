/-
This file reads typed values from the tree of a document. The first fault in the order of the
document decides.
-/

import Backfill.Datum.Fault

namespace Backfill

/-- A document comes as the text of a value, as a value that is already complete, or as a
configuration file; they differ in a few rules for lists and variants. -/
inductive Medium
  | document
  | value
  | settings
deriving DecidableEq, Repr

/-- A reader of typed values. -/
abbrev DatumReader (α : Type) := Medium → Datum → Except DatumFault α

namespace Datum

/-- The fault of a value whose kind is not the expected one. -/
def mismatch (expected : String) : Datum → DatumFault
  | .null => .wrongType .null expected
  | .boolean value => .wrongType (.boolean value) expected
  | .number (.integer value) => .wrongType (.integer value) expected
  | .number (.double value) => .wrongType (.double value) expected
  | .number .outOfRange => .malformed
  | .text (some value) => .wrongType (.text value) expected
  | .text none => .malformed
  | .list _ _ => .wrongType .sequence expected
  | .table _ _ => .wrongType .map expected
  | .broken => .malformed

/-- A whole number between two bounds. -/
def readInteger (expected : String) (least greatest : Int) : DatumReader Int := fun _ datum =>
  match datum with
  | .number (.integer value) =>
      if least ≤ value ∧ value ≤ greatest then .ok value
      else .error (.wrongValue (.integer value) expected)
  | other => .error (other.mismatch expected)

/-- A natural number of at most so many bits. -/
def readNat (expected : String) (bits : Nat) : DatumReader Nat := fun medium datum =>
  (readInteger expected 0 (Nat.pow 2 bits - 1) medium datum).map Int.toNat

def readWord64 : DatumReader UInt64 := fun medium datum =>
  (readNat "u64" 64 medium datum).map UInt64.ofNat

def readWord32 : DatumReader UInt32 := fun medium datum =>
  (readNat "u32" 32 medium datum).map UInt32.ofNat

def readWord16 : DatumReader UInt16 := fun medium datum =>
  (readNat "u16" 16 medium datum).map UInt16.ofNat

def readSigned64 : DatumReader Int64 := fun medium datum =>
  (readInteger "i64" (-Nat.pow 2 63) (Nat.pow 2 63 - 1) medium datum).map Int64.ofInt

def readBoolean : DatumReader Bool := fun _ datum =>
  match datum with
  | .boolean value => .ok value
  | other => .error (other.mismatch "a boolean")

/-- A text under the name that faults use for it. -/
def readTextAs (expected : String) : DatumReader String := fun _ datum =>
  match datum with
  | .text (some value) => .ok value
  | other => .error (other.mismatch expected)

def readText : DatumReader String :=
  readTextAs "a string"

/-- A value that may be null. -/
def readOption {α : Type} (reader : DatumReader α) : DatumReader (Option α) := fun medium datum =>
  match datum with
  | .null => .ok none
  | other => (reader medium other).map some

/-- Every item of a list. -/
def readList {α : Type} (reader : DatumReader α) : DatumReader (List α) := fun medium datum =>
  match datum with
  | .list items ending => do
      let values ← items.mapM (reader medium)
      if ending.isClosed then return values else throw .malformed
  | other => .error (other.mismatch "a sequence")

/-- One of several names. -/
def readName {α : Type} (names : List (String × α)) (name : String) : Except DatumFault α :=
  match names.lookup name with
  | some value => .ok value
  | none => .error (.unknownVariant name (names.map Prod.fst))

/-- The name of a variant with nothing in it may also be the only key of a table whose value is
null, or empty in a configuration file. -/
def readEmptyVariant : Medium → Datum → Except DatumFault Unit
  | .settings, .table [] .closed => .ok ()
  | .settings, .list [] .closed => .ok ()
  | .settings, _ => .error (.rejected "expected empty table")
  | _, .null => .ok ()
  | _, other => .error (other.mismatch "unit")

/-- The fault of a value that cannot name a variant. -/
def variantMismatch : Medium → Datum → DatumFault
  | .document, _ => .malformed
  | _, other => other.mismatch "string or map"

/-- One of several variants that hold nothing. -/
def readVariant {α : Type} (names : List (String × α)) : DatumReader α := fun medium datum =>
  match datum with
  | .text (some name) => readName names name
  | .table members ending =>
      match medium, members with
      | .document, [] =>
          match ending with
          | .strayKey found => .error (.wrongType found "variant identifier")
          | _ => .error .malformed
      | _, [(some name, value)] => do
          let variant ← readName names name
          readEmptyVariant medium value
          if ending.isClosed then return variant else throw .malformed
      | .document, (some name, value) :: _ => do
          let _ ← readName names name
          readEmptyVariant medium value
          throw .malformed
      | .document, (none, _) :: _ => .error .malformed
      | _, _ => .error (.wrongValue .map "map with a single key")
  | other => .error (variantMismatch medium other)

end Datum

/-- A field of a structure is read into a draft of it, and may be absent from its list form only if
it is defaulted. -/
structure DatumField (δ : Type) where
  name : String
  defaulted : Bool
  read : Medium → Datum → δ → Except DatumFault δ

/-- A required field. -/
def DatumField.required {δ α : Type} (name : String) (reader : DatumReader α)
    (store : α → δ → δ) : DatumField δ :=
  ⟨name, false, fun medium datum draft => (reader medium datum).map (store · draft)⟩

/-- A field that has a default. -/
def DatumField.optional {δ α : Type} (name : String) (reader : DatumReader α)
    (store : α → δ → δ) : DatumField δ :=
  ⟨name, true, fun medium datum draft => (reader medium datum).map (store · draft)⟩

/-- A structure has a title for faults, its fields in order, the draft before any field is read,
and the step from a full draft to the value, which names the first missing field. -/
structure Shape (δ α : Type) where
  title : String
  fields : List (DatumField δ)
  blank : δ
  finish : δ → Except DatumFault α

/-- The value of a required field of a draft. -/
def requireField {α : Type} (name : String) (value : Option α) : Except DatumFault α :=
  match value with
  | some value => .ok value
  | none => .error (.missingField name)

namespace Shape

variable {δ α : Type}

/-- The members of a table that are fields fill the draft in their order. -/
def readMembers (shape : Shape δ α) (medium : Medium) :
    List String → δ → List (Option String × Datum) → Except DatumFault δ
  | _, draft, [] => .ok draft
  | _, _, (none, _) :: _ => .error .malformed
  | seen, draft, (some name, value) :: rest =>
      match shape.fields.find? fun field => field.name == name with
      | none =>
          if value.isComplete then shape.readMembers medium seen draft rest
          else .error .malformed
      | some field =>
          if seen.contains name then .error (.duplicateField name)
          else do
            let draft ← field.read medium value draft
            shape.readMembers medium (name :: seen) draft rest

/-- How the title names the number of fields. -/
def lengthText (shape : Shape δ α) : String :=
  let count := shape.fields.length
  s!"{shape.title} with {count} " ++ if count = 1 then "element" else "elements"

/-- Items beyond the last field are refused, except in a configuration file. -/
def extraItems (medium : Medium) (total : Nat) : List Datum → Except DatumFault Unit
  | [] => .ok ()
  | _ :: _ =>
      match medium with
      | .document => .error .malformed
      | .value => .error (.wrongLength total "fewer elements in array")
      | .settings => .ok ()

/-- The items of a list fill the draft field by field. -/
def readItems (shape : Shape δ α) (medium : Medium) (closed : Bool) :
    Nat → List (DatumField δ) → List Datum → δ → Except DatumFault δ
  | position, [], extra, draft => do
      extraItems medium (position + extra.length) extra
      if closed then return draft else throw .malformed
  | position, field :: fields, [], draft =>
      if !closed then .error .malformed
      else if field.defaulted then shape.readItems medium closed (position + 1) fields [] draft
      else .error (.wrongLength position shape.lengthText)
  | position, field :: fields, item :: items, draft => do
      let draft ← field.read medium item draft
      shape.readItems medium closed (position + 1) fields items draft

/-- A structure is read from a table of its fields or from a list of them in order. -/
def read (shape : Shape δ α) : DatumReader α := fun medium datum =>
  match datum with
  | .table members ending => do
      let draft ← shape.readMembers medium [] shape.blank members
      if ending.isClosed then shape.finish draft else throw .malformed
  | .list items ending => do
      let draft ← shape.readItems medium ending.isClosed 0 shape.fields items shape.blank
      shape.finish draft
  | other => .error (other.mismatch shape.title)

end Shape

end Backfill
