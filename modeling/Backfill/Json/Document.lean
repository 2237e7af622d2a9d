/-
This file reads JSON documents into trees of data.
-/

import Backfill.Datum.Shape
import Backfill.Json.Number

namespace Backfill.Json

/-- A document has a root value, and is spoiled when something follows it. -/
structure Document where
  root : Datum
  spoiled : Bool

/-- A container that is being read holds its members in reverse order; a table also holds the key
whose value is awaited. -/
inductive Frame
  | list (items : List Datum)
  | table (members : List (Option String × Datum)) (key : Option String)

/-- What the next token has to be. -/
inductive Expectation
  | value
  | firstItem
  | firstKey
  | key (members : List (Option String × Datum))
  | colon (members : List (Option String × Datum)) (key : Option String)
  | separator (done : Datum)

/-- The whole document when its first error is found: the containers around the error are cut
off. -/
def cut : List Frame → Datum → Datum
  | [], datum => datum
  | .list items :: below, datum => cut below (.list (datum :: items).reverse .cut)
  | .table members key :: below, datum =>
      cut below (.table ((key, datum) :: members).reverse .cut)

/-- What a token other than a text amounts to in the place of a key. -/
def strayKey : Token → Ending
  | .null => .strayKey .null
  | .boolean value => .strayKey (.boolean value)
  | .number written =>
      match written.value with
      | .integer value => .strayKey (.integer value)
      | .double value => .strayKey (.double value)
      | .outOfRange => .cut
  | .openList => .strayKey .sequence
  | .openTable => .strayKey .map
  | _ => .cut

/-- What follows a token that starts a value. -/
def expectationAfter? : Token → Option Expectation
  | .openTable => some .firstKey
  | .openList => some .firstItem
  | .null => some (.separator .null)
  | .boolean value => some (.separator (.boolean value))
  | .number written => some (.separator (.number written.value))
  | .text pieces => some (.separator (.text (textOf? pieces)))
  | _ => none

/-- The document that the tokens write inside the open containers. -/
def assemble : Expectation → List Frame → List Token → Document
  | .value, frames, [] => ⟨cut frames .broken, false⟩
  | .firstItem, frames, [] => ⟨cut frames (.list [] .cut), false⟩
  | .firstKey, frames, [] => ⟨cut frames (.table [] .cut), false⟩
  | .key members, frames, [] => ⟨cut frames (.table members.reverse .cut), false⟩
  | .colon members key, frames, [] =>
      ⟨cut frames (.table ((key, .broken) :: members).reverse .cut), false⟩
  | .separator done, frames, [] => ⟨cut frames done, false⟩
  | .value, frames, token :: rest =>
      match expectationAfter? token with
      | some next => assemble next frames rest
      | none => ⟨cut frames .broken, false⟩
  | .firstItem, frames, token :: rest =>
      match token with
      | .closeList => assemble (.separator (.list [] .closed)) frames rest
      | token =>
          match expectationAfter? token with
          | some next => assemble next (.list [] :: frames) rest
          | none => ⟨cut frames (.list [] .cut), false⟩
  | .firstKey, frames, token :: rest =>
      match token with
      | .closeTable => assemble (.separator (.table [] .closed)) frames rest
      | .text pieces => assemble (.colon [] (textOf? pieces)) frames rest
      | token => ⟨cut frames (.table [] (strayKey token)), false⟩
  | .key members, frames, token :: rest =>
      match token with
      | .text pieces => assemble (.colon members (textOf? pieces)) frames rest
      | _ => ⟨cut frames (.table members.reverse .cut), false⟩
  | .colon members key, frames, token :: rest =>
      match token with
      | .colon => assemble .value (.table members key :: frames) rest
      | _ => ⟨cut frames (.table ((key, .broken) :: members).reverse .cut), false⟩
  | .separator done, frames, token :: rest =>
      match frames, token with
      | [], _ => ⟨done, true⟩
      | .list items :: below, .comma => assemble .value (.list (done :: items) :: below) rest
      | .list items :: below, .closeList =>
          assemble (.separator (.list (done :: items).reverse .closed)) below rest
      | .table members key :: below, .comma => assemble (.key ((key, done) :: members)) below rest
      | .table members key :: below, .closeTable =>
          assemble (.separator (.table ((key, done) :: members).reverse .closed)) below rest
      | frames, _ => ⟨cut frames done, false⟩

/-- The document that bytes write. -/
def Document.ofBytes (bytes : List UInt8) : Document :=
  assemble .value [] (tokens bytes)

/-- A typed value that is all of a document. -/
def Document.read {α : Type} (document : Document) (reader : DatumReader α) :
    Except DatumFault α := do
  let value ← reader .document document.root
  if document.spoiled then throw .malformed else return value

/-- A typed value that bytes write. -/
def read {α : Type} (reader : DatumReader α) (bytes : List UInt8) : Except DatumFault α :=
  (Document.ofBytes bytes).read reader

end Backfill.Json
