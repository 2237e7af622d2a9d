/-
This file shows that a record is read back from the document that it was written to.
-/

import Backfill.Proofs.Json.Document
import Backfill.Record.Json

namespace Backfill

namespace Datum

variable (medium : Medium)

/-- A number between the bounds is read. -/
theorem readIntegerOk {expected : String} {least greatest value : Int}
    (bounds : least ≤ value ∧ value ≤ greatest) :
    readInteger expected least greatest medium (.number (.integer value)) = .ok value :=
  if_pos bounds

theorem readNatOk {expected : String} {bits value : Nat} (small : value < Nat.pow 2 bits) :
    readNat expected bits medium (.number (.integer value)) = .ok value := by
  have bound : (0 : Int) ≤ value ∧ (value : Int) ≤ Nat.pow 2 bits - 1 := by
    rw [Nat.pow_eq] at small ⊢
    omega
  rw [readNat, readIntegerOk medium bound]
  rfl

theorem readWord64Ok (word : UInt64) :
    readWord64 medium (.number (.integer word.toNat)) = .ok word := by
  rw [readWord64, readNatOk medium word.toNat_lt, Except.map, UInt64.ofNat_toNat]

theorem readWord32Ok (word : UInt32) :
    readWord32 medium (.number (.integer word.toNat)) = .ok word := by
  rw [readWord32, readNatOk medium word.toNat_lt, Except.map, UInt32.ofNat_toNat]

theorem readWord16Ok (word : UInt16) :
    readWord16 medium (.number (.integer word.toNat)) = .ok word := by
  rw [readWord16, readNatOk medium word.toNat_lt, Except.map, UInt16.ofNat_toNat]

theorem readSigned64Ok (word : Int64) :
    readSigned64 medium (.number (.integer word.toInt)) = .ok word := by
  have bounds : -Nat.pow 2 63 ≤ word.toInt ∧ word.toInt ≤ Nat.pow 2 63 - 1 := by
    have lower := word.le_toInt
    have upper := word.toInt_lt
    rw [Nat.pow_eq]
    omega
  rw [readSigned64, readIntegerOk medium bounds, Except.map, Int64.ofInt_toInt]

theorem readHexOk (bytes : Bytes) :
    readHex medium (.text (some (Text.hex bytes))) = .ok bytes := by
  change hexBytes (Text.hex bytes) = .ok bytes
  rw [hexBytes, Text.readHexOfHex]
  rfl

theorem readHexOptionOk (bytes : Bytes) :
    readHexOption medium (.text (some (Text.hex bytes))) = .ok (some bytes) := by
  change (hexBytes (Text.hex bytes) >>= _) = _
  rw [hexBytes, Text.readHexOfHex]
  rfl

/-- Readings that all succeed give the list of what is read. -/
theorem mapMOk {β γ ε : Type} (read : β → Except ε γ) (write : γ → β)
    (back : ∀ value, read (write value) = .ok value) (values : List γ) :
    (values.map write).mapM read = .ok values := by
  induction values with
  | nil => rfl
  | cons value rest inductionHypothesis =>
      rw [List.map_cons, List.mapM_cons, back, inductionHypothesis]
      rfl

/-- A list of byte strings is read back. -/
theorem readHexListOk (items : List Bytes) :
    readHexList medium (.list (items.map fun bytes => .text (some (Text.hex bytes))) .closed) =
      .ok items := by
  have texts : readList readText medium
      (.list (items.map fun bytes => .text (some (Text.hex bytes))) .closed) =
        .ok (items.map Text.hex) := by
    have read := mapMOk (readText medium) (fun text => .text (some text)) (fun _ => rfl)
      (items.map Text.hex)
    rw [List.map_map] at read
    change (List.mapM (readText medium) _ >>= _) = _
    rw [Function.comp_def] at read
    rw [read]
    rfl
  have bytes := mapMOk hexBytes Text.hex (readHexOk medium) items
  change (readList readText medium _ >>= _) = _
  rw [texts]
  exact bytes

end Datum

namespace Shape

variable {δ α : Type} {shape : Shape δ α} {medium : Medium}

/-- A member of a table that fills a field of a structure: what its field stores in a draft. -/
structure Filled (shape : Shape δ α) (medium : Medium) where
  name : String
  datum : Datum
  store : δ → δ
  reads : ∃ field, shape.fields.find? (fun field => field.name == name) = some field ∧
    ∀ draft, field.read medium datum draft = .ok (store draft)

/-- The member as it stands in the table. -/
def Filled.member (filled : Filled shape medium) : Option String × Datum :=
  (some filled.name, filled.datum)

/-- Members of different names fill their fields one after the other. -/
theorem readMembersFilled (members : List (Filled shape medium)) {seen : List String} (draft : δ)
    (distinct : (members.map Filled.name).Nodup) (fresh : ∀ member ∈ members, member.name ∉ seen) :
    shape.readMembers medium seen draft (members.map Filled.member) =
      .ok (members.foldl (fun draft member => member.store draft) draft) := by
  induction members generalizing seen draft with
  | nil => rfl
  | cons member rest inductionHypothesis =>
      obtain ⟨field, found, reads⟩ := member.reads
      obtain ⟨unseen, others⟩ := List.forall_mem_cons.mp fresh
      obtain ⟨alone, apart⟩ := List.nodup_cons.mp distinct
      have next : ∀ other ∈ rest, other.name ∉ member.name :: seen := by
        intro other inside
        rw [List.mem_cons, not_or]
        exact ⟨fun same => alone (same ▸ List.mem_map_of_mem inside), others other inside⟩
      rw [List.map_cons, Filled.member, readMembers, found]
      dsimp only
      rw [if_neg (by simpa using unseen), reads]
      exact inductionHypothesis (member.store draft) apart next

/-- A table whose members fill their fields is read. -/
theorem readFilled (members : List (Filled shape medium))
    (distinct : (members.map Filled.name).Nodup) :
    shape.read medium (.table (members.map Filled.member) .closed) =
      shape.finish (members.foldl (fun draft member => member.store draft) shape.blank) := by
  have read := readMembersFilled members shape.blank distinct fun _ _ => List.not_mem_nil
  change (shape.readMembers medium [] shape.blank _ >>= _) = _
  rw [read]
  rfl

/-- A field is found by its name, if no other has the name. -/
theorem findByName {fields : List (DatumField δ)} (names : (fields.map DatumField.name).Nodup)
    {field : DatumField δ} (member : field ∈ fields) :
    fields.find? (fun other => other.name == field.name) = some field := by
  induction fields with
  | nil => cases member
  | cons first rest inductionHypothesis =>
      obtain ⟨alone, apart⟩ := List.nodup_cons.mp names
      rcases List.mem_cons.mp member with rfl | inside
      · rw [List.find?_cons, beq_self_eq_true]
      · have different : (first.name == field.name) = false :=
          beq_false_of_ne fun same => alone (same ▸ List.mem_map_of_mem inside)
        rw [List.find?_cons, different]
        exact inductionHypothesis apart inside

/-- What the field at an index reads, under the name of the field. -/
def Filled.at {β : Type} (names : (shape.fields.map DatumField.name).Nodup) (index : Nat)
    {name : String} {defaulted : Bool} {datum : Datum} {reader : DatumReader β} {value : β}
    {store : β → δ → δ} (read : reader medium datum = .ok value)
    (field : shape.fields[index]? = some ⟨name, defaulted, fun medium datum draft =>
      (reader medium datum).map (store · draft)⟩) : Filled shape medium where
  name := name
  datum := datum
  store := store value
  reads := by
    refine ⟨_, findByName names (List.mem_of_getElem? field), fun draft => ?_⟩
    dsimp only
    rw [read]
    rfl

end Shape

namespace BlockPayload

theorem shapeNames : (BlockPayload.shape.fields.map DatumField.name).Nodup := by
  decide

/-- The members that a block payload is written as. -/
def filled (medium : Medium) (block : BlockPayload) :
    List (Shape.Filled BlockPayload.shape medium) := [
  .at shapeNames 0 (Datum.readWord32Ok medium block.version) rfl,
  .at shapeNames 1 (Datum.readHexOk medium block.previousHash) rfl,
  .at shapeNames 2 (Datum.readHexOk medium block.merkleRoot) rfl,
  .at shapeNames 3 (Datum.readSigned64Ok medium block.timestamp) rfl,
  .at shapeNames 4 (Datum.readWord64Ok medium block.height) rfl,
  .at shapeNames 5 (Datum.readWord64Ok medium block.nonce) rfl,
  .at shapeNames 6 (Datum.readWord64Ok medium block.extraNonce) rfl,
  .at shapeNames 7 (Datum.readWord64Ok medium block.proposedInView) rfl,
  .at shapeNames 8 (Datum.readHexListOk medium block.transactions) rfl]

/-- A block payload is read back from its members. -/
theorem readOfJson (medium : Medium) (block : BlockPayload) :
    BlockPayload.shape.read medium block.toJson.datum = .ok block := by
  have members : block.toJson.datum =
      .table ((block.filled medium).map Shape.Filled.member) .closed := by
    simp only [toJson, Json.Value.datum, Json.Value.memberData, Json.Value.itemDataTexts,
      Json.Value.natural]
    rfl
  have distinct : ((block.filled medium).map Shape.Filled.name).Nodup := shapeNames
  rw [members, Shape.readFilled _ distinct, filled]
  simp only [List.foldl_cons, List.foldl_nil, Shape.Filled.at]
  rfl

/-- A block payload is written without doubles, and its numbers are words. -/
theorem toJsonExact (block : BlockPayload) : block.toJson.Exact := by
  have lower := block.timestamp.le_toInt
  have upper := block.timestamp.toInt_lt
  have signed : Json.Fits block.timestamp.toInt := ⟨lower, by
    rw [maxWord, Nat.pow_eq]
    omega⟩
  have version : block.version.toNat ≤ maxWord :=
    Nat.le_trans (Nat.le_of_lt block.version.toNat_lt) (by decide)
  exact ⟨Json.fitsNatural version, trivial, trivial, signed, Json.fitsNatural (wordLe block.height),
    Json.fitsNatural (wordLe block.nonce), Json.fitsNatural (wordLe block.extraNonce),
    Json.fitsNatural (wordLe block.proposedInView), Json.Value.itemsExactTexts _ _, trivial⟩

end BlockPayload

/-- A kind is read back from its tag. -/
theorem RecordKind.readOfJson (medium : Medium) (kind : RecordKind) :
    RecordKind.read medium kind.toJson.datum = .ok kind := by
  cases kind with
  | block => rfl
  | transaction => rfl
  | entity encoderType =>
      have entity : entityShape.read medium
          (.table [(some "encoder_type", .number (.integer encoderType.toNat))] .closed) =
            .ok (.entity encoderType) := by
        have names : (entityShape.fields.map DatumField.name).Nodup := by decide
        exact Shape.readFilled [.at names 0 (Datum.readWord16Ok medium encoderType) rfl]
          (List.nodup_cons.mpr ⟨List.not_mem_nil, List.nodup_nil⟩)
      have tagged : readTagged none [] [(some "kind", .text (some "entity")),
          (some "encoder_type", .number (.integer encoderType.toNat))] =
            .ok (some .entity, [(some "encoder_type", .number (.integer encoderType.toNat))]) := rfl
      change (readTagged none [] [(some "kind", .text (some "entity")),
        (some "encoder_type", .number (.integer encoderType.toNat))] >>= _) = _
      rw [tagged]
      exact entity

/-- An operation is read back from its name. -/
theorem Operation.readOfText (medium : Medium) (operation : Operation) :
    Datum.readVariant Operation.names medium (.text (some operation.text)) = .ok operation := by
  cases operation <;> rfl

namespace Record

theorem shapeNames : (Record.shape.fields.map DatumField.name).Nodup := by
  decide

theorem readBlockOk (medium : Medium) (block : BlockPayload) :
    Datum.readOption BlockPayload.shape.read medium block.toJson.datum = .ok (some block) := by
  change (BlockPayload.shape.read medium block.toJson.datum).map some = _
  rw [BlockPayload.readOfJson]
  rfl

/-- The members that a record is written as. -/
def filled (medium : Medium) (record : Record) : List (Shape.Filled Record.shape medium) :=
  [.at shapeNames 0 (RecordKind.readOfJson medium record.kind) rfl,
    .at shapeNames 1 (Operation.readOfText medium record.operation) rfl,
    .at shapeNames 2 (Datum.readHexOk medium record.key) rfl,
    .at shapeNames 3 (Datum.readHexOk medium record.payload) rfl] ++
  (record.ancestral.map fun bytes =>
    .at shapeNames 4 (Datum.readHexOptionOk medium bytes) rfl).toList ++
  [.at shapeNames 5 (rfl : Datum.readText medium (.text (some record.flushId)) = _) rfl,
    .at shapeNames 6 (Datum.readWord64Ok medium record.height) rfl] ++
  (record.block.map fun block => .at shapeNames 7 (readBlockOk medium block) rfl).toList

/-- A record is read back from its members. -/
theorem readOfJson (medium : Medium) (record : Record) :
    Record.shape.read medium record.toJson.datum = .ok record := by
  have members : record.toJson.datum =
      .table ((record.filled medium).map Shape.Filled.member) .closed := by
    rw [toJson, Json.Value.datum]
    congr 1
    simp only [Json.Value.memberDataAppend, filled, List.map_append]
    cases record.ancestral <;> cases record.block <;> rfl
  have distinct : ((record.filled medium).map Shape.Filled.name).Nodup := by
    simp only [filled]
    cases record.ancestral <;> cases record.block
    all_goals
      simp only [Option.map_none, Option.map_some, Option.toList_none, Option.toList_some,
        List.cons_append, List.nil_append, List.map_cons, List.map_nil, Shape.Filled.at]
      decide
  rw [members, Shape.readFilled _ distinct, filled]
  obtain ⟨kind, operation, key, payload, ancestral, flushId, height, block⟩ := record
  cases ancestral <;> cases block
  all_goals
    simp only [Option.map_none, Option.map_some, Option.toList_none, Option.toList_some,
      List.foldl_append, List.foldl_cons, List.foldl_nil, Shape.Filled.at]
    rfl

/-- A record is written without doubles, and its numbers are words. -/
theorem toJsonExact (record : Record) : record.toJson.Exact := by
  have kind : record.kind.toJson.Exact := by
    cases record.kind with
    | block => exact ⟨trivial, trivial⟩
    | transaction => exact ⟨trivial, trivial⟩
    | entity encoderType =>
        have small : encoderType.toNat ≤ maxWord :=
          Nat.le_trans (Nat.le_of_lt encoderType.toNat_lt) (by decide)
        exact ⟨trivial, Json.fitsNatural small, trivial⟩
  have ancestral : Json.Value.MembersExact (record.ancestral.map fun bytes =>
      ("ancestral_payload", Json.Value.text (Text.hex bytes))).toList := by
    cases record.ancestral with
    | none => trivial
    | some bytes => exact ⟨trivial, trivial⟩
  have block : Json.Value.MembersExact (record.block.map fun block =>
      ("block", block.toJson)).toList := by
    cases record.block with
    | none => trivial
    | some block => exact ⟨block.toJsonExact, trivial⟩
  refine Json.Value.membersExactAppend (Json.Value.membersExactAppend
    (Json.Value.membersExactAppend ?_ ancestral) ?_) block
  · exact ⟨kind, trivial, trivial, trivial, trivial⟩
  · exact ⟨trivial, Json.fitsNatural (wordLe record.height), trivial⟩

/-- A record is read back from its document. -/
theorem decodeOfEncode (record : Record) :
    decode (Text.Utf8.encode record.encode) = .ok record := by
  rw [decode, Json.read, encode, Json.Value.documentOfCompact _ record.toJsonExact]
  change (Record.shape.read .document record.toJson.datum >>= _) = _
  rw [readOfJson]
  rfl

/-- Writing a record and reading it is a round trip: every record is read back from its document, no
two records share a document, and what was read from any document is read again once it is written. -/
theorem roundTrips :
    (∀ record : Record, decode (Text.Utf8.encode record.encode) = .ok record) ∧
      (∀ first second : Record,
        Text.Utf8.encode first.encode = Text.Utf8.encode second.encode → first = second) ∧
      ∀ document record, decode document = .ok record →
        decode (Text.Utf8.encode record.encode) = .ok record := by
  refine ⟨decodeOfEncode, fun first second same => ?_, fun _ record _ => decodeOfEncode record⟩
  have read := decodeOfEncode first
  rw [same, decodeOfEncode] at read
  exact (Except.ok.inj read).symm

end Record

end Backfill
