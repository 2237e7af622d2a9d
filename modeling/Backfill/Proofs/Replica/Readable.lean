/-
This file shows that a replica reads back everything that it stores. Every row fits what its readers
expect, and the transactions of a block lie without gaps, whatever calls were made and however they
were answered.
-/

import Backfill.Proofs.Replica.Query
import Backfill.Proofs.Replica.Tally
import Backfill.Proofs.Text.Decimal
import Backfill.Proofs.Text.Hex

namespace Backfill

/-- A number that fits a column of signed numbers and is read from it as a natural number. -/
def FitsColumn (value : Int) : Prop :=
  0 ≤ value ∧ value ≤ maxSigned

/-- A row of the table of blocks of which each column is as its reader expects. -/
structure BlockRow.Readable (row : BlockRow) : Prop where
  height : FitsColumn row.height
  proposedInView : FitsColumn row.proposedInView
  version : 0 ≤ row.version ∧ row.version < Nat.pow 2 32
  timestamp : Int64.minValue.toInt ≤ row.timestamp ∧ row.timestamp ≤ Int64.maxValue.toInt
  previousHash : ∃ bytes, Text.readHex row.previousHash = .ok bytes
  merkleRoot : ∃ bytes, Text.readHex row.merkleRoot = .ok bytes
  nonce : ∃ word, Text.natOf? maxWord row.nonce = some word
  extraNonce : ∃ word, Text.natOf? maxWord row.extraNonce = some word

/-- Tables of which each row is as its readers expect, and whose transactions lie at the first
places of blocks that are there. -/
structure Tables.Readable (tables : Tables) : Prop where
  hashes : ∀ (hash : String) (row : BlockRow), tables.blocks[hash]? = some row →
    ∃ bytes, Text.readHex hash = .ok bytes
  rows : ∀ (hash : String) (row : BlockRow), tables.blocks[hash]? = some row → row.Readable
  changes : ∀ (key : ChangeKey) (row : ChangeRow), tables.changes[key]? = some row →
    FitsColumn row.height
  owned : ∀ key : TransactionKey, key ∈ tables.transactions → key.hash ∈ tables.blocks
  gapless : ∀ hash, ∃ count, ∀ index,
    (⟨hash, index⟩ : TransactionKey) ∈ tables.transactions ↔ index < count

/-- Tables that answer every question about their blocks. -/
structure Tables.Answers (tables : Tables) : Prop where
  populated : tables.populatedHeights = .ok tables.naturalHeights
  lowest : tables.lowest = .ok tables.naturalHeights.head?
  highest : tables.highest = .ok tables.naturalHeights.getLast?
  interior : tables.interiorGaps = .ok (Backfill.interiorGaps tables.naturalHeights)
  block : ∀ height : UInt64, height.toNat ≤ maxSigned → ∃ block, tables.blockAt height = .ok block ∧
    (block.isSome ↔ tables.Populated height.toNat) ∧
      ∀ payload, block = some payload → payload.height = height

namespace BlockRow

variable {record : Record} {row : BlockRow}

/-- The row that a record stores. -/
theorem eqOfRecord (stored : ofRecord record = .ok row) :
    record.height.toNat ≤ maxSigned ∧ record.header.proposedInView.toNat ≤ maxSigned ∧
      row = {
        previousHash := Text.hex record.header.previousHash
        merkleRoot := Text.hex record.header.merkleRoot
        stamp := Time.stampText record.header.timestamp.toInt
        timestamp := record.header.timestamp.toInt
        height := record.height.toNat
        nonce := toString record.header.nonce.toNat
        extraNonce := toString record.header.extraNonce.toNat
        version := record.header.version.toNat
        proposedInView := record.header.proposedInView.toNat
        transactionCount := record.header.transactions.length
        sourceKey := record.key } := by
  unfold ofRecord at stored
  simp only [bind, Except.bind, signedColumn] at stored
  split at stored
  · cases stored
  · rename_i height heightFits
    split at heightFits
    · rename_i heightSmall
      obtain rfl := Except.ok.inj heightFits
      split at stored
      · cases stored
      · rename_i view viewFits
        split at viewFits
        · rename_i viewSmall
          obtain rfl := Except.ok.inj viewFits
          exact ⟨heightSmall, viewSmall, (Except.ok.inj stored).symm⟩
        · cases viewFits
    · cases heightFits

/-- A row that a record stores is readable. -/
theorem readableOfRecord (stored : ofRecord record = .ok row) : row.Readable := by
  obtain ⟨height, view, rfl⟩ := eqOfRecord stored
  constructor
  · exact ⟨Int.natCast_nonneg _, Int.ofNat_le.mpr height⟩
  · exact ⟨Int.natCast_nonneg _, Int.ofNat_le.mpr view⟩
  · exact ⟨Int.natCast_nonneg _, Int.ofNat_lt.mpr record.header.version.toNat_lt⟩
  · exact ⟨Int64.minValue_le_toInt _, Int64.toInt_le _⟩
  · exact ⟨_, Text.readHexOfHex _⟩
  · exact ⟨_, Text.readHexOfHex _⟩
  · exact ⟨_, Text.natOfToString (wordLe _)⟩
  · exact ⟨_, Text.natOfToString (wordLe _)⟩

theorem naturalColumnOk {field : String} {value : Int} (fits : FitsColumn value) :
    naturalColumn field value = .ok value.toNat :=
  if_pos fits.1

theorem hexColumnOk {field text : String} {bytes : Bytes} (parses : Text.readHex text = .ok bytes) :
    hexColumn field text = .ok bytes := by
  rw [hexColumn, parses]
  rfl

theorem decimalColumnOk {field text : String} {word : Nat}
    (parses : Text.natOf? maxWord text = some word) :
    decimalColumn field text = .ok (UInt64.ofNat word) := by
  rw [decimalColumn, parses]

theorem versionOfReadable (readable : row.Readable) :
    ¬(row.version < 0 ∨ (Nat.pow 2 32 : Nat) ≤ row.version) := by
  have bounds := readable.version
  omega

/-- A readable row is read as what its columns hold. -/
theorem payloadOfReadable (readable : row.Readable) (transactions : List Bytes) :
    ∃ payload, row.toPayload transactions = .ok payload ∧
      payload.height = UInt64.ofNat row.height.toNat := by
  obtain ⟨previousHash, parsesPrevious⟩ := readable.previousHash
  obtain ⟨merkleRoot, parsesRoot⟩ := readable.merkleRoot
  obtain ⟨nonce, parsesNonce⟩ := readable.nonce
  obtain ⟨extraNonce, parsesExtra⟩ := readable.extraNonce
  simp only [toPayload, if_neg (versionOfReadable readable), hexColumnOk parsesPrevious,
    hexColumnOk parsesRoot, decimalColumnOk parsesNonce, decimalColumnOk parsesExtra,
    naturalColumnOk readable.height, naturalColumnOk readable.proposedInView]
  exact ⟨_, rfl, rfl⟩

/-- A header is read as it was written, with the height of its record. -/
theorem payloadOfRecord (stored : ofRecord record = .ok row) (transactions : List Bytes) :
    row.toPayload transactions =
      .ok { record.header with height := record.height, transactions } := by
  obtain ⟨height, view, rfl⟩ := eqOfRecord stored
  have version := versionOfReadable (readableOfRecord stored)
  simp only [toPayload, if_neg version, hexColumnOk (Text.readHexOfHex _),
    decimalColumnOk (Text.natOfToString (wordLe _)), naturalColumn, Int.natCast_nonneg, if_true]
  simp [bind, Except.bind, pure, Except.pure]

end BlockRow

namespace Tables

variable {tables : Tables}

/-- A change that is there after a write was there before, or it is the one of the record. -/
theorem changeOfEnter {write : Write} {key : ChangeKey} {row : ChangeRow}
    (found : (tables.enter write).changes[key]? = some row) :
    tables.changes[key]? = some row ∨ ChangeRow.ofRecord write.record = .ok row := by
  rw [getChangeEnter, Write.onChange, Write.effect] at found
  split at found
  · split at found
    · cases found
    · cases stored : ChangeRow.ofRecord write.record with
      | ok fresh =>
          rw [stored] at found
          rcases Effect.runPut write.replaces fresh tables.changes[key]? with same | same
          · exact .inl (same.symm.trans found)
          · exact .inr (congrArg Except.ok (Option.some.inj (same.symm.trans found)))
      | error cause =>
          rw [stored] at found
          cases replaces : write.replaces <;> simp_all [Effect.put, Effect.run, Except.toOption]
  · rw [Effect.runIdle] at found
    exact .inl found

/-- The change that a record stores has the height of the record. -/
theorem changeFits {record : Record} {row : ChangeRow}
    (stored : ChangeRow.ofRecord record = .ok row) : FitsColumn row.height := by
  unfold ChangeRow.ofRecord at stored
  simp only [bind, Except.bind, signedColumn] at stored
  split at stored
  · cases stored
  · rename_i height fits
    obtain rfl := Except.ok.inj stored
    split at fits
    · rename_i small
      obtain rfl := Except.ok.inj fits
      exact ⟨Int.natCast_nonneg _, Int.ofNat_le.mpr small⟩
    · cases fits

/-- The changes that writes have left in tables without rows have heights that fit. -/
theorem changesFit (writes : List Write) {key : ChangeKey} {row : ChangeRow}
    (found : (empty.enterAll writes).changes[key]? = some row) : FitsColumn row.height := by
  induction writes using List.reverseRec with
  | nil => cases found
  | append_singleton before write inductionHypothesis =>
      rw [enterAllAppend] at found
      rcases changeOfEnter found with there | stored
      · exact inductionHypothesis there
      · exact changeFits stored

/-- The row of a block that writes have left in tables without rows was put by one of them. -/
theorem putOfEnterAll {writes : List Write} {hash : String} {row : BlockRow}
    (found : (empty.enterAll writes).blocks[hash]? = some row) :
    ∃ earlier put later, Put hash writes row earlier put later := by
  cases knownEnterAll hash writes with
  | absent missing _ =>
      rw [missing] at found
      cases found
  | put other present earlier put later isPut _ =>
      obtain rfl := Option.some.inj (present.symm.trans found)
      exact ⟨earlier, put, later, isPut⟩

/-- Whatever is written to tables without rows can be read. -/
theorem readableEnterAll (writes : List Write) : (empty.enterAll writes).Readable where
  hashes := fun hash row found => by
    obtain ⟨_, put, _, isPut⟩ := putOfEnterAll found
    rw [← isPut.own.1.2]
    exact ⟨_, Text.readHexOfHex _⟩
  rows := fun hash row found => by
    obtain ⟨_, put, _, isPut⟩ := putOfEnterAll found
    exact BlockRow.readableOfRecord isPut.stored
  changes := fun key row found => changesFit writes found
  owned := fun key member => by
    cases knownEnterAll key.hash writes with
    | absent _ laid =>
        have nothing := laid key.index
        rw [Std.ExtTreeMap.mem_iff_isSome_getElem?, nothing] at member
        cases member
    | put row present _ _ _ _ _ =>
        rw [Std.ExtTreeMap.mem_iff_isSome_getElem?, present]
        rfl
  gapless := fun hash => by
    have laid : ∃ raws, (empty.enterAll writes).Laid hash raws := by
      cases knownEnterAll hash writes with
      | absent _ laid => exact ⟨_, laid⟩
      | put _ _ _ _ _ _ laid => exact ⟨_, laid⟩
    obtain ⟨raws, laid⟩ := laid
    refine ⟨raws.length, fun index => ?_⟩
    rw [Std.ExtTreeMap.mem_iff_isSome_getElem?, laid index]
    simp

namespace Readable

/-- The heights of readable rows are natural. -/
theorem natural (readable : tables.Readable) : tables.Natural := by
  rintro height ⟨hash, row, found, rfl⟩
  exact (readable.rows hash row found).height.1

/-- The block at a height is read if there is one. -/
theorem blockAt (readable : tables.Readable) {height : UInt64}
    (fits : height.toNat ≤ maxSigned) :
    ∃ block, tables.blockAt height = .ok block ∧
      (block.isSome ↔ tables.Populated height.toNat) ∧
        ∀ payload, block = some payload → payload.height = height := by
  have column : signedColumn "height" height = .ok (height.toNat : Int) := if_pos fits
  simp only [Tables.blockAt, column, bind, Except.bind]
  cases first : (tables.blocksAt height.toNat).head? with
  | none =>
      refine ⟨none, rfl, ?_, by simp⟩
      simp only [Option.isSome_none, Bool.false_eq_true, false_iff]
      rintro ⟨hash, row, found, same⟩
      have listed : (hash, row) ∈ tables.blocksAt height.toNat :=
        List.mem_filter.mpr
          ⟨Std.ExtTreeMap.mem_toList_iff_getElem?_eq_some.mpr found, decide_eq_true same⟩
      rw [List.head?_eq_none_iff.mp first] at listed
      cases listed
  | some entry =>
      obtain ⟨hash, row⟩ := entry
      obtain ⟨listed, same⟩ := List.mem_filter.mp (List.mem_of_head? first)
      have found := Std.ExtTreeMap.mem_toList_iff_getElem?_eq_some.mp listed
      have equal : row.height = height.toNat := of_decide_eq_true same
      obtain ⟨payload, read, own⟩ :=
        BlockRow.payloadOfReadable (readable.rows hash row found) (tables.transactionsOf hash)
      rw [equal, Int.toNat_natCast, UInt64.ofNat_toNat] at own
      dsimp only
      rw [read]
      have populated : tables.Populated height.toNat := ⟨hash, row, found, equal⟩
      refine ⟨some payload, rfl, by simp [populated], ?_⟩
      rintro _ ⟨⟩
      exact own

/-- Readable tables answer every question. -/
theorem answers (readable : tables.Readable) : tables.Answers where
  populated := populatedOfNatural readable.natural
  lowest := Replica.lowestOfNatural readable.natural
  highest := by
    rw [Tables.highest, ← castNaturalHeights readable.natural, List.getLast?_map]
    cases tables.naturalHeights.getLast? with
    | none => rfl
    | some height => simp [naturalColumn, Functor.map, Except.map]
  interior := by
    rw [interiorGaps, ← castNaturalHeights readable.natural, rangesOfBounds]
  block := fun _ fits => readable.blockAt fits

end Readable

end Tables

namespace Replica

/-- Whatever is called on a new replica, its tables are readable and answer every question, and each
row is read as the header of the write that put it. -/
theorem readsBack (calls : List SinkCall) :
    (∀ tables, tables = (store.makeAll calls empty).committed ∨
        (store.makeAll calls empty).working = some tables → tables.Readable ∧ tables.Answers) ∧
      ∀ (hash : String) (row : BlockRow),
        (store.makeAll calls empty).visible.blocks[hash]? = some row →
          ∃ earlier put later,
            Tables.Put hash (Transcript.ofCalls calls).visible row earlier put later ∧
              ∀ transactions, row.toPayload transactions =
                .ok { put.record.header with height := put.record.height, transactions } := by
  have left : store.makeAll calls empty = (Transcript.ofCalls calls).replica .empty :=
    Transcript.replicaOfCalls .empty calls
  rw [left]
  constructor
  · intro tables held
    have written : ∃ writes, tables = Tables.empty.enterAll writes := by
      rcases held with rfl | working
      · exact ⟨_, rfl⟩
      · obtain ⟨writes, _, rfl⟩ := Option.map_eq_some_iff.mp working
        exact ⟨writes, rfl⟩
    obtain ⟨writes, rfl⟩ := written
    have readable := Tables.readableEnterAll writes
    exact ⟨readable, readable.answers⟩
  · intro hash row found
    rw [Transcript.visibleReplica] at found
    obtain ⟨earlier, put, later, isPut⟩ := Tables.putOfEnterAll found
    exact ⟨earlier, put, later, isPut, BlockRow.payloadOfRecord isPut.stored⟩

/-- A batch of which one record cannot be stored is refused as a whole, and a block that was stored
before it goes on to be read. -/
theorem readsBackBlock :
    let calls : List SinkCall := [.begin, .apply false [blockOf [[1]]], .commit, .begin,
      .apply true [blockOf [[2]], { Record.blank 2 with height := 0xffffffffffffffff }]]
    (store.makeAll calls empty).visible.Answers ∧
      ∃ row, (store.makeAll calls empty).visible.blocks["01"]? = some row ∧
        ∃ earlier put later,
          Tables.Put "01" (Transcript.ofCalls calls).visible row earlier put later ∧
            row.toPayload [[1]] = .ok { put.record.header with
              height := put.record.height, transactions := [[1]] } := by
  intro calls
  obtain ⟨tables, rows⟩ := readsBack calls
  have working : (store.makeAll calls empty).working.isSome = true := by decide +kernel
  obtain ⟨copy, present⟩ := Option.isSome_iff_exists.mp working
  have visible : (store.makeAll calls empty).visible = copy := by
    rw [Replica.visible, present]
    rfl
  have stored : ((store.makeAll calls empty).visible.blocks["01"]?).isSome = true := by
    decide +kernel
  obtain ⟨row, found⟩ := Option.isSome_iff_exists.mp stored
  obtain ⟨earlier, put, later, isPut, read⟩ := rows "01" row found
  refine ⟨?_, row, found, earlier, put, later, isPut, read [[1]]⟩
  rw [visible]
  exact (tables copy (.inr present)).2

end Replica

end Backfill
