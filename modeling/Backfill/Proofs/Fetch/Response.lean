/-
This file shows what the answer of a node says if a block is taken from it, and that its status alone
decides whether the same request is made again.
-/

import Backfill.Fetch.Response
import Backfill.Proofs.Datum.Fields
import Backfill.Proofs.Json.Document

namespace Backfill

open DatumField (decidesOwn decidesOther)

namespace HeaderAnswer

theorem shapeNames : (shape.fields.map DatumField.name).Nodup := by
  decide

/-- Each field of a header is stored in its own place. -/
theorem fieldsDecide :
    (∀ field ∈ shape.fields, field.Decides "BlockHashHex" Datum.readText Draft.blockHash some) ∧
      (∀ field ∈ shape.fields, field.Decides "Height" Datum.readWord64 Draft.height some) ∧
      (∀ field ∈ shape.fields,
        field.Decides "PrevBlockHashHex" Datum.readText Draft.previousHash id) ∧
      ∀ field ∈ shape.fields,
        field.Decides "TransactionMerkleRootHex" Datum.readText Draft.merkleRoot id := by
  refine ⟨?_, ?_, ?_, ?_⟩
  all_goals
    simp only [shape, List.forall_mem_cons, List.not_mem_nil, false_implies, implies_true, and_true]
    refine ⟨?_, ?_, ?_, ?_, ?_, ?_, ?_, ?_, ?_⟩
    all_goals
      first
      | exact decidesOwn fun _ _ => rfl
      | exact decidesOther (by decide) fun _ _ => rfl

theorem draftOfFinish {draft : Draft} {answer : HeaderAnswer}
    (finished : shape.finish draft = .ok answer) :
    draft.blockHash = some answer.blockHash ∧ draft.height = some answer.height ∧
      draft.previousHash = answer.previousHash ∧ draft.merkleRoot = answer.merkleRoot := by
  obtain ⟨blockHash, hashed, finished⟩ := Except.bindOk.mp finished
  obtain ⟨height, placed, finished⟩ := Except.bindOk.mp finished
  obtain rfl := Except.ok.inj finished
  exact ⟨requireFieldOk.mp hashed, requireFieldOk.mp placed, rfl, rfl⟩

/-- A header that is read has a text for its hash and a number for its height, whether it has the
other hashes or not. -/
theorem entriesOfRead {medium : Medium} {header : Datum} {answer : HeaderAnswer}
    (read : shape.read medium header = .ok answer) :
    shape.entries "BlockHashHex" header = [.text (some answer.blockHash)] ∧
      shape.entries "Height" header = [.number (.integer answer.height.toNat)] ∧
      (shape.entries "PrevBlockHashHex" header = [.text (some answer.previousHash)] ∨
        shape.entries "PrevBlockHashHex" header = [] ∧ answer.previousHash = "") ∧
      (shape.entries "TransactionMerkleRootHex" header = [.text (some answer.merkleRoot)] ∨
        shape.entries "TransactionMerkleRootHex" header = [] ∧ answer.merkleRoot = "") := by
  obtain ⟨decidesHash, decidesHeight, decidesPrevious, decidesRoot⟩ := fieldsDecide
  have previous := Shape.optionalEntry (by decide) shapeNames decidesPrevious
    (fun _ finished => (draftOfFinish finished).2.2.1) read
  have root := Shape.optionalEntry (by decide) shapeNames decidesRoot
    (fun _ finished => (draftOfFinish finished).2.2.2) read
  refine ⟨?_, ?_, Datum.textOfEntry previous, Datum.textOfEntry root⟩
  · obtain ⟨entry, found, inner⟩ := Shape.requiredEntry (by decide) shapeNames rfl decidesHash
      (fun _ finished => (draftOfFinish finished).1) read
    exact Datum.textOfRead inner ▸ found
  · obtain ⟨entry, found, inner⟩ := Shape.requiredEntry (by decide) shapeNames rfl decidesHeight
      (fun _ finished => (draftOfFinish finished).2.1) read
    exact Datum.numberOfRead inner ▸ found

/-- A header has a hash under a name. -/
def Hash (header : Datum) (name : String) (hash : Bytes) : Prop :=
  ∃ text, shape.entries name header = [.text (some text)] ∧ Text.Spells text hash ∧
    hash.length = 32

/-- A header has no hash under a name, or an empty one. -/
def NoHash (header : Datum) (name : String) (hash : Bytes) : Prop :=
  (shape.entries name header = [] ∨ shape.entries name header = [.text (some "")]) ∧ hash = []

/-- A header tells the hash and the height of a block, and its other hashes. -/
structure Tells (header : Datum) (height : Nat) (key : Bytes) (block : BlockPayload) : Prop where
  key : Hash header "BlockHashHex" key
  height : shape.entries "Height" header = [.number (.integer height)]
  previousHash : Hash header "PrevBlockHashHex" block.previousHash ∨
    NoHash header "PrevBlockHashHex" block.previousHash
  merkleRoot : Hash header "TransactionMerkleRootHex" block.merkleRoot ∨
    NoHash header "TransactionMerkleRootHex" block.merkleRoot

end HeaderAnswer

/-- A transaction that is read has a text. -/
theorem transactionOfRead {medium : Medium} {item : Datum} {text : String}
    (read : transactionShape.read medium item = .ok text) :
    transactionShape.entries "RawTransactionHex" item = [.text (some text)] := by
  have decides : ∀ field ∈ transactionShape.fields,
      field.Decides "RawTransactionHex" Datum.readText (fun draft => draft) some := by
    simp only [transactionShape, List.forall_mem_cons, List.not_mem_nil, false_implies,
      implies_true, and_true]
    exact decidesOwn fun _ _ => rfl
  obtain ⟨entry, found, inner⟩ := Shape.requiredEntry (by decide) (by decide) rfl decides
    (fun _ finished => requireFieldOk.mp finished) read
  exact Datum.textOfRead inner ▸ found

namespace NodeAnswer

theorem shapeNames : (shape.fields.map DatumField.name).Nodup := by
  decide

/-- Each field of an answer is stored in its own place. -/
theorem fieldsDecide :
    (∀ field ∈ shape.fields, field.Decides "Header"
        (Datum.readOption HeaderAnswer.shape.read) NodeAnswer.header id) ∧
      (∀ field ∈ shape.fields, field.Decides "Transactions"
        (Datum.readOption (Datum.readList transactionShape.read)) NodeAnswer.transactions id) ∧
      ∀ field ∈ shape.fields, field.Decides "Error" Datum.readText NodeAnswer.error id := by
  refine ⟨?_, ?_, ?_⟩
  all_goals
    simp only [shape, List.forall_mem_cons, List.not_mem_nil, false_implies, implies_true, and_true]
    refine ⟨?_, ?_, ?_⟩
    all_goals
      first
      | exact decidesOwn fun _ _ => rfl
      | exact decidesOther (by decide) fun _ _ => rfl

/-- An answer has a list of transactions, or none, which counts as an empty list. -/
def Lists (root : Datum) (items : List Datum) : Prop :=
  shape.entries "Transactions" root = [.list items .closed] ∨
    (shape.entries "Transactions" root = [] ∨ shape.entries "Transactions" root = [.null]) ∧
      items = []

variable {medium : Medium} {root : Datum} {answer : NodeAnswer}

theorem errorOfRead (read : shape.read medium root = .ok answer) :
    shape.entries "Error" root = [.text (some answer.error)] ∨
      shape.entries "Error" root = [] ∧ answer.error = "" :=
  Datum.textOfEntry <| Shape.optionalEntry (by decide) shapeNames fieldsDecide.2.2
    (fun _ finished => congrArg NodeAnswer.error (Except.ok.inj finished)) read

theorem headerOfRead (read : shape.read medium root = .ok answer) {header : HeaderAnswer}
    (there : answer.header = some header) :
    ∃ datum, shape.entries "Header" root = [datum] ∧
      HeaderAnswer.shape.read medium datum = .ok header := by
  rcases Shape.optionalEntry (by decide) shapeNames fieldsDecide.1
    (fun _ finished => congrArg NodeAnswer.header (Except.ok.inj finished)) read with
    ⟨entry, found, inner⟩ | ⟨_, absent⟩
  · rcases Datum.optionOfRead inner with ⟨_, none⟩ | ⟨filled, inside, same⟩
    · cases there.symm.trans none
    · obtain rfl := Option.some.inj (there.symm.trans same)
      exact ⟨entry, found, inside⟩
  · cases there.symm.trans absent

/-- The transactions that are read are listed. -/
theorem transactionsOfRead (read : shape.read medium root = .ok answer) :
    ∃ items, Lists root items ∧
      List.Forall₂ (fun item text =>
          transactionShape.entries "RawTransactionHex" item = [.text (some text)])
        items (answer.transactions.getD []) := by
  unfold Lists
  rcases Shape.optionalEntry (by decide) shapeNames fieldsDecide.2.1
    (fun _ finished => congrArg NodeAnswer.transactions (Except.ok.inj finished)) read with
    ⟨entry, found, inner⟩ | ⟨found, absent⟩
  · rcases Datum.optionOfRead inner with ⟨rfl, none⟩ | ⟨texts, listed, same⟩
    · rw [none]
      exact ⟨[], .inr ⟨.inr found, rfl⟩, .nil⟩
    · obtain ⟨items, rfl, each⟩ := Datum.listOfRead listed
      rw [same]
      exact ⟨items, .inl found, each.imp fun _ _ => transactionOfRead⟩
  · rw [absent]
    exact ⟨[], .inr ⟨.inl found, rfl⟩, .nil⟩

/-- A hash has its length, unless it may be empty and is. -/
theorem spellsOfReadHash {field : String} {mayBeEmpty : Bool} {text : String} {hash : Bytes}
    (read : readHash field mayBeEmpty text = .ok hash) :
    Text.Spells text hash ∧ hash.length = 32 ∨ mayBeEmpty = true ∧ text = "" ∧ hash = [] := by
  unfold readHash at read
  split at read
  · rename_i empty
    rw [Bool.and_eq_true, String.isEmpty_iff] at empty
    exact .inr ⟨empty.2, empty.1, (Except.ok.inj read).symm⟩
  · split at read
    · cases read
    · rename_i decoded
      split at read
      · rename_i length
        obtain rfl := Except.ok.inj read
        exact .inl ⟨Text.spellsOfReadHex decoded, length⟩
      · cases read

/-- A hash that may be empty is read as it is in the header. -/
theorem hashOfRead {header : Datum} {field text : String} {hash : Bytes}
    (there : HeaderAnswer.shape.entries field header = [.text (some text)] ∨
      HeaderAnswer.shape.entries field header = [] ∧ text = "")
    (read : readHash field true text = .ok hash) :
    HeaderAnswer.Hash header field hash ∨ HeaderAnswer.NoHash header field hash := by
  rcases spellsOfReadHash read with ⟨spells, length⟩ | ⟨_, rfl, rfl⟩
  · rcases there with found | ⟨_, rfl⟩
    · exact .inl ⟨text, found, spells, length⟩
    · cases hash with
      | nil => cases length
      | cons byte rest => cases spells
  · exact .inr ⟨there.symm.imp And.left id, rfl⟩

/-- Every transaction is decoded, in order. -/
theorem spellsOfReadTransactions {index : Nat} {texts : List String} {transactions : List Bytes}
    (read : readTransactions index texts = .ok transactions) :
    List.Forall₂ Text.Spells texts transactions := by
  induction texts generalizing index transactions with
  | nil =>
      obtain rfl := Except.ok.inj read
      exact .nil
  | cons text rest inductionHypothesis =>
      rw [readTransactions] at read
      split at read
      · cases read
      · rename_i decoded
        obtain ⟨others, followed, rfl⟩ := Except.mapOk.mp read
        exact .cons (Text.spellsOfReadHex decoded) (inductionHypothesis followed)

/-- The answer of a node tells a block of a height: it has no error, a header and a list of
transactions, each of which is a text with its bytes. -/
structure Tells (root : Datum) (height : Nat) (key : Bytes) (block : BlockPayload) : Prop where
  error : shape.entries "Error" root = [] ∨ shape.entries "Error" root = [.text (some "")]
  header : ∃ header, shape.entries "Header" root = [header] ∧
    HeaderAnswer.Tells header height key block
  transactions : ∃ items, Lists root items ∧ List.Forall₂ (fun item bytes => ∃ text,
    transactionShape.entries "RawTransactionHex" item = [.text (some text)] ∧
      Text.Spells text bytes) items block.transactions

theorem forallJoin {α β γ : Type} {first : α → β → Prop} {second : β → γ → Prop} {start : List α}
    {middle : List β} {stop : List γ} (before : List.Forall₂ first start middle)
    (after : List.Forall₂ second middle stop) :
    List.Forall₂ (fun a c => ∃ b, first a b ∧ second b c) start stop := by
  induction before generalizing stop with
  | nil =>
      cases after
      exact .nil
  | cons head _ inductionHypothesis =>
      cases after with
      | cons next rest => exact .cons ⟨_, head, next⟩ (inductionHypothesis rest)

/-- A record is taken from an answer that tells its block. -/
theorem tellsOfRecord {height : Nat} {record : Record} (read : shape.read medium root = .ok answer)
    (taken : answer.toRecord height = .ok record) :
    ∃ block, record = .ofBlock record.key block ∧ block.height.toNat = height ∧
      Tells root height record.key block := by
  unfold toRecord at taken
  cases there : answer.header with
  | none =>
      rw [there] at taken
      dsimp only at taken
      split at taken <;> cases taken
  | some header =>
      rw [there] at taken
      dsimp only at taken
      split at taken
      · cases taken
      rename_i quiet
      split at taken
      · cases taken
      rename_i place
      obtain ⟨key, keyRead, taken⟩ := Except.bindOk.mp taken
      obtain ⟨previousHash, previousRead, taken⟩ := Except.bindOk.mp taken
      obtain ⟨merkleRoot, rootRead, taken⟩ := Except.bindOk.mp taken
      obtain ⟨transactions, each, taken⟩ := Except.bindOk.mp taken
      obtain rfl := Except.ok.inj taken
      have empty : answer.error = "" := by simpa using quiet
      have same : header.height.toNat = height := not_not.mp place
      obtain ⟨datum, found, headerRead⟩ := headerOfRead read there
      obtain ⟨items, listed, texts⟩ := transactionsOfRead read
      refine ⟨_, rfl, same, ?_, ⟨datum, found, ?_⟩, items, listed, ?_⟩
      · rcases errorOfRead read with text | absent
        · exact .inr (empty ▸ text)
        · exact .inl absent.1
      · obtain ⟨hash, placed, previous, root⟩ := HeaderAnswer.entriesOfRead headerRead
        refine ⟨?_, by rw [placed, same], ?_, ?_⟩
        · rcases spellsOfReadHash keyRead with ⟨spells, length⟩ | ⟨never, _⟩
          · exact ⟨header.blockHash, hash, spells, length⟩
          · cases never
        · exact hashOfRead previous previousRead
        · exact hashOfRead root rootRead
      · exact forallJoin texts (spellsOfReadTransactions each)

/-- A failure names the height that was asked for, and is transient if and only if the status is. -/
theorem errorOfResponse {height : Nat} {status : Status} {body : Bytes} {error : FetchError}
    (failed : readResponse height status body = .error error) :
    error.transient = status.isTransient ∧ error.height = height := by
  unfold readResponse at failed
  split at failed
  · rename_i transient
    obtain rfl := Except.error.inj failed
    exact ⟨transient.symm, rfl⟩
  rename_i settled
  have never : status.isTransient = false := Bool.eq_false_iff.mpr settled
  rw [never]
  split at failed
  · obtain rfl := Except.error.inj failed
    exact ⟨rfl, rfl⟩
  split at failed
  · obtain rfl := Except.error.inj failed
    exact ⟨rfl, rfl⟩
  · rename_i answer _
    cases taken : answer.toRecord height with
    | error reason =>
        rw [taken] at failed
        obtain rfl := Except.error.inj failed
        exact ⟨rfl, rfl⟩
    | ok record =>
        rw [taken] at failed
        cases failed

/-- A record is taken from a body with a status of success only, which is one whole document. -/
theorem recordOfResponse {height : Nat} {status : Status} {body : Bytes} {record : Record}
    (taken : readResponse height status body = .ok record) :
    status.isSuccess = true ∧ (Json.Document.ofBytes body).spoiled = false ∧
      ∃ answer, shape.read .document (Json.Document.ofBytes body).root = .ok answer ∧
        answer.toRecord height = .ok record := by
  unfold readResponse at taken
  split at taken
  · cases taken
  split at taken
  · cases taken
  rename_i success
  split at taken
  · cases taken
  · rename_i answer read
    obtain ⟨value, found, whole⟩ := Except.bindOk.mp read
    split at whole
    · cases whole
    · rename_i clean
      obtain rfl := Except.ok.inj whole
      exact ⟨by simpa using success, Bool.eq_false_iff.mpr clean, value, found,
        Except.mapErrorOk.mp taken⟩

/-- A record is taken only from a body that tells its block, and a failure is transient only if the
status says so. -/
theorem responsesReadSoundly (height : Nat) (status : Status) (body : Bytes) :
    ((∃ error, readResponse height status body = .error error ∧ error.transient = true) ↔
        status.code = 429 ∨ 500 ≤ status.code ∧ status.code ≤ 599) ∧
      (∀ error, readResponse height status body = .error error → error.height = height) ∧
      ∀ record, readResponse height status body = .ok record →
        (200 ≤ status.code ∧ status.code ≤ 299) ∧
          record.kind = .block ∧ record.operation = .upsert ∧ record.height.toNat = height ∧
          ∃ block, record.block = some block ∧ block.height.toNat = height ∧
            let document := Json.Document.ofBytes body
            document.spoiled = false ∧ document.root.isComplete = true ∧
              Tells document.root height record.key block := by
  refine ⟨?_, fun error failed => (errorOfResponse failed).2, ?_⟩
  · have told : status.isTransient = true ↔
        status.code = 429 ∨ 500 ≤ status.code ∧ status.code ≤ 599 := by
      simp [Status.isTransient, Nat.lt_succ_iff]
    rw [← told]
    constructor
    · rintro ⟨error, failed, transient⟩
      exact (errorOfResponse failed).1 ▸ transient
    · intro transient
      exact ⟨_, if_pos transient, rfl⟩
  · intro record taken
    obtain ⟨success, clean, answer, read, taken⟩ := recordOfResponse taken
    obtain ⟨block, same, place, tells⟩ := tellsOfRecord read taken
    simp only [Status.isSuccess, Bool.and_eq_true, decide_eq_true_eq, Nat.lt_succ_iff] at success
    rw [same]
    exact ⟨success, rfl, rfl, place, block, rfl, place, clean, Shape.completeOfRead read,
      same ▸ tells⟩

/-- The answer of a node with a block of height three that has one transaction. -/
def short : Json.Value :=
  .table [
    ("Header", .table [
      ("Height", .natural 3),
      ("BlockHashHex", .text (Text.hex (List.replicate 32 0xab)))]),
    ("Transactions", .list [.table [("RawTransactionHex", .text (Text.hex [1, 2]))]])]

/-- The block of a short answer. -/
def shortBlock : BlockPayload :=
  { BlockPayload.blank with height := 3, transactions := [[1, 2]] }

/-- The block is taken from the answer with one status, and a failure from it with another one. -/
theorem shortAnswerTells :
    let body := Text.Utf8.encode short.compact
    let record : Record := .ofBlock (List.replicate 32 0xab) shortBlock
    readResponse 3 ⟨200⟩ body = .ok record ∧
      Tells (Json.Document.ofBytes body).root 3 record.key shortBlock ∧
      ∃ error, readResponse 3 ⟨503⟩ body = .error error ∧ error.transient = true ∧
        error.height = 3 := by
  intro body record
  have exact : short.Exact :=
    ⟨⟨Json.fitsNatural (by decide), trivial, trivial⟩, ⟨⟨⟨trivial, trivial⟩, trivial⟩, trivial⟩⟩
  have read : Json.read shape.read body =
      .ok ⟨some ⟨Text.hex (List.replicate 32 0xab), 0, "", "", 0, 3, 0, 0, 0⟩,
        some [Text.hex [1, 2]], ""⟩ := by
    rw [Json.read, Json.Value.documentOfCompact short exact]
    rfl
  have taken : readResponse 3 ⟨200⟩ body = .ok record := by
    rw [readResponse, read]
    decide +kernel
  obtain ⟨_, _, _, _, block, same, _, _, _, tells⟩ :=
    (responsesReadSoundly 3 ⟨200⟩ body).2.2 record taken
  obtain rfl := Option.some.inj same
  obtain ⟨transient, heights, _⟩ := responsesReadSoundly 3 ⟨503⟩ body
  obtain ⟨error, failed, again⟩ := transient.mpr (.inr (by decide))
  exact ⟨taken, tells, error, failed, again, heights error failed⟩

end NodeAnswer

end Backfill
