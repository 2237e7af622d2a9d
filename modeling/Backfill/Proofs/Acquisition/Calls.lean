/-
This file shows what a consumer sees of an acquisition: a list of calls that does not depend on
the consumer, which only decides at which call the acquisition ends.
-/

import Backfill.Acquisition.Consumer

namespace Backfill

/-- A call that an acquisition makes to its consumer. -/
inductive Call
  | consume (record : Record)
  | checkpoint
  | note (activity : Activity)

/-- The record that a call hands on. -/
def Call.record? : Call → Option Record
  | .consume record => some record
  | _ => none

/-- The records that calls hand on, in order. -/
def Call.records (calls : List Call) : List Record :=
  calls.filterMap Call.record?

@[simp] theorem Call.recordsNil : Call.records [] = [] := rfl

@[simp] theorem Call.recordsConsume (record : Record) (calls : List Call) :
    Call.records (.consume record :: calls) = record :: Call.records calls := rfl

@[simp] theorem Call.recordsCheckpoint (calls : List Call) :
    Call.records (.checkpoint :: calls) = Call.records calls := rfl

@[simp] theorem Call.recordsNote (activity : Activity) (calls : List Call) :
    Call.records (.note activity :: calls) = Call.records calls := rfl

@[simp] theorem Call.recordsAppend (first second : List Call) :
    Call.records (first ++ second) = Call.records first ++ Call.records second :=
  List.filterMap_append

@[simp] theorem Call.recordsMapNote (notes : List Activity) :
    Call.records (notes.map .note) = [] := by
  induction notes with
  | nil => rfl
  | cons _ _ inductionHypothesis => simpa using inductionHypothesis

@[simp] theorem Call.recordsMapConsume (records : List Record) :
    Call.records (records.map .consume) = records := by
  induction records with
  | nil => rfl
  | cons _ _ inductionHypothesis => simpa using inductionHypothesis

/-- The heights of records, in order. -/
def Record.heights (records : List Record) : List Nat :=
  records.map fun record => record.height.toNat

@[simp] theorem Record.heightsNil : Record.heights [] = [] := rfl

@[simp] theorem Record.heightsCons (record : Record) (records : List Record) :
    Record.heights (record :: records) = record.height.toNat :: Record.heights records := rfl

@[simp] theorem Record.heightsAppend (first second : List Record) :
    Record.heights (first ++ second) = Record.heights first ++ Record.heights second :=
  List.map_append

@[simp] theorem Record.lengthHeights (records : List Record) :
    (Record.heights records).length = records.length :=
  List.length_map _

/-- The upsert of a block that is blank but for its height, with the height's lowest byte as its
hash. -/
def Record.blank (height : Nat) : Record :=
  ⟨.block, .upsert, [UInt8.ofNat height], [], none, "", UInt64.ofNat height, none⟩

namespace Consumer

variable {κ α : Type}

/-- Makes one call, which cannot fail if it is a note. -/
def make (consumer : Consumer κ) (call : Call) (state : κ) : Except RunError Unit × κ :=
  match call with
  | .consume record => consumer.consume record state
  | .checkpoint => consumer.checkpoint state
  | .note activity => (.ok (), consumer.note activity state)

/-- Makes calls in order up to the first one that fails. -/
def follow (consumer : Consumer κ) : List Call → κ → Except RunError Unit × κ
  | [], state => (.ok (), state)
  | call :: rest, state =>
      match consumer.make call state with
      | (.ok (), state) => consumer.follow rest state
      | (.error cause, state) => (.error cause, state)

/-- Makes calls and gives an answer, or what the first failure comes to. -/
def perform (consumer : Consumer κ) (refused : RunError → α) (answer : α) (calls : List Call)
    (state : κ) : α × κ :=
  match consumer.follow calls state with
  | (.ok (), state) => (answer, state)
  | (.error cause, state) => (refused cause, state)

/-- Takes several notes. -/
def noteAll (consumer : Consumer κ) (notes : List Activity) (state : κ) : κ :=
  notes.foldl (fun state activity => consumer.note activity state) state

/-- The consumer that writes down every call, the last one first, and refuses none. -/
def recorder : Consumer (List Call) where
  consume record calls := (.ok (), .consume record :: calls)
  checkpoint calls := (.ok (), .checkpoint :: calls)
  note activity calls := .note activity :: calls

/-- Calls can be followed in two parts. -/
theorem followAppend (consumer : Consumer κ) (first second : List Call) (state : κ) :
    consumer.follow (first ++ second) state =
      match consumer.follow first state with
      | (.ok (), state) => consumer.follow second state
      | (.error cause, state) => (.error cause, state) := by
  induction first generalizing state with
  | nil => rfl
  | cons call rest inductionHypothesis =>
      simp only [List.cons_append, follow]
      split
      · exact inductionHypothesis _
      · rfl

/-- Notes come before all else without effect on what the calls come to. -/
theorem followNotes (consumer : Consumer κ) (notes : List Activity) (calls : List Call)
    (state : κ) :
    consumer.follow (notes.map .note ++ calls) state =
      consumer.follow calls (consumer.noteAll notes state) := by
  induction notes generalizing state with
  | nil => rfl
  | cons activity rest inductionHypothesis => exact inductionHypothesis _

/-- To hand on records in order is to follow the calls that do so. -/
theorem followConsume (consumer : Consumer κ) (records : List Record) (state : κ) :
    consumer.follow (records.map .consume) state = consumer.consumeAll records state := by
  induction records generalizing state with
  | nil => rfl
  | cons record rest inductionHypothesis =>
      simp only [List.map_cons, follow, make, consumeAll]
      split <;> simp_all

/-- The recorder follows all calls and has written them down afterwards. -/
theorem followRecorder (calls before : List Call) :
    recorder.follow calls before = (.ok (), calls.reverse ++ before) := by
  induction calls generalizing before with
  | nil => rfl
  | cons call rest inductionHypothesis =>
      cases call <;> simp [follow, make, recorder, ← inductionHypothesis]

/-- What the recorder has written down at the end are the calls. -/
theorem performRecorder (refused : RunError → α) (answer : α) (calls : List Call) :
    recorder.perform refused answer calls [] = (answer, calls.reverse) := by
  simp [perform, followRecorder]

/-- Two parts of an acquisition that follow each other make the calls of both. -/
theorem performAppend (consumer : Consumer κ) (refused : RunError → α) (answer : α)
    (first second : List Call) (state : κ) :
    consumer.perform refused answer (first ++ second) state =
      match consumer.follow first state with
      | (.ok (), state) => consumer.perform refused answer second state
      | (.error cause, state) => (refused cause, state) := by
  simp only [perform, followAppend]
  cases consumer.follow first state with
  | mk result next => cases result <;> rfl

/-- An acquisition that only takes notes at first goes on after them. -/
theorem performNotes (consumer : Consumer κ) (refused : RunError → α) (answer : α)
    (notes : List Activity) (calls : List Call) (state : κ) :
    consumer.perform refused answer (notes.map .note ++ calls) state =
      consumer.perform refused answer calls (consumer.noteAll notes state) := by
  simp only [perform, followNotes]

/-- An acquisition that hands on a record first goes on when the record is taken. -/
theorem performConsume (consumer : Consumer κ) (refused : RunError → α) (answer : α)
    (record : Record) (calls : List Call) (state : κ) :
    consumer.perform refused answer (.consume record :: calls) state =
      match consumer.consume record state with
      | (.ok (), state) => consumer.perform refused answer calls state
      | (.error cause, state) => (refused cause, state) := by
  simp only [perform, follow, make]
  cases consumer.consume record state with
  | mk result next => cases result <;> rfl

/-- An acquisition that takes notes only gives its answer. -/
theorem performNotesOnly (consumer : Consumer κ) (refused : RunError → α) (answer : α)
    (notes : List Activity) (state : κ) :
    consumer.perform refused answer (notes.map .note) state =
      (answer, consumer.noteAll notes state) := by
  have all := consumer.performNotes refused answer notes [] state
  rwa [List.append_nil] at all

theorem logEq (consumer : Consumer κ) (event : Event) (state : κ) :
    consumer.log event state = consumer.noteAll [.event event] state := rfl

theorem logAllEq (consumer : Consumer κ) (events : List Event) (state : κ) :
    consumer.logAll events state = consumer.noteAll (events.map .event) state := by
  simp only [logAll, noteAll, List.foldl_map]
  rfl

theorem noteAllAppend (consumer : Consumer κ) (first second : List Activity) (state : κ) :
    consumer.noteAll (first ++ second) state =
      consumer.noteAll second (consumer.noteAll first state) :=
  List.foldl_append

end Consumer

end Backfill
