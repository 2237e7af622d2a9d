/-
This file shows that a configuration is read back from the configuration file that it is written as,
whatever its texts are and whichever settings are absent.
-/

import Backfill.Config.Reader
import Backfill.Proofs.Record.RoundTrip
import Backfill.Proofs.Toml.Sections

namespace Backfill

section Sections

variable {δ α : Type} {part : Section} {shape : Shape δ α} {value : α}

/-- The fields of a structure have distinct names that need no quotes. -/
structure Shape.PlainNames (shape : Shape δ α) : Prop where
  distinct : (shape.fields.map DatumField.name).Nodup
  bare : ∀ name ∈ shape.fields.map DatumField.name, Toml.BareKey name

/-- A section holds a structure if its keys are fields of the structure in their order, and reading
its values gives the structure. -/
structure Section.Holds (part : Section) (shape : Shape δ α) (value : α) : Prop where
  keys : (part.entries.map Prod.fst).Sublist (shape.fields.map DatumField.name)
  reads : shape.read .settings part.member.2 = .ok value

/-- A section that holds a structure needs no quotes if the names of the fields need none. -/
theorem Section.Holds.plain (holds : part.Holds shape value) (names : shape.PlainNames)
    (name : Toml.BareKey part.name) : part.Plain where
  name := name
  keys _ member := names.bare _ (holds.keys.subset (List.mem_map_of_mem member))
  distinct := holds.keys.nodup names.distinct

end Sections

section Settings

namespace Datum

variable (expected text : String)

/-- A text is read under any name for texts. -/
theorem readTextOk : readTextAs expected .settings (.text (some text)) = .ok text :=
  rfl

/-- A text that may be absent is read if it is there. -/
theorem readTextOptionOk :
    readOption (readTextAs expected) .settings (.text (some text)) = .ok (some text) :=
  rfl

theorem readBooleanOk (flag : Bool) : readBoolean .settings (.boolean flag) = .ok flag :=
  rfl

end Datum

/-- A layout is read back from its name. -/
theorem IndexLayout.readOfText (layout : IndexLayout) :
    Datum.readVariant IndexLayout.names .settings (.text (some layout.text)) = .ok layout := by
  cases layout <;> rfl

/-- A format is read back from its name. -/
theorem EventFormat.readOfText (format : EventFormat) :
    Datum.readVariant EventFormat.names .settings (.text (some format.text)) = .ok format := by
  cases format <;> rfl

theorem RepairSettings.readCountOk (word : UInt64) :
    readCount .settings (.number (.integer word.toNat)) = .ok word := by
  rw [readCount, Datum.readNatOk _ word.toNat_lt, Except.map, UInt64.ofNat_toNat]

theorem ReplicaSettings.plainNames : ReplicaSettings.shape.PlainNames :=
  ⟨by decide, by decide⟩

theorem NodeSettings.plainNames : NodeSettings.shape.PlainNames :=
  ⟨by decide, by decide⟩

theorem LogSettings.plainNames : LogSettings.shape.PlainNames :=
  ⟨by decide, by decide⟩

theorem RepairSettings.plainNames : RepairSettings.shape.PlainNames :=
  ⟨by decide, by decide⟩

theorem EventSettings.plainNames : EventSettings.shape.PlainNames :=
  ⟨by decide, by decide⟩

theorem Config.plainNames : Config.shape.PlainNames :=
  ⟨by decide, by decide⟩

/-- The members that the settings of the replica are written as. -/
def ReplicaSettings.filled (settings : ReplicaSettings) :
    List (ReplicaSettings.shape.Filled .settings) := [
  .at plainNames.distinct 0 (Datum.readTextOk _ settings.path) rfl,
  .at plainNames.distinct 1 (Datum.readWord64Ok .settings settings.busyTimeout) rfl]

/-- The members that the settings of the node are written as. -/
def NodeSettings.filled (settings : NodeSettings) : List (NodeSettings.shape.Filled .settings) := [
  .at plainNames.distinct 0 (Datum.readTextOk "a string" settings.url) rfl,
  .at plainNames.distinct 1 (Datum.readWord64Ok .settings settings.timeoutSeconds) rfl,
  .at plainNames.distinct 2 (Datum.readWord32Ok .settings settings.attempts) rfl,
  .at plainNames.distinct 3 (Datum.readWord64Ok .settings settings.firstDelay) rfl,
  .at plainNames.distinct 4 (Datum.readWord64Ok .settings settings.longestDelay) rfl]

/-- The members that the settings of the log are written as. -/
def LogSettings.filled (settings : LogSettings) : List (LogSettings.shape.Filled .settings) :=
  (settings.directory.map fun directory =>
    .at plainNames.distinct 0 (Datum.readTextOptionOk _ directory) rfl).toList ++ [
  .at plainNames.distinct 1 (Datum.readTextOk "a string" settings.indexFile) rfl,
  .at plainNames.distinct 2 (Datum.readTextOk "a string" settings.dataFile) rfl,
  .at plainNames.distinct 3 settings.layout.readOfText rfl,
  .at plainNames.distinct 4 (Datum.readWord64Ok .settings settings.maxRecordBytes) rfl,
  .at plainNames.distinct 5 (Datum.readWord64Ok .settings settings.maxDecodeErrors) rfl,
  .at plainNames.distinct 6 (Datum.readWord64Ok .settings settings.slackFloor) rfl,
  .at plainNames.distinct 7 (Datum.readWord64Ok .settings settings.recordsPerBlock) rfl]

/-- The members that the settings of a repair are written as. -/
def RepairSettings.filled (settings : RepairSettings) :
    List (RepairSettings.shape.Filled .settings) := [
  .at plainNames.distinct 0 (readCountOk settings.workers) rfl,
  .at plainNames.distinct 1 (Datum.readWord64Ok .settings settings.commitInterval) rfl,
  .at plainNames.distinct 2 (readCountOk settings.batchSize) rfl,
  .at plainNames.distinct 3 (Datum.readWord64Ok .settings settings.fetchWindow) rfl,
  .at plainNames.distinct 4 (Datum.readWord64Ok .settings settings.sequentialMax) rfl,
  .at plainNames.distinct 5 (Datum.readWord64Ok .settings settings.parallelMax) rfl,
  .at plainNames.distinct 6 (Datum.readBooleanOk settings.fromGenesis) rfl]

/-- The members that the settings of the event log are written as. -/
def EventSettings.filled (settings : EventSettings) :
    List (EventSettings.shape.Filled .settings) := [
  .at plainNames.distinct 0 (Datum.readTextOk "a string" settings.level) rfl,
  .at plainNames.distinct 1 settings.format.readOfText rfl] ++
  (settings.file.map fun file =>
    .at plainNames.distinct 2 (Datum.readTextOptionOk _ file) rfl).toList

end Settings

namespace Config

theorem holdsReplica (config : Config) {part : Section} (listed : config.sections[0]? = some part) :
    part.Holds ReplicaSettings.shape config.replica := by
  obtain rfl := Option.some.inj listed
  exact ⟨.refl _, Shape.readFilled config.replica.filled ReplicaSettings.plainNames.distinct⟩

theorem holdsNode (config : Config) {part : Section} (listed : config.sections[1]? = some part) :
    part.Holds NodeSettings.shape config.node := by
  obtain rfl := Option.some.inj listed
  exact ⟨.refl _, Shape.readFilled config.node.filled NodeSettings.plainNames.distinct⟩

theorem holdsLog (config : Config) {part : Section} (listed : config.sections[2]? = some part) :
    part.Holds LogSettings.shape config.log := by
  obtain rfl := Option.some.inj listed
  obtain ⟨replica, node, log, repair, events⟩ := config
  obtain ⟨directory, indexFile, dataFile, layout, record, errors, slack, perBlock⟩ := log
  cases directory with
  | none =>
      have keys := List.sublist_cons_self "dir" ["index_file", "data_file", "layout",
        "max_record_bytes", "max_decode_errors", "scan_slack_floor", "records_per_block"]
      exact ⟨keys, Shape.readFilled
        (LogSettings.filled ⟨none, indexFile, dataFile, layout, record, errors, slack, perBlock⟩)
        (keys.nodup LogSettings.plainNames.distinct)⟩
  | some directory =>
      exact ⟨.refl _, Shape.readFilled
        (LogSettings.filled
          ⟨some directory, indexFile, dataFile, layout, record, errors, slack, perBlock⟩)
        LogSettings.plainNames.distinct⟩

theorem holdsRepair (config : Config) {part : Section} (listed : config.sections[3]? = some part) :
    part.Holds RepairSettings.shape config.repair := by
  obtain rfl := Option.some.inj listed
  have read := Shape.readFilled config.repair.filled RepairSettings.plainNames.distinct
  refine ⟨.refl _, read.trans ?_⟩
  simp only [RepairSettings.filled, List.foldl_cons, List.foldl_nil, Shape.Filled.at]
  rfl

theorem holdsEvents (config : Config) {part : Section} (listed : config.sections[4]? = some part) :
    part.Holds EventSettings.shape config.events := by
  obtain rfl := Option.some.inj listed
  obtain ⟨replica, node, log, repair, level, format, file⟩ := config
  cases file with
  | none =>
      have keys := List.sublist_append_left ["level", "format"] ["file"]
      exact ⟨keys, Shape.readFilled (EventSettings.filled ⟨level, format, none⟩)
        (keys.nodup EventSettings.plainNames.distinct)⟩
  | some file =>
      exact ⟨.refl _, Shape.readFilled (EventSettings.filled ⟨level, format, some file⟩)
        EventSettings.plainNames.distinct⟩

/-- The sections have the names of the fields of a configuration. -/
theorem sectionNames (config : Config) :
    config.sections.map Section.name = shape.fields.map DatumField.name :=
  rfl

/-- No section needs quotes. -/
theorem sectionsPlain (config : Config) : ∀ part ∈ config.sections, part.Plain := by
  intro part listed
  have name : Toml.BareKey part.name :=
    plainNames.bare part.name (config.sectionNames ▸ List.mem_map_of_mem listed)
  obtain ⟨index, found⟩ := List.mem_iff_getElem?.mp listed
  match index with
  | 0 => exact (config.holdsReplica found).plain ReplicaSettings.plainNames name
  | 1 => exact (config.holdsNode found).plain NodeSettings.plainNames name
  | 2 => exact (config.holdsLog found).plain LogSettings.plainNames name
  | 3 => exact (config.holdsRepair found).plain RepairSettings.plainNames name
  | 4 => exact (config.holdsEvents found).plain EventSettings.plainNames name
  | _ + 5 => cases found

/-- The members that a configuration is written as. -/
def filled (config : Config) : List (shape.Filled .settings) := [
  .at plainNames.distinct 0 (config.holdsReplica rfl).reads rfl,
  .at plainNames.distinct 1 (config.holdsNode rfl).reads rfl,
  .at plainNames.distinct 2 (config.holdsLog rfl).reads rfl,
  .at plainNames.distinct 3 (config.holdsRepair rfl).reads rfl,
  .at plainNames.distinct 4 (config.holdsEvents rfl).reads rfl]

/-- A configuration is read back from its sections. -/
theorem readOfSections (config : Config) :
    shape.read .settings (.table (config.sections.map Section.member) .closed) = .ok config := by
  have read := Shape.readFilled config.filled plainNames.distinct
  refine Eq.trans ?_ (read.trans ?_)
  · rfl
  · simp only [filled, List.foldl_cons, List.foldl_nil, Shape.Filled.at]
    rfl

/-- The numbers of a configuration, which are words. -/
def numbers (config : Config) : List Nat :=
  [config.replica.busyTimeout.toNat,
    config.node.timeoutSeconds.toNat, config.node.attempts.toNat, config.node.firstDelay.toNat,
    config.node.longestDelay.toNat,
    config.log.maxRecordBytes.toNat, config.log.maxDecodeErrors.toNat, config.log.slackFloor.toNat,
    config.log.recordsPerBlock.toNat,
    config.repair.workers.toNat, config.repair.commitInterval.toNat, config.repair.batchSize.toNat,
    config.repair.fetchWindow.toNat, config.repair.sequentialMax.toNat,
    config.repair.parallelMax.toNat]

/-- The sections fit if all numbers are signed words. -/
theorem fitsIff (config : Config) :
    (∀ part ∈ config.sections, part.Fits) ↔ ∀ number ∈ config.numbers, number ≤ maxSigned := by
  obtain ⟨replica, node, ⟨directory⟩, repair, ⟨level, format, file⟩⟩ := config
  cases directory <;> cases file
  all_goals
    simp only [sections, numbers, Section.Fits, Entry.Fits, List.forall_mem_cons,
      List.not_mem_nil, false_implies, implies_true, and_true, true_and, Option.map_none,
      Option.map_some, Option.toList_none, Option.toList_some, List.cons_append, List.nil_append,
      and_assoc]

/-- A configuration is written unless one of its numbers is no signed word, and what is written is
read back as the configuration: all its texts, choices and numbers, and what it leaves absent. -/
theorem loadsBack (config : Config) :
    ((∃ detail, config.written = .error (.serializeFailed detail)) ↔
        ∃ number ∈ config.numbers, maxSigned < number) ∧
      ((∃ number ∈ config.numbers, maxSigned < number) ∨
        ∃ text, config.written = .ok text ∧ ofToml text = .ok config) := by
  by_cases fits : ∀ number ∈ config.numbers, number ≤ maxSigned
  · have within : ¬∃ number ∈ config.numbers, maxSigned < number := fun ⟨number, listed, large⟩ =>
      absurd (fits number listed) (Nat.not_le.mpr large)
    have sectionsFit := config.fitsIff.mpr fits
    obtain ⟨texts, spelt, same⟩ := Section.writtenAll sectionsFit
    have written : config.written = .ok ("\n".intercalate texts) := by
      rw [Config.written, spelt]
    have read : Toml.ofText ("\n".intercalate texts) =
        some (.table (config.sections.map Section.member) .closed) :=
      Section.readOfWritten config.sectionsPlain sectionsFit plainNames.distinct same
    refine ⟨⟨?_, fun large => absurd large within⟩, .inr ⟨_, written, ?_⟩⟩
    · rintro ⟨detail, failed⟩
      rw [written] at failed
      cases failed
    · rw [ofToml, read]
      dsimp only
      rw [config.readOfSections]
      rfl
  · have large : ∃ number ∈ config.numbers, maxSigned < number := by
      simp only [not_forall, Nat.not_le] at fits
      obtain ⟨number, listed, large⟩ := fits
      exact ⟨number, listed, large⟩
    have part : ∃ part ∈ config.sections, ¬part.Fits := by
      rw [← config.fitsIff] at fits
      simp only [not_forall] at fits
      obtain ⟨part, listed, unfit⟩ := fits
      exact ⟨part, listed, unfit⟩
    obtain ⟨part, listed, unfit⟩ := part
    have failed : config.written = .error (.serializeFailed "") := by
      rw [Config.written, Section.mapMNone listed (Section.writtenNone unfit)]
    exact ⟨⟨fun _ => large, fun _ => ⟨"", failed⟩⟩, .inl large⟩

end Config

end Backfill
