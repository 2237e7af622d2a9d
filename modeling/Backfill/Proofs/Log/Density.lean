/-
This file shows when a scan serves a range from a log in which no block has more records than it is
expected to have. What counts is the place of the block at the end of the range, which depends on
all records before it and not only on those of the range.
-/

import Backfill.Proofs.Log.RoundTrip
import Backfill.Proofs.Log.Scan

namespace Backfill

/-- The blocks among records have the heights from zero up to a limit, each once and in order. -/
def Ascending (limit : Nat) (records : List Record) : Prop :=
  Record.heights (records.filter Record.isBlock) = List.range limit

/-- Groups of records for the heights from zero on, each with the block of its height and not more
records than a block may have. -/
structure DenseGroups (limit : Nat) (groups : List (List Record)) : Prop where
  room : ∀ group ∈ groups, group.length ≤ limit
  blocks : groups.map (fun group => Record.heights (group.filter Record.isBlock)) =
    (List.range groups.length).map fun height => [height]

/-- The place of the block of a height among records. -/
def blockPlace (records : List Record) (height : Nat) : Nat :=
  records.findIdx fun record => record.isBlock && record.height.toNat == height

namespace Ascending

variable {limit : Nat} {records : List Record} {place height : Nat} {record : Record}

/-- The height of a block is the number of the blocks before it. -/
theorem heightEq (ascending : Ascending limit records) (found : records[place]? = some record)
    (block : record.isBlock = true) :
    record.height.toNat = (records.take place).countP Record.isBlock ∧
      record.height.toNat < limit := by
  obtain ⟨inside, rfl⟩ := List.getElem?_eq_some_iff.mp found
  have cut : Record.heights ((records.take place).filter Record.isBlock) ++
      records[place].height.toNat ::
        Record.heights ((records.drop (place + 1)).filter Record.isBlock) = List.range limit := by
    rw [← ascending, ← Record.heightsCons, ← Record.heightsAppend,
      ← List.filter_cons_of_pos block, ← List.filter_append, List.getElem_cons_drop,
      List.take_append_drop]
  have here := congrArg (·[((records.take place).filter Record.isBlock).length]?) cut
  simp only [List.getElem?_append_right, Record.lengthHeights, Nat.le_refl, Nat.sub_self,
    List.getElem?_cons_zero] at here
  obtain ⟨below, same⟩ := List.getElem?_eq_some_iff.mp here.symm
  rw [List.getElem_range] at same
  rw [List.length_range] at below
  rw [List.countP_eq_length_filter]
  exact ⟨same.symm, same ▸ below⟩

/-- The block of a height stands at its place. -/
theorem atPlace (ascending : Ascending limit records) (below : height < limit) :
    ∃ record, records[blockPlace records height]? = some record ∧ record.isBlock = true ∧
      record.height.toNat = height := by
  have listed : height ∈ Record.heights (records.filter Record.isBlock) := by
    rw [ascending]
    exact List.mem_range.mpr below
  obtain ⟨record, member, own⟩ := List.mem_map.mp listed
  obtain ⟨inside, block⟩ := List.mem_filter.mp member
  have stands : ∃ record ∈ records, (record.isBlock && record.height.toNat == height) = true :=
    ⟨record, inside, by simp [block, own]⟩
  have bound := List.findIdx_lt_length_of_exists stands
  have holds := List.findIdx_getElem (w := bound)
  rw [Bool.and_eq_true, beq_iff_eq] at holds
  exact ⟨_, List.getElem?_eq_getElem bound, holds⟩

/-- More blocks stand before a later place than before a block. -/
theorem countLt (found : records[place]? = some record) (block : record.isBlock = true)
    {later : Nat} (less : place < later) :
    (records.take place).countP Record.isBlock < (records.take later).countP Record.isBlock := by
  have whole : (records.take (place + 1)).countP Record.isBlock =
      (records.take place).countP Record.isBlock + 1 := by
    rw [List.take_add_one, found, List.countP_append]
    simp [block]
  have more : (records.take (place + 1)).countP Record.isBlock ≤
      (records.take later).countP Record.isBlock :=
    (List.take_sublist_take_left less).countP_le
  omega

/-- There is no block of a height but at its place. -/
theorem placeEq (ascending : Ascending limit records) (found : records[place]? = some record)
    (block : record.isBlock = true) : blockPlace records record.height.toNat = place := by
  obtain ⟨count, below⟩ := ascending.heightEq found block
  obtain ⟨other, there, otherBlock, own⟩ := ascending.atPlace below
  have otherCount := (ascending.heightEq there otherBlock).1
  rcases Nat.lt_trichotomy (blockPlace records record.height.toNat) place with less | same | more
  · have counts := countLt there otherBlock less
    omega
  · exact same
  · have counts := countLt found block more
    omega

/-- The block of a higher height stands behind. -/
theorem placeLt (ascending : Ascending limit records) {lower higher : Nat} (less : lower < higher)
    (below : higher < limit) : blockPlace records lower < blockPlace records higher := by
  obtain ⟨first, there, firstBlock, rfl⟩ := ascending.atPlace (Nat.lt_trans less below)
  obtain ⟨second, behind, secondBlock, rfl⟩ := ascending.atPlace below
  have firstCount := (ascending.heightEq there firstBlock).1
  have secondCount := (ascending.heightEq behind secondBlock).1
  by_contra before
  have counts : (records.take (blockPlace records second.height.toNat)).countP Record.isBlock ≤
      (records.take (blockPlace records first.height.toNat)).countP Record.isBlock :=
    (List.take_sublist_take_left (Nat.not_lt.mp before)).countP_le
  omega

/-- No block stands before the place that its height gives. -/
theorem lePlace (ascending : Ascending limit records) (below : height < limit) :
    height ≤ blockPlace records height := by
  obtain ⟨record, there, block, own⟩ := ascending.atPlace below
  have count := (ascending.heightEq there block).1
  have most := List.countP_le_length (p := Record.isBlock)
    (l := records.take (blockPlace records height))
  rw [List.length_take] at most
  omega

theorem placeInside (ascending : Ascending limit records) (below : height < limit) :
    blockPlace records height < records.length := by
  obtain ⟨record, there, _⟩ := ascending.atPlace below
  exact (List.getElem?_eq_some_iff.mp there).1

end Ascending

namespace DenseGroups

variable {limit : Nat} {groups : List (List Record)}

/-- The blocks of all groups ascend. -/
theorem ascending (dense : DenseGroups limit groups) : Ascending groups.length groups.flatten := by
  have heights : Record.heights (groups.flatten.filter Record.isBlock) =
      (groups.map fun group => Record.heights (group.filter Record.isBlock)).flatten := by
    rw [List.filter_flatten, Record.heights, List.map_flatten, List.map_map]
    rfl
  rw [Ascending, heights, dense.blocks]
  simp [← List.flatMap_def]

/-- The first groups are dense. -/
theorem take (dense : DenseGroups limit groups) (count : Nat) :
    DenseGroups limit (groups.take count) where
  room := fun group member => dense.room group (List.mem_of_mem_take member)
  blocks := by
    rw [List.map_take, dense.blocks, ← List.map_take, List.take_range, List.length_take]

/-- The first groups have not more records than so many blocks may have. -/
theorem lengthLe (dense : DenseGroups limit groups) :
    groups.flatten.length ≤ groups.length * limit := by
  have room := dense.room
  clear dense
  induction groups with
  | nil => simp
  | cons group rest inductionHypothesis =>
      obtain ⟨first, others⟩ := List.forall_mem_cons.mp room
      have later := inductionHypothesis others
      rw [List.flatten_cons, List.length_append, List.length_cons, Nat.succ_mul]
      omega

/-- The block of a height stands among the records that so many blocks may have. -/
theorem placeLt (dense : DenseGroups limit groups) {height : Nat} (below : height < groups.length) :
    blockPlace groups.flatten height < (height + 1) * limit := by
  obtain ⟨record, there, block, own⟩ := dense.ascending.atPlace below
  have count := (dense.ascending.heightEq there block).1
  have first := dense.take (height + 1)
  have length : (groups.take (height + 1)).length = height + 1 := by
    rw [List.length_take]
    omega
  have blocks : (groups.take (height + 1)).flatten.countP Record.isBlock = height + 1 := by
    have heights := congrArg List.length first.ascending
    rwa [Record.lengthHeights, ← List.countP_eq_length_filter, List.length_range, length] at heights
  have most := first.lengthLe
  rw [length] at most
  by_contra behind
  have within : (groups.take (height + 1)).flatten.Sublist
      (groups.flatten.take (blockPlace groups.flatten height)) := by
    have split : groups.flatten =
        (groups.take (height + 1)).flatten ++ (groups.drop (height + 1)).flatten := by
      rw [← List.flatten_append, List.take_append_drop]
    generalize blockPlace groups.flatten height = place at behind
    have whole : (groups.take (height + 1)).flatten.take place =
        (groups.take (height + 1)).flatten :=
      List.take_of_length_le (by omega)
    rw [split, List.take_append, whole]
    exact List.sublist_append_left _ _
  have counts := within.countP_le (p := Record.isBlock)
  omega

end DenseGroups

namespace LogReader

/-- A log that is intact has some records: each is read at its position, and no index entry gives it
another height. -/
structure Lists (reader : LogReader) (records : List Record) : Prop where
  entries : reader.entries = records.length
  read : ∀ position record, records[position]? = some record → reader.read position = .ok record
  height : ∀ position record entry height, records[position]? = some record →
    reader.entry position = .ok entry → entry.height = some height → height = record.height.toNat

/-- A log that was opened as it was written. -/
def ofLog (settings : LogSettings) (log : LogWriter) : LogReader :=
  ofContents settings log.index log.data (log.index.size / settings.layout.width) log.data.size

theorem ofLogEq (settings : LogSettings) (log : LogWriter) :
    ofLog settings log = log.cut settings log.index.size log.data.size :=
  (cutNothing log settings).symm

theorem entriesOfRecords (settings : LogSettings) (records : List Record) :
    (ofLog settings (ofRecords settings.layout records)).entries = records.length := by
  rw [ofLogEq, ofRecordsEq, entriesOfWhole, List.length_map]

/-- A log that is written by appending records is intact. -/
theorem listsOfRecords (settings : LogSettings) (records : List Record)
    (short : ∀ record ∈ records,
      (Text.Utf8.encode record.encode).length ≤ settings.maxRecordBytes.toNat)
    (fits : (ofRecords settings.layout records).data.size ≤ maxSigned) :
    (ofLog settings (ofRecords settings.layout records)).Lists records where
  entries := entriesOfRecords settings records
  read := fun position record found => readOfRecords settings short fits found
  height := fun position record entry height found entered named => by
    have own : (ofLog settings (ofRecords settings.layout records)).entry position = _ :=
      entryOfRecords settings fits found
    obtain rfl := Except.ok.inj (own.symm.trans entered)
    cases layout : settings.layout with
    | offsets =>
        rw [layout] at named
        cases named
    | extended =>
        rw [layout] at named
        exact (Option.some.inj named).symm

namespace Lists

variable {reader : LogReader} {records : List Record} {range : HeightRange} {count limit : Nat}

/-- Behind the last record there is nothing to be read. -/
theorem entryBehind (lists : reader.Lists records) {position : Nat}
    (behind : records.length ≤ position) : reader.entry position = .error (.notFound position) :=
  if_pos (lists.entries.trans_le behind)

theorem wantedOfPassed (lists : reader.Lists records) {position : Nat} {record : Record}
    (found : records[position]? = some record)
    (passed : reader.isPassed range position = true) : isWanted range record = false := by
  unfold isPassed at passed
  split at passed
  · rename_i entry entered
    cases named : entry.height with
    | none => simp [named] at passed
    | some height =>
        obtain rfl := lists.height position record entry height found entered named
        simp only [named, Option.any_some, Bool.not_eq_true'] at passed
        simp [isWanted, passed]
  · cases passed

/-- The block of a range at a position is the record there, if it is one. -/
theorem blockAtEq (lists : reader.Lists records) (position : Nat) :
    reader.blockAt? range position = records[position]?.filter (isWanted range) := by
  unfold blockAt?
  cases found : records[position]? with
  | none =>
      have behind := lists.entryBehind (List.getElem?_eq_none_iff.mp found)
      simp [isPassed, LogReader.read, behind, bind, Except.bind, Except.toOption]
  | some record =>
      rw [lists.read position record found]
      cases passed : reader.isPassed range position with
      | false => rfl
      | true => simp [Option.filter_some, lists.wantedOfPassed found passed]

/-- No entry is damaged. -/
theorem damagedCountEq (lists : reader.Lists records)
    (within : range.start + count ≤ records.length) : reader.damagedCount range count = 0 := by
  rw [damagedCount, List.countP_eq_zero]
  intro position member
  have inside : position < records.length := by
    have bounds := List.mem_range'_1.mp member
    omega
  rw [isDamagedAt, lists.read position _ (List.getElem?_eq_getElem inside)]
  simp [Except.toBool]

/-- A height has a block among so many positions if the place of its block is one of them. -/
theorem memBlocks (lists : reader.Lists records) (ascending : Ascending limit records)
    {height : Nat} (inside : height ∈ range) (below : height < limit) :
    height ∈ Record.heights (reader.blocks range count) ↔
      blockPlace records height < range.start + count := by
  constructor
  · intro member
    obtain ⟨record, listed, rfl⟩ := List.mem_map.mp member
    obtain ⟨position, visited, block⟩ := List.mem_filterMap.mp listed
    rw [lists.blockAtEq] at block
    obtain ⟨found, wanted⟩ := Option.filter_eq_some_iff.mp block
    rw [ascending.placeEq found (heightOfWanted wanted).1]
    exact (List.mem_range'_1.mp visited).2
  · intro visited
    obtain ⟨record, found, block, rfl⟩ := ascending.atPlace below
    have least := ascending.lePlace below
    have bounds := (range.memIff _).mp inside
    have wanted : isWanted range record = true := by
      simp [isWanted, block, range.containsIff, inside]
    refine List.mem_map.mpr ⟨record, List.mem_filterMap.mpr
      ⟨blockPlace records record.height.toNat, List.mem_range'_1.mpr ⟨by omega, visited⟩, ?_⟩, rfl⟩
    rw [lists.blockAtEq, found]
    exact Option.filter_eq_some_iff.mpr ⟨rfl, wanted⟩

/-- All heights are found once the block at the end of the range is. -/
theorem fullIff (lists : reader.Lists records) (ascending : Ascending limit records)
    (below : range.stop < limit) :
    (reader.firsts range count).length = range.size ↔
      blockPlace records range.stop < range.start + count := by
  have last : range.stop ∈ range := ⟨range.ordered, Nat.le_refl _⟩
  rw [firstsFull]
  constructor
  · intro all
    exact (lists.memBlocks ascending last below).mp (all range.stop last)
  · intro found height inside
    have lower := ((range.memIff height).mp inside).2
    rw [lists.memBlocks ascending inside (by omega)]
    rcases Nat.lt_or_eq_of_le lower with less | rfl
    · have before := ascending.placeLt less below
      omega
    · exact found

/-- The scan of a range that an intact log contains is complete if the block at the end of the range
stands within the bound, and comes to its bound otherwise. -/
theorem stopEq (lists : reader.Lists records) (ascending : Ascending limit records)
    (below : range.stop < limit) (small : records.length ≤ maxWord) {stop : ScanStop}
    {result : ScanResult} {handed : List Record}
    (told : reader.Reference range count stop result handed) :
    stop =
      if blockPlace records range.stop ≤ range.stop +
          max (range.size * reader.settings.recordsPerBlock.toNat) reader.settings.slackFloor.toNat
      then .complete else .boundExceeded := by
  have ordered := range.ordered
  have least := ascending.lePlace below
  have most := ascending.placeInside below
  have visited : ∀ before, count = before + 1 → range.start + before < records.length ∧
      range.start + before ≤ range.stop + max (range.size * reader.settings.recordsPerBlock.toNat)
        reader.settings.slackFloor.toNat := by
    rintro before rfl
    rw [← lists.entries]
    exact allowedOfGoesOn (told.goesOn before (Nat.lt_succ_self before))
  have within : range.start + count ≤ records.length := by
    cases count with
    | zero => omega
    | succ before => exact (visited before rfl).1
  have reason := told.stops
  rw [stopAfter?, lists.damagedCountEq within, if_neg (Nat.not_lt_zero _), lists.entries] at reason
  simp only [lists.fullIff ascending below] at reason
  by_cases found : blockPlace records range.stop < range.start + count
  · rw [if_pos found] at reason
    have allowed : blockPlace records range.stop ≤ range.stop +
        max (range.size * reader.settings.recordsPerBlock.toNat)
          reader.settings.slackFloor.toNat := by
      cases count with
      | zero => omega
      | succ before =>
          have bound := (visited before rfl).2
          omega
    rw [if_pos allowed]
    exact (Option.some.inj reason).symm
  · rw [if_neg found, if_neg (by omega)] at reason
    split at reason
    · rw [if_neg (by omega)]
      exact (Option.some.inj reason).symm
    · cases reason

end Lists

/-- The data of a log are the frames of its records. -/
theorem dataEq (layout : IndexLayout) (records : List Record) :
    (ofRecords layout records).data.toList =
      records.flatMap fun record => LogWriter.frame (Text.Utf8.encode record.encode) := by
  rw [ofRecordsEq, LogWriter.framesEq, List.flatMap_map]

/-- A log takes at least one byte for each record. -/
theorem lengthOfRecords (layout : IndexLayout) (records : List Record) :
    records.length ≤ (ofRecords layout records).data.size := by
  rw [← Array.length_toList, dataEq]
  induction records with
  | nil => exact Nat.zero_le _
  | cons record rest inductionHypothesis =>
      have positive := Length.writePositive (Text.Utf8.encode record.encode).length
      rw [List.length_cons, List.flatMap_cons, List.length_append, LogWriter.frame,
        List.length_append]
      omega

/-- A scan of a log that was written by appending ascending blocks and other records comes to what
the place of the block at the end of its range says. -/
theorem endingOfRecords (settings : LogSettings) (records : List Record) (limit : Nat)
    (range : HeightRange) (ascending : Ascending limit records)
    (short : ∀ record ∈ records,
      (Text.Utf8.encode record.encode).length ≤ settings.maxRecordBytes.toNat)
    (fits : (ofRecords settings.layout records).data.size ≤ maxSigned)
    (inside : range.stop < limit) {κ : Type} (consumer : Consumer κ) (takes : consumer.Takes)
    (state : κ) :
    ((ofLog settings (ofRecords settings.layout records)).scan consumer range state).1.ending =
      .stopped (if blockPlace records range.stop ≤ range.stop +
          max (range.size * settings.recordsPerBlock.toNat) settings.slackFloor.toNat
        then .complete else .boundExceeded) := by
  have indexed : (ofLog settings (ofRecords settings.layout records)).index = .file _ := rfl
  obtain ⟨count, stop, result, calls, told, runs⟩ := referenceOfFiles indexed rfl range
  obtain ⟨next, _, scanned⟩ := runs consumer takes state
  have small := Nat.le_trans (Nat.le_trans (lengthOfRecords _ _) fits) maxSignedLe
  have stops := (listsOfRecords settings records short fits).stopEq ascending inside small told
  rw [scanned, told.ending, stops]
  rfl

/-- A log with not more records for a block than expected serves a range if and only if the block at
the end of the range stands within the bound. -/
theorem denseServed (settings : LogSettings) (groups : List (List Record)) (range : HeightRange)
    (dense : DenseGroups settings.recordsPerBlock.toNat groups)
    (short : ∀ record ∈ groups.flatten,
      (Text.Utf8.encode record.encode).length ≤ settings.maxRecordBytes.toNat)
    (fits : (ofRecords settings.layout groups.flatten).data.size ≤ maxSigned)
    (inside : range.stop < groups.length) {κ : Type} (consumer : Consumer κ)
    (takes : consumer.Takes) (state : κ) :
    ((ofLog settings (ofRecords settings.layout groups.flatten)).scan consumer range
          state).1.ending =
        .stopped (if blockPlace groups.flatten range.stop ≤ range.stop +
            max (range.size * settings.recordsPerBlock.toNat) settings.slackFloor.toNat
          then .complete else .boundExceeded) ∧
      (range.start * settings.recordsPerBlock.toNat ≤ range.stop + 1 ∨
          (range.stop + 1) * (settings.recordsPerBlock.toNat - 1) ≤ settings.slackFloor.toNat →
        ((ofLog settings (ofRecords settings.layout groups.flatten)).scan consumer range
          state).1.ending = .stopped .complete) := by
  have ending := endingOfRecords settings groups.flatten groups.length range dense.ascending short
    fits inside consumer takes state
  refine ⟨ending, fun near => ?_⟩
  have place := dense.placeLt inside
  rw [ending, if_pos]
  generalize settings.recordsPerBlock.toNat = limit at place near
  rcases near with low | slack
  · have split : range.stop + 1 = range.start + range.size := by
      have ordered := range.ordered
      unfold HeightRange.size
      omega
    rw [split, Nat.add_mul] at place
    omega
  · have split : (range.stop + 1) * limit ≤
        (range.stop + 1) * (limit - 1) + (range.stop + 1) := by
      rw [← Nat.mul_succ]
      exact Nat.mul_le_mul_left _ (by omega)
    omega

/-- Settings that expect two records for a block and allow no other slack. -/
def tight : LogSettings :=
  { LogSettings.standard with slackFloor := 0, recordsPerBlock := 2 }

/-- The blocks of the first four heights, each with a transaction. -/
def drifting : List (List Record) :=
  (List.range 4).map fun height =>
    [.blank height, { Record.blank height with kind := .transaction }]

theorem driftingDense : DenseGroups tight.recordsPerBlock.toNat drifting :=
  ⟨by decide, by decide⟩

theorem driftingShort : ∀ record ∈ drifting.flatten,
    (Text.Utf8.encode record.encode).length ≤ tight.maxRecordBytes.toNat := by
  decide +kernel

theorem driftingFits : (ofRecords tight.layout drifting.flatten).data.size ≤ maxSigned := by
  rw [← Array.length_toList, dataEq]
  decide +kernel

/-- The block of height three stands at position six, and a scan for it alone ends before. -/
theorem driftingCutOff :
    1 ≤ tight.recordsPerBlock.toNat ∧ DenseGroups tight.recordsPerBlock.toNat drifting ∧
      (∀ record ∈ drifting.flatten,
        (Text.Utf8.encode record.encode).length ≤ tight.maxRecordBytes.toNat) ∧
      (ofRecords tight.layout drifting.flatten).data.size ≤ maxSigned ∧ 3 < drifting.length ∧
      ((ofLog tight (ofRecords tight.layout drifting.flatten)).scan .observer
        (.single 3) []).1.ending = .stopped .boundExceeded := by
  refine ⟨by decide, driftingDense, driftingShort, driftingFits, by decide, ?_⟩
  rw [endingOfRecords tight drifting.flatten drifting.length (.single 3) driftingDense.ascending
    driftingShort driftingFits (by decide) .observer (fun _ _ => rfl) [], if_neg (by decide)]

/-- A scan of the same log for all its heights is complete. -/
theorem driftingServed :
    DenseGroups tight.recordsPerBlock.toNat drifting ∧ 3 < drifting.length ∧
      ((ofLog tight (ofRecords tight.layout drifting.flatten)).scan .observer
        ⟨0, 3, by decide⟩ []).1.ending = .stopped .complete := by
  have served := denseServed tight drifting ⟨0, 3, by decide⟩ driftingDense driftingShort
    driftingFits (by decide) .observer (fun _ _ => rfl) []
  exact ⟨driftingDense, by decide, served.2 (.inl (by decide))⟩

end LogReader

end Backfill
