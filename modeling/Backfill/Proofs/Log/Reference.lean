/-
This file says what a scan of a log comes to without following it: which blocks stand at the
positions that it visits, which of them are the first ones of their heights, which entries are
damaged, and after how many positions it stops and why.
-/

import Backfill.Proofs.Acquisition.Shortfall

namespace Backfill.LogReader

/-- A log whose files have given contents, and had given lengths when they were opened. -/
def ofContents (settings : LogSettings) (index data : Array UInt8) (entries dataLength : Nat) :
    LogReader :=
  ⟨settings, .file index, .file data, entries, dataLength⟩

section Reference

variable (reader : LogReader) (range : HeightRange)

/-- Whether the entry at a position gives a height outside the range, so that it is passed over. -/
def isPassed (position : Nat) : Bool :=
  match reader.entry position with
  | .ok entry => entry.height.any fun height => !range.contains height
  | .error _ => false

/-- The block of the range at a position. -/
def blockAt? (position : Nat) : Option Record :=
  if reader.isPassed range position then none
  else (reader.read position).toOption.filter (isWanted range)

/-- Whether the entry at a position cannot be read. -/
def isDamagedAt (position : Nat) : Bool :=
  !reader.isPassed range position && !(reader.read position).toBool

/-- The blocks of the range at so many positions, the first of which is the start of the range. -/
def blocks (count : Nat) : List Record :=
  (List.range' range.start count).filterMap (reader.blockAt? range)

/-- The number of damaged entries at so many positions. -/
def damagedCount (count : Nat) : Nat :=
  (List.range' range.start count).countP (reader.isDamagedAt range)

/-- The block behind so many positions, if none of theirs has its height. -/
def firstAt? (count : Nat) : Option Record :=
  (reader.blockAt? range (range.start + count)).filter fun record =>
    record.height.toNat ∉ Record.heights (reader.blocks range count)

/-- The first blocks of their heights at so many positions, in the order of the log. -/
def firsts (count : Nat) : List Record :=
  (List.range count).filterMap (reader.firstAt? range)

/-- Why a scan stops after so many positions, if it does. -/
def stopAfter? (count : Nat) : Option ScanStop :=
  if reader.settings.maxDecodeErrors.toNat < reader.damagedCount range count then some .decodeLimit
  else if (reader.firsts range count).length = range.size then some .complete
  else if reader.entries ≤ range.start + count then some .endOfLog
  else if min (range.stop + max (range.size * reader.settings.recordsPerBlock.toNat)
      reader.settings.slackFloor.toNat) maxWord < range.start + count then some .boundExceeded
  else none

/-- A scan that handed on some records came to what its range and the log say: it stopped after the
least number of positions after which there is a reason to. -/
structure Reference (count : Nat) (stop : ScanStop) (result : ScanResult) (handed : List Record) :
    Prop where
  stops : reader.stopAfter? range count = some stop
  goesOn : ∀ earlier < count, reader.stopAfter? range earlier = none
  place : result.range = range
  ending : result.ending = .stopped stop
  visited : result.progress.visited = count
  damaged : result.progress.damaged = reader.damagedCount range count
  found : result.foundCount = handed.length
  duplicates : (reader.blocks range count).length = handed.length + result.progress.duplicates
  emitted : handed = reader.firsts range count
  complete : stop = .complete ↔ result.foundCount = range.size

end Reference

variable {reader : LogReader} {range : HeightRange}

@[simp] theorem blocksZero : reader.blocks range 0 = [] := rfl

@[simp] theorem firstsZero : reader.firsts range 0 = [] := rfl

@[simp] theorem damagedCountZero : reader.damagedCount range 0 = 0 := rfl

theorem blocksSucc (count : Nat) :
    reader.blocks range (count + 1) =
      reader.blocks range count ++ (reader.blockAt? range (range.start + count)).toList := by
  rw [blocks, List.range'_1_concat, List.filterMap_append, ← blocks, List.filterMap_cons]
  cases reader.blockAt? range (range.start + count) <;> rfl

theorem firstsSucc (count : Nat) :
    reader.firsts range (count + 1) =
      reader.firsts range count ++ (reader.firstAt? range count).toList := by
  rw [firsts, List.range_succ, List.filterMap_append, ← firsts, List.filterMap_cons]
  cases reader.firstAt? range count <;> rfl

theorem damagedCountSucc (count : Nat) :
    reader.damagedCount range (count + 1) =
      reader.damagedCount range count +
        if reader.isDamagedAt range (range.start + count) then 1 else 0 := by
  rw [damagedCount, List.range'_1_concat, List.countP_append, ← damagedCount, List.countP_singleton]

/-- A scan that does not stop has a position to go on to, and is allowed to. -/
theorem allowedOfGoesOn {count : Nat} (goesOn : reader.stopAfter? range count = none) :
    range.start + count < reader.entries ∧
      range.start + count ≤ range.stop + max (range.size * reader.settings.recordsPerBlock.toNat)
        reader.settings.slackFloor.toNat := by
  unfold stopAfter? at goesOn
  split at goesOn
  · cases goesOn
  · split at goesOn
    · cases goesOn
    · split at goesOn
      · cases goesOn
      · split at goesOn
        · cases goesOn
        · omega

theorem wantedOfBlockAt {position : Nat} {record : Record}
    (block : reader.blockAt? range position = some record) : isWanted range record = true := by
  unfold blockAt? at block
  split at block
  · cases block
  · exact (Option.filter_eq_some_iff.mp block).2

/-- A height has a first block among so many positions if and only if it has a block there. -/
theorem memFirsts (count height : Nat) :
    height ∈ Record.heights (reader.firsts range count) ↔
      height ∈ Record.heights (reader.blocks range count) := by
  induction count with
  | zero => rfl
  | succ count inductionHypothesis =>
      rw [firstsSucc, blocksSucc, Record.heightsAppend, Record.heightsAppend, List.mem_append,
        List.mem_append, inductionHypothesis, firstAt?]
      cases block : reader.blockAt? range (range.start + count) with
      | none => rfl
      | some record =>
          by_cases seen : record.height.toNat ∈ Record.heights (reader.blocks range count)
          · have known (same : height = record.height.toNat) :
                height ∈ Record.heights (reader.blocks range count) := same ▸ seen
            simpa [Option.filter_some, seen] using known
          · simp [Option.filter_some, seen]

/-- The first blocks are blocks of the range, each of another height. -/
theorem firstsDistinct (count : Nat) :
    (∀ record ∈ reader.firsts range count, isWanted range record = true) ∧
      (Record.heights (reader.firsts range count)).Nodup := by
  induction count with
  | zero => exact ⟨by simp, List.nodup_nil⟩
  | succ count inductionHypothesis =>
      obtain ⟨wanted, distinct⟩ := inductionHypothesis
      rw [firstsSucc]
      cases first : reader.firstAt? range count with
      | none => simpa using ⟨wanted, distinct⟩
      | some record =>
          obtain ⟨block, fresh⟩ := Option.filter_eq_some_iff.mp first
          rw [decide_eq_true_iff, ← memFirsts] at fresh
          constructor
          · intro other member
            rcases List.mem_append.mp member with before | same
            · exact wanted other before
            · obtain rfl := List.mem_singleton.mp same
              exact wantedOfBlockAt block
          · rw [Record.heightsAppend]
            refine List.nodup_append.mpr
              ⟨distinct, by simp, fun height before other member same => ?_⟩
            rw [same, List.mem_singleton.mp member] at before
            exact fresh before

/-- All heights of a range are found if and only if each of them has a block. -/
theorem firstsFull (count : Nat) :
    (reader.firsts range count).length = range.size ↔
      ∀ height ∈ range, height ∈ Record.heights (reader.blocks range count) := by
  have found : (∀ record ∈ reader.firsts range count, isWanted range record = true) ∧
      (Record.heights (reader.firsts range count)).Nodup := firstsDistinct count
  obtain ⟨wanted, distinct⟩ := found
  constructor
  · intro full height inside
    rw [← memFirsts, (permOfLength wanted distinct full).mem_iff, range.memHeights]
    exact inside
  · intro all
    have within : Record.heights (reader.firsts range count) ⊆ range.heights := by
      intro height member
      obtain ⟨record, listed, rfl⟩ := List.mem_map.mp member
      exact (range.memHeights _).mpr (heightOfWanted (wanted record listed)).2
    have covers : range.heights ⊆ Record.heights (reader.firsts range count) := by
      intro height member
      exact (memFirsts count height).mpr (all height ((range.memHeights height).mp member))
    have most := distinct.length_le_of_subset within
    have least := range.heightsNodup.length_le_of_subset covers
    rw [Record.lengthHeights, range.lengthHeights] at most least
    exact Nat.le_antisymm most least

end Backfill.LogReader
