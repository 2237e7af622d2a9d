/-
This file follows a scan of a log and shows that it comes to what its range and the log say,
position by position and up to the reason for which it stops.
-/

import Backfill.Log.Writer
import Backfill.Proofs.Log.Reference

namespace Backfill

/-- A consumer takes every record that it is handed. -/
def Consumer.Takes {κ : Type} (consumer : Consumer κ) : Prop :=
  ∀ record state, (consumer.consume record state).1 = .ok ()

/-- An error is damage to the entry at a position: the entry is truncated, or it cannot be decoded. -/
def LogError.IsDamage (error : LogError) (position : Nat) : Prop :=
  (∃ cause, error = .truncated position cause) ∨ ∃ cause, error = .undecodable position cause

theorem LogError.skippableOfDamage {error : LogError} {position : Nat}
    (damage : error.IsDamage position) : error.isSkippable = true := by
  rcases damage with ⟨cause, rfl⟩ | ⟨cause, rfl⟩ <;> rfl

namespace LogReader

variable {reader : LogReader} {range : HeightRange}

/-- The last position of a scan, with the saturation done once. -/
theorem lastPositionEq (settings : LogSettings) (range : HeightRange) :
    settings.lastPosition range =
      min (range.stop + max (range.size * settings.recordsPerBlock.toNat) settings.slackFloor.toNat)
        maxWord := by
  have small := wordLe settings.slackFloor
  rw [LogSettings.lastPosition, LogSettings.scanBound]
  generalize range.size * settings.recordsPerBlock.toNat = bound
  omega

/-- What a scan sees at a position. -/
theorem visitEq (range : HeightRange) (position : Nat) :
    reader.visit range position =
      if reader.isPassed range position then .ok none else (reader.read position).map some := by
  unfold visit isPassed read
  cases reader.entry position with
  | error cause => rfl
  | ok entry =>
      obtain ⟨offset, length, height⟩ := entry
      simp only [bind, Except.bind]
      cases height with
      | none => cases reader.recordAt position ⟨offset, length, none⟩ <;> rfl
      | some height =>
          cases inside : range.contains height with
          | true =>
              cases reader.recordAt position ⟨offset, length, some height⟩ <;> simp [inside] <;> rfl
          | false =>
              simp only [inside, Option.any_some, Bool.not_false, if_true]
              rfl

/-- A position whose entry is not read has neither a block nor damage. -/
theorem sightOfPassed {position : Nat} (visited : reader.visit range position = .ok none) :
    reader.blockAt? range position = none ∧ reader.isDamagedAt range position = false := by
  rw [visitEq] at visited
  split at visited
  · rename_i passed
    simp [blockAt?, isDamagedAt, passed]
  · cases read : reader.read position <;> simp [read, Except.map] at visited

theorem sightOfRecord {position : Nat} {record : Record}
    (visited : reader.visit range position = .ok (some record)) :
    reader.blockAt? range position = (if isWanted range record then some record else none) ∧
      reader.isDamagedAt range position = false := by
  rw [visitEq] at visited
  split at visited
  · cases visited
  · rename_i passed
    cases read : reader.read position with
    | error cause => simp [read, Except.map] at visited
    | ok found =>
        obtain rfl : found = record := by simpa [read, Except.map] using visited
        simp [blockAt?, isDamagedAt, passed, read, Except.toOption, Except.toBool,
          Option.filter_some]

theorem sightOfError {position : Nat} {cause : LogError}
    (visited : reader.visit range position = .error cause) :
    reader.blockAt? range position = none ∧ reader.isDamagedAt range position = true := by
  rw [visitEq] at visited
  split at visited
  · cases visited
  · rename_i passed
    cases read : reader.read position with
    | ok found => simp [read, Except.map] at visited
    | error fault => simp [blockAt?, isDamagedAt, passed, read, Except.toOption, Except.toBool]

/-- An entry of an index that is a file is missing only behind the last one, or it is cut off. -/
theorem damageOfEntry {index : Array UInt8} (indexed : reader.index = .file index)
    {position : Nat} (inside : position < reader.entries) {cause : LogError}
    (failed : reader.entry position = .error cause) : cause.IsDamage position := by
  unfold entry at failed
  rw [if_neg (Nat.not_le.mpr inside), indexed] at failed
  dsimp only at failed
  split at failed <;> cases failed
  exact .inl ⟨_, rfl⟩

/-- A payload that cannot be read from a file is cut off, or its length is wrong. -/
theorem damageOfPayload {data : Array UInt8} (stored : reader.data = .file data)
    {position : Nat} {entry : IndexEntry} {cause : LogError}
    (failed : reader.payload position entry = .error cause) : cause.IsDamage position := by
  unfold payload payloadAt at failed
  rw [stored] at failed
  dsimp only at failed
  repeat' split at failed
  all_goals cases failed
  all_goals first | exact .inl ⟨_, rfl⟩ | exact .inr ⟨_, rfl⟩

theorem damageOfRecord {data : Array UInt8} (stored : reader.data = .file data)
    {position : Nat} {entry : IndexEntry} {cause : LogError}
    (failed : reader.recordAt position entry = .error cause) : cause.IsDamage position := by
  unfold recordAt at failed
  cases read : reader.payload position entry with
  | error fault =>
      rw [read] at failed
      cases failed
      exact damageOfPayload stored read
  | ok bytes =>
      simp only [read, bind, Except.bind] at failed
      split at failed <;> cases failed
      exact .inr ⟨_, rfl⟩

/-- What cannot be read of files at the position of an entry is damage to that entry. -/
theorem damageOfRead {index data : Array UInt8} (indexed : reader.index = .file index)
    (stored : reader.data = .file data) {position : Nat} (inside : position < reader.entries)
    {cause : LogError} (failed : reader.read position = .error cause) :
    cause.IsDamage position := by
  unfold LogReader.read at failed
  cases entered : reader.entry position with
  | error other =>
      rw [entered] at failed
      cases failed
      exact damageOfEntry indexed inside entered
  | ok entry =>
      rw [entered] at failed
      exact damageOfRecord stored failed

/-- What a scan cannot read of files is damage to a single entry. -/
theorem skippableOfFiles {index data : Array UInt8} (indexed : reader.index = .file index)
    (stored : reader.data = .file data) {position : Nat} (inside : position < reader.entries)
    {cause : LogError} (visited : reader.visit range position = .error cause) :
    cause.isSkippable = true := by
  rw [visitEq] at visited
  split at visited
  · cases visited
  · cases read : reader.read position with
    | ok found => simp [read, Except.map] at visited
    | error fault =>
        obtain rfl : fault = cause := by simpa [read, Except.map] using visited
        exact LogError.skippableOfDamage (damageOfRead indexed stored inside read)

/-- A scan that has handed on some records has done what its range and the log say. -/
structure Tells (reader : LogReader) (range : HeightRange) (progress : ScanProgress)
    (handed : List Record) : Prop where
  damaged : progress.damaged = reader.damagedCount range progress.visited
  emitted : handed = reader.firsts range progress.visited
  held : ∀ height, height ∈ progress.found ↔
    height ∈ Record.heights (reader.blocks range progress.visited)
  size : progress.found.size = handed.length
  duplicates : (reader.blocks range progress.visited).length = handed.length + progress.duplicates

theorem tellsBlank : reader.Tells range .blank [] where
  damaged := rfl
  emitted := rfl
  held := by simp [ScanProgress.blank]
  size := rfl
  duplicates := rfl

namespace Tells

variable {progress : ScanProgress} {handed : List Record}

/-- A position without a block changes no more than its damage. -/
theorem afterNothing (tells : reader.Tells range progress handed)
    (none : reader.blockAt? range (range.start + progress.visited) = none) :
    reader.Tells range
      { progress with
        visited := progress.visited + 1
        damaged := progress.damaged +
          if reader.isDamagedAt range (range.start + progress.visited) then 1 else 0 }
      handed where
  damaged := by rw [damagedCountSucc, tells.damaged]
  emitted := by simp [firstsSucc, firstAt?, none, ← tells.emitted]
  held := by simpa [blocksSucc, none] using tells.held
  size := tells.size
  duplicates := by simpa [blocksSucc, none] using tells.duplicates

/-- A block whose height was found is a duplicate. -/
theorem afterDuplicate (tells : reader.Tells range progress handed) {record : Record}
    (block : reader.blockAt? range (range.start + progress.visited) = some record)
    (intact : reader.isDamagedAt range (range.start + progress.visited) = false)
    (known : record.height.toNat ∈ progress.found) :
    reader.Tells range
      { progress with
        visited := progress.visited + 1
        duplicates := progress.duplicates + 1 }
      handed where
  damaged := by simp [damagedCountSucc, intact, tells.damaged]
  emitted := by
    have seen := (tells.held _).mp known
    simp [firstsSucc, firstAt?, block, seen, ← tells.emitted]
  held := fun height => by
    simp only [blocksSucc, block, Option.toList_some, Record.heightsAppend, Record.heightsCons,
      Record.heightsNil, List.mem_append, List.mem_singleton, tells.held]
    refine ⟨.inl, ?_⟩
    rintro (before | rfl)
    · exact before
    · exact (tells.held _).mp known
  size := tells.size
  duplicates := by
    simp only [blocksSucc, block, Option.toList_some, List.length_append, List.length_singleton,
      tells.duplicates]
    omega

/-- A block whose height was not found is handed on. -/
theorem afterBlock (tells : reader.Tells range progress handed) {record : Record}
    (block : reader.blockAt? range (range.start + progress.visited) = some record)
    (intact : reader.isDamagedAt range (range.start + progress.visited) = false)
    (fresh : record.height.toNat ∉ progress.found) :
    reader.Tells range
      { progress with
        visited := progress.visited + 1
        found := progress.found.insert record.height.toNat }
      (handed ++ [record]) where
  damaged := by simp [damagedCountSucc, intact, tells.damaged]
  emitted := by
    have unseen := mt (tells.held _).mpr fresh
    simp [firstsSucc, firstAt?, block, Option.filter_some, unseen, ← tells.emitted]
  held := fun height => by
    simp only [blocksSucc, block, Option.toList_some, Record.heightsAppend, Record.heightsCons,
      Record.heightsNil, List.mem_append, List.mem_singleton, ← tells.held,
      Std.ExtTreeSet.mem_insert, Std.compare_eq_iff_eq]
    tauto
  size := by
    rw [Std.ExtTreeSet.size_insert, if_neg (mt Std.ExtTreeSet.contains_iff_mem.mp fresh),
      tells.size, List.length_append, List.length_singleton]
  duplicates := by
    simp only [blocksSucc, block, Option.toList_some, List.length_append, List.length_singleton,
      tells.duplicates]
    omega

end Tells

/-- A scan that is not over has done so far what its range and the log say, and had no reason to
stop before. -/
structure Going (reader : LogReader) (range : HeightRange) (left : Nat) (progress : ScanProgress)
    (handed : List Record) : Prop where
  rest : left = reader.entries - (range.start + progress.visited)
  tells : reader.Tells range progress handed
  bearable : progress.damaged ≤ reader.settings.maxDecodeErrors.toNat
  goesOn : ∀ earlier < progress.visited, reader.stopAfter? range earlier = none

namespace Going

variable {left : Nat} {progress : ScanProgress} {handed : List Record}

/-- The reason to stop where no more entries are damaged than may be. -/
theorem stopAfterEq (going : reader.Going range left progress handed) :
    reader.stopAfter? range progress.visited =
      if progress.found.size = range.size then some .complete
      else if left = 0 then some .endOfLog
      else if reader.settings.lastPosition range < range.start + progress.visited then
        some .boundExceeded
      else none := by
  have ended : left = 0 ↔ reader.entries ≤ range.start + progress.visited := by
    rw [going.rest]
    omega
  have bearable : ¬reader.settings.maxDecodeErrors.toNat <
      reader.damagedCount range progress.visited := by
    rw [← going.tells.damaged]
    exact Nat.not_lt.mpr going.bearable
  rw [stopAfter?, if_neg bearable, ← going.tells.emitted, ← going.tells.size, lastPositionEq]
  simp only [ended]

/-- Where a scan goes on there is no reason to stop. -/
theorem goesOnHere (going : reader.Going range (left + 1) progress handed)
    (incomplete : progress.found.size ≠ range.size)
    (allowed : ¬reader.settings.lastPosition range < range.start + progress.visited) :
    ∀ earlier < progress.visited + 1, reader.stopAfter? range earlier = none := by
  intro earlier less
  rcases Nat.lt_succ_iff_lt_or_eq.mp less with before | rfl
  · exact going.goesOn earlier before
  · rw [going.stopAfterEq, if_neg incomplete, if_neg (Nat.succ_ne_zero left), if_neg allowed]

/-- A scan goes on to the next position. -/
theorem onward (going : reader.Going range (left + 1) progress handed)
    (incomplete : progress.found.size ≠ range.size)
    (allowed : ¬reader.settings.lastPosition range < range.start + progress.visited)
    {next : ScanProgress} {more : List Record} (visited : next.visited = progress.visited + 1)
    (tells : reader.Tells range next more)
    (bearable : next.damaged ≤ reader.settings.maxDecodeErrors.toNat) :
    reader.Going range left next more where
  rest := by
    have rest := going.rest
    omega
  tells := tells
  bearable := bearable
  goesOn := visited ▸ going.goesOnHere incomplete allowed

end Going

section Steps

variable {left : Nat} {progress : ScanProgress} {handed : List Record}
  (going : reader.Going range (left + 1) progress handed)
  (incomplete : progress.found.size ≠ range.size)
  (allowed : ¬reader.settings.lastPosition range < range.start + progress.visited)

include going incomplete allowed

/-- A scan goes on behind an entry that is not read. -/
theorem goingPassed (visited : reader.visit range (range.start + progress.visited) = .ok none) :
    reader.Going range left { progress with visited := progress.visited + 1 } handed := by
  obtain ⟨none, intact⟩ := sightOfPassed visited
  have tells := going.tells.afterNothing none
  rw [intact] at tells
  exact going.onward incomplete allowed rfl tells going.bearable

/-- A scan goes on behind a record that is not a block of its range. -/
theorem goingOther {record : Record}
    (visited : reader.visit range (range.start + progress.visited) = .ok (some record))
    (other : isWanted range record = false) :
    reader.Going range left { progress with visited := progress.visited + 1 } handed := by
  obtain ⟨block, intact⟩ := sightOfRecord visited
  rw [if_neg (by simp [other])] at block
  have tells := going.tells.afterNothing block
  rw [intact] at tells
  exact going.onward incomplete allowed rfl tells going.bearable

/-- A scan counts a block whose height was found, and goes on. -/
theorem goingDuplicate {record : Record}
    (visited : reader.visit range (range.start + progress.visited) = .ok (some record))
    (wanted : isWanted range record = true) (known : record.height.toNat ∈ progress.found) :
    reader.Going range left
      { progress with
        visited := progress.visited + 1
        duplicates := progress.duplicates + 1 } handed := by
  obtain ⟨block, intact⟩ := sightOfRecord visited
  rw [if_pos wanted] at block
  exact going.onward incomplete allowed rfl (going.tells.afterDuplicate block intact known)
    going.bearable

/-- A scan hands on a block whose height was not found, and goes on. -/
theorem goingBlock {record : Record}
    (visited : reader.visit range (range.start + progress.visited) = .ok (some record))
    (wanted : isWanted range record = true) (fresh : record.height.toNat ∉ progress.found) :
    reader.Going range left
      { progress with
        visited := progress.visited + 1
        found := progress.found.insert record.height.toNat } (handed ++ [record]) := by
  obtain ⟨block, intact⟩ := sightOfRecord visited
  rw [if_pos wanted] at block
  exact going.onward incomplete allowed rfl (going.tells.afterBlock block intact fresh)
    going.bearable

omit incomplete allowed in
/-- A scan counts a damaged entry. -/
theorem tellsDamaged {cause : LogError}
    (visited : reader.visit range (range.start + progress.visited) = .error cause) :
    reader.Tells range
      { progress with
        visited := progress.visited + 1
        damaged := progress.damaged + 1 } handed := by
  obtain ⟨none, damaged⟩ := sightOfError visited
  have tells := going.tells.afterNothing none
  rwa [damaged, if_pos rfl] at tells

/-- A scan goes on behind a damaged entry while no more are damaged than may be. -/
theorem goingDamaged {cause : LogError}
    (visited : reader.visit range (range.start + progress.visited) = .error cause)
    (bearable : ¬reader.settings.maxDecodeErrors.toNat < progress.damaged + 1) :
    reader.Going range left
      { progress with
        visited := progress.visited + 1
        damaged := progress.damaged + 1 } handed :=
  going.onward incomplete allowed rfl (tellsDamaged going visited) (Nat.not_lt.mp bearable)

end Steps

/-- What a scan comes to that an observer follows. -/
structure Stops (reader : LogReader) (range : HeightRange) (answer : ScanResult × List Deed) : Prop
    where
  place : answer.1.range = range
  tells : reader.Tells range answer.1.progress (Deed.records answer.2)
  reason : ∃ stop, answer.1.ending = .stopped stop ∧
    reader.stopAfter? range answer.1.progress.visited = some stop ∧
      (stop = .complete ↔ answer.1.progress.found.size = range.size)
  goesOn : ∀ earlier < answer.1.progress.visited, reader.stopAfter? range earlier = none

@[simp] theorem recordsHanded (before : List Deed) (record : Record) :
    Deed.records (before ++ [.handed record]) = Deed.records before ++ [record] :=
  List.filterMap_append

@[simp] theorem recordsLog (before : List Deed) (event : Event) :
    Deed.records (Consumer.observer.log event before) = Deed.records before :=
  congrArg Deed.records (List.append_nil before)

section Ends

variable {left : Nat} {progress : ScanProgress} {before : List Deed}

/-- A scan that has a reason to stop at once has come to what its range and the log say. -/
theorem stopsAtOnce (going : reader.Going range left progress (Deed.records before))
    {stop : ScanStop} (reason : reader.stopAfter? range progress.visited = some stop)
    (complete : stop = .complete ↔ progress.found.size = range.size) :
    reader.Stops range (⟨range, progress, .stopped stop⟩, before) where
  place := rfl
  tells := going.tells
  reason := ⟨stop, rfl, reason, complete⟩
  goesOn := going.goesOn

/-- A scan in which more entries are damaged than may be has a reason to stop. -/
theorem stopsAtLimit (going : reader.Going range (left + 1) progress (Deed.records before))
    (incomplete : progress.found.size ≠ range.size)
    (allowed : ¬reader.settings.lastPosition range < range.start + progress.visited)
    {cause : LogError} (event : Event)
    (visited : reader.visit range (range.start + progress.visited) = .error cause)
    (limit : reader.settings.maxDecodeErrors.toNat < progress.damaged + 1) :
    reader.Stops range
      (⟨range, { progress with
        visited := progress.visited + 1
        damaged := progress.damaged + 1 }, .stopped .decodeLimit⟩,
        Consumer.observer.log event before) := by
  have tells := tellsDamaged going visited
  refine ⟨rfl, by rwa [recordsLog], ⟨_, rfl, ?_, by simp [incomplete]⟩,
    going.goesOnHere incomplete allowed⟩
  rw [stopAfter?, if_pos (tells.damaged ▸ limit)]

end Ends

/-- A scan of files that has done so far what its range and the log say does so to its end. -/
theorem scanFromStops {index data : Array UInt8} (indexed : reader.index = .file index)
    (stored : reader.data = .file data) (left : Nat) (progress : ScanProgress) (before : List Deed)
    (going : reader.Going range left progress (Deed.records before)) :
    reader.Stops range (reader.scanFrom .observer range left progress before) := by
  fun_induction reader.scanFrom .observer range left progress before with
  | case1 left progress before complete =>
      refine stopsAtOnce going ?_ (by simp [complete])
      rw [going.stopAfterEq, if_pos complete]
  | case2 progress before incomplete =>
      refine stopsAtOnce going ?_ (by simp [incomplete])
      rw [going.stopAfterEq, if_neg incomplete, if_pos rfl]
  | case3 progress before incomplete left position beyond =>
      refine stopsAtOnce going ?_ (by simp [incomplete])
      rw [going.stopAfterEq, if_neg incomplete, if_neg (Nat.succ_ne_zero left), if_pos beyond]
  | case4 progress before incomplete left position allowed next visited inductionHypothesis =>
      exact inductionHypothesis (goingPassed going incomplete allowed visited)
  | case5 progress before incomplete left position allowed next record visited other
      inductionHypothesis =>
      exact inductionHypothesis
        (goingOther going incomplete allowed visited (by simpa using other))
  | case6 progress before incomplete left position allowed next record visited height wanted known
      inductionHypothesis =>
      refine inductionHypothesis ?_
      rw [recordsLog]
      exact goingDuplicate going incomplete allowed visited (by simpa using wanted)
        (Std.ExtTreeSet.contains_iff_mem.mp known)
  | case7 progress before incomplete left position allowed next record visited height wanted fresh
      more state taken inductionHypothesis =>
      obtain ⟨_, rfl⟩ := Prod.mk.inj taken
      refine inductionHypothesis ?_
      rw [recordsHanded]
      exact goingBlock going incomplete allowed visited (by simpa using wanted)
        (mt Std.ExtTreeSet.contains_iff_mem.mpr fresh)
  | case8 progress before incomplete left position allowed next record visited height wanted fresh
      more cause state taken => cases taken
  | case9 progress before incomplete left position allowed next cause visited fatal =>
      have inside : position < reader.entries := by
        have rest := going.rest
        omega
      rw [skippableOfFiles indexed stored inside visited] at fatal
      cases fatal
  | case10 progress before incomplete left position allowed next cause visited skippable more state
      limit => exact stopsAtLimit going incomplete allowed _ visited limit
  | case11 progress before incomplete left position allowed next cause visited skippable more state
      bearable inductionHypothesis =>
      refine inductionHypothesis ?_
      rw [recordsLog]
      exact goingDamaged going incomplete allowed visited bearable

/-- A scan whose records are all taken is not ended by one. -/
theorem scanFromTaken {κ : Type} {consumer : Consumer κ} (takes : consumer.Takes) (left : Nat)
    (progress : ScanProgress) (state : κ) (cause : RunError) :
    (reader.scanFrom consumer range left progress state).1.ending ≠ .refused cause := by
  fun_induction reader.scanFrom consumer range left progress state
  case case8 taken =>
    have fine := congrArg Prod.fst taken
    rw [takes] at fine
    cases fine
  all_goals simp_all

/-- A scan of files comes to what its range and the log say, and makes the same calls to every
consumer that takes all records. -/
theorem referenceOfFiles {index data : Array UInt8} (indexed : reader.index = .file index)
    (stored : reader.data = .file data) (range : HeightRange) :
    ∃ count stop result calls,
      reader.Reference range count stop result (Call.records calls) ∧
        ∀ {κ : Type} (consumer : Consumer κ), consumer.Takes → ∀ state, ∃ next,
          consumer.follow calls state = (.ok (), next) ∧
            reader.scan consumer range state =
              (result, consumer.log (scanEvent range result.progress stop) next) := by
  obtain ⟨result, calls, scans, _, _⟩ :=
    reader.scanFromPerforms range (reader.entries - range.start) .blank
  have observed := scans Consumer.observer []
  rw [Consumer.followObserver, List.nil_append] at observed
  have start : reader.Going range (reader.entries - range.start) .blank (Deed.records []) :=
    ⟨rfl, tellsBlank, Nat.zero_le _, fun _ less => absurd less (Nat.not_lt_zero _)⟩
  have stops := scanFromStops indexed stored _ _ _ start
  rw [observed] at stops
  obtain ⟨place, tells, ⟨stop, ending, reason, complete⟩, goesOn⟩ := stops
  rw [Call.recordsOfDeeds] at tells
  have ended : result.ending = .stopped stop := ending
  refine ⟨result.progress.visited, stop, result, calls, ?_, ?_⟩
  · exact {
      stops := reason
      goesOn := goesOn
      place := place
      ending := ending
      visited := rfl
      damaged := tells.damaged
      found := tells.size
      duplicates := tells.duplicates
      emitted := tells.emitted
      complete := complete }
  · intro κ consumer takes state
    have scanned := scans consumer state
    cases followed : consumer.follow calls state with
    | mk taken next =>
        rw [followed] at scanned
        cases taken with
        | ok =>
            refine ⟨next, rfl, ?_⟩
            simp only [scan, scanned, ended]
        | error cause =>
            obtain ⟨reached, scanned⟩ := scanned
            have taken : (reader.scanFrom consumer range (reader.entries - range.start) .blank
                state).1.ending ≠ .refused cause := scanFromTaken takes _ _ _ _
            exact absurd (by rw [scanned]) taken

/-- A scan of a log, whatever stands in its files and whatever their lengths were when they were
opened, comes to what its range and the log say. -/
theorem scanReference (settings : LogSettings) (index data : Array UInt8) (entries dataLength : Nat)
    (range : HeightRange) :
    ∃ count stop result calls,
      (ofContents settings index data entries dataLength).Reference range count stop result
          (Call.records calls) ∧
        ∀ {κ : Type} (consumer : Consumer κ), consumer.Takes → ∀ state, ∃ next,
          consumer.follow calls state = (.ok (), next) ∧
            (ofContents settings index data entries dataLength).scan consumer range state =
              (result, consumer.log (scanEvent range result.progress stop) next) :=
  referenceOfFiles rfl rfl range

/-- The files of a log with a block of height one, the same block again, an entry that cannot be
decoded, and a block of height zero. -/
def mixedFiles : LogWriter :=
  let block (height : String) :=
    Text.Utf8.encode ("[[\"block\"],\"upsert\",\"\",\"\",null,\"\"," ++ height ++ "]")
  [block "1", block "1", [], block "0"].foldl (fun log payload => log.appendRaw payload 0)
    (LogWriter.empty .offsets)

/-- A scan of that log hands on the first block of either height, and counts the other one and the
damaged entry. -/
theorem scanReferenceMixed :
    let range : HeightRange := ⟨0, 1, Nat.zero_le 1⟩
    let reader := ofContents .standard mixedFiles.index mixedFiles.data 4 mixedFiles.data.size
    Consumer.observer.Takes ∧
      ∃ result calls, reader.Reference range 4 .complete result (Call.records calls) ∧
        Record.heights (Call.records calls) = [1, 0] ∧ result.progress.damaged = 1 ∧
          result.progress.duplicates = 1 := by
  intro range reader
  have takes : Consumer.observer.Takes := fun _ _ => rfl
  obtain ⟨count, stop, result, calls, told, runs⟩ :=
    scanReference .standard mixedFiles.index mixedFiles.data 4 mixedFiles.data.size range
  obtain ⟨next, followed, scanned⟩ := runs Consumer.observer takes []
  rw [Consumer.followObserver, List.nil_append] at followed
  obtain rfl := (Prod.mk.inj followed).2
  have seen :
      let scan := reader.scan .observer range []
      (scan.1.ending, scan.1.progress.visited, scan.1.progress.damaged, scan.1.progress.duplicates,
        Record.heights (Deed.records scan.2)) = (.stopped .complete, 4, 1, 1, [1, 0]) := by
    decide +kernel
  rw [show reader.scan .observer range [] = _ from scanned] at seen
  simp only [recordsLog, Call.recordsOfDeeds, Prod.mk.injEq, told.ending, told.visited,
    ScanEnd.stopped.injEq] at seen
  obtain ⟨rfl, rfl, damaged, duplicates, heights⟩ := seen
  exact ⟨takes, result, calls, told, heights, damaged, duplicates⟩

end LogReader

end Backfill
