/-
This file shows which calls a scan of a log makes: it hands on blocks of the log, at most one of
each height of the range, and says which heights the log lacked.
-/

import Backfill.Acquisition.Shortfall
import Backfill.Proofs.Acquisition.Calls
import Backfill.Proofs.Height.Windows
import Mathlib.Data.List.Perm.Subperm

namespace Backfill.LogReader

/-- The records that a scan hands on are blocks of the log, each at a height of the range that was
not found before it. -/
structure Finds (reader : LogReader) (range : HeightRange) (before after : HeightSet)
    (records : List Record) : Prop where
  wanted : ∀ record ∈ records, isWanted range record = true
  listed : ∀ record ∈ records, ∃ position, reader.read position = .ok record
  fresh : ∀ height ∈ Record.heights records, height ∉ before
  distinct : (Record.heights records).Nodup
  held : ∀ height, height ∈ after ↔ height ∈ before ∨ height ∈ Record.heights records
  size : after.size = before.size + records.length

theorem findsNothing (reader : LogReader) (range : HeightRange) (found : HeightSet) :
    reader.Finds range found found [] :=
  ⟨by simp, by simp, by simp, by simp, by simp, rfl⟩

/-- A scan that finds a block goes on with its height among those that were found. -/
theorem findsCons {reader : LogReader} {range : HeightRange} {before after : HeightSet}
    {record : Record} {records : List Record} {position : Nat}
    (wanted : isWanted range record = true) (read : reader.read position = .ok record)
    (fresh : record.height.toNat ∉ before)
    (rest : reader.Finds range (before.insert record.height.toNat) after records) :
    reader.Finds range before after (record :: records) := by
  have apart : ∀ height ∈ Record.heights records,
      height ≠ record.height.toNat ∧ height ∉ before := by
    intro height member
    have outside := rest.fresh height member
    rw [Std.ExtTreeSet.mem_insert, Std.compare_eq_iff_eq, not_or] at outside
    exact ⟨Ne.symm outside.1, outside.2⟩
  refine ⟨?_, ?_, ?_, ?_, ?_, ?_⟩
  · rintro next (_ | ⟨_, member⟩)
    · exact wanted
    · exact rest.wanted next member
  · rintro next (_ | ⟨_, member⟩)
    · exact ⟨position, read⟩
    · exact rest.listed next member
  · rintro height (_ | ⟨_, member⟩)
    · exact fresh
    · exact (apart height member).2
  · exact List.nodup_cons.mpr
      ⟨fun member => (apart _ member).1 rfl, rest.distinct⟩
  · intro height
    rw [rest.held, Std.ExtTreeSet.mem_insert, Std.compare_eq_iff_eq, Record.heightsCons,
      List.mem_cons, eq_comm]
    tauto
  · rw [rest.size, Std.ExtTreeSet.size_insert,
      if_neg (mt Std.ExtTreeSet.contains_iff_mem.mp fresh), List.length_cons]
    omega

/-- A record that a scan visits stands in the log. -/
theorem readOfVisit {reader : LogReader} {range : HeightRange} {position : Nat} {record : Record}
    (visited : reader.visit range position = .ok (some record)) :
    reader.read position = .ok record := by
  simp only [visit, bind, Except.bind, pure, Except.pure] at visited
  split at visited
  · cases visited
  · rename_i entry entered
    simp only [read, entered, bind, Except.bind]
    split at visited
    · split at visited
      · split at visited
        · cases visited
        · rename_i decoded
          rw [decoded, Option.some.inj (Except.ok.inj visited)]
      · cases visited
    · split at visited
      · cases visited
      · rename_i decoded
        rw [decoded, Option.some.inj (Except.ok.inj visited)]

/-- A result of a scan of which the consumer refused no record, and which is complete only with as
many heights as the range has. -/
structure Unrefused (range : HeightRange) (result : ScanResult) : Prop where
  place : result.range = range
  ending : ∀ cause, result.ending ≠ .refused cause
  complete : result.ending = .stopped .complete → result.progress.found.size = range.size

/-- A scan that goes on with given calls and result makes the calls to every consumer, up to the
first one that is refused. -/
def ScansTo (reader : LogReader) (range : HeightRange) (left : Nat) (progress : ScanProgress)
    (result : ScanResult) (calls : List Call) : Prop :=
  ∀ {κ : Type} (consumer : Consumer κ) (state : κ),
    match consumer.follow calls state with
    | (.ok (), next) => reader.scanFrom consumer range left progress state = (result, next)
    | (.error cause, next) => ∃ reached,
        reader.scanFrom consumer range left progress state =
          (⟨range, reached, .refused cause⟩, next)

/-- A scan that goes on with given calls and result hands on what it finds. -/
structure Performs (reader : LogReader) (range : HeightRange) (left : Nat) (progress : ScanProgress)
    (result : ScanResult) (calls : List Call) : Prop where
  scans : reader.ScansTo range left progress result calls
  unrefused : Unrefused range result
  finds : reader.Finds range progress.found result.progress.found (Call.records calls)

section Steps

variable {reader : LogReader} {range : HeightRange} {left : Nat} {progress next : ScanProgress}
  {result : ScanResult} {calls : List Call}

/-- A scan that stops at once makes no call. -/
theorem performsStop (stop : ScanStop)
    (stops : ∀ {κ : Type} (consumer : Consumer κ) (state : κ),
      reader.scanFrom consumer range left progress state =
        (⟨range, progress, .stopped stop⟩, state))
    (complete : stop = .complete → progress.found.size = range.size) :
    reader.Performs range left progress ⟨range, progress, .stopped stop⟩ [] where
  scans := fun consumer state => stops consumer state
  unrefused := ⟨rfl, by simp, fun ending => complete (ScanEnd.stopped.inj ending)⟩
  finds := findsNothing _ _ _

/-- An entry of which at most notes are taken is passed over. -/
theorem performsPassing (rest : reader.Performs range left next result calls)
    (notes : List Activity) (kept : next.found = progress.found)
    (passes : ∀ {κ : Type} (consumer : Consumer κ) (state : κ),
      reader.scanFrom consumer range (left + 1) progress state =
        reader.scanFrom consumer range left next (consumer.noteAll notes state)) :
    reader.Performs range (left + 1) progress result (notes.map .note ++ calls) where
  scans := by
    intro κ consumer state
    rw [Consumer.followNotes, passes]
    exact rest.scans consumer _
  unrefused := rest.unrefused
  finds := by
    rw [Call.recordsAppend, Call.recordsMapNote, List.nil_append, ← kept]
    exact rest.finds

/-- After too much damage the scan stops, and takes note of the last of it. -/
theorem performsLimit (next : ScanProgress) (note : Activity) (kept : next.found = progress.found)
    (stops : ∀ {κ : Type} (consumer : Consumer κ) (state : κ),
      reader.scanFrom consumer range left progress state =
        (⟨range, next, .stopped .decodeLimit⟩, consumer.note note state)) :
    reader.Performs range left progress ⟨range, next, .stopped .decodeLimit⟩ [.note note] where
  scans := fun consumer state => stops consumer state
  unrefused := ⟨rfl, by simp, by simp⟩
  finds := kept ▸ findsNothing _ _ _

/-- A scan ends at an entry that cannot be read. -/
theorem performsUnreadable (next : ScanProgress) (fault : LogError)
    (kept : next.found = progress.found)
    (ends : ∀ {κ : Type} (consumer : Consumer κ) (state : κ),
      reader.scanFrom consumer range left progress state =
        (⟨range, next, .unreadable fault⟩, state)) :
    reader.Performs range left progress ⟨range, next, .unreadable fault⟩ [] where
  scans := fun consumer state => ends consumer state
  unrefused := ⟨rfl, by simp, by simp⟩
  finds := kept ▸ findsNothing _ _ _

section Entry

variable (incomplete : progress.found.size ≠ range.size)
  (within : ¬reader.settings.lastPosition range < range.start + progress.visited)
  (others : ∀ progress, ∃ result calls, reader.Performs range left progress result calls)

include incomplete within

/-- The first block of a height is handed on. -/
theorem performsFound {record : Record}
    (visited : reader.visit range (range.start + progress.visited) = .ok (some record))
    (wanted : isWanted range record = true)
    (known : ¬progress.found.contains record.height.toNat = true)
    (rest : reader.Performs range left
      { progress with
        visited := progress.visited + 1
        found := progress.found.insert record.height.toNat } result calls) :
    reader.Performs range (left + 1) progress result (.consume record :: calls) where
  scans := by
    intro κ consumer state
    simp only [scanFrom, incomplete, within, visited, wanted, known, if_false, Bool.not_true,
      Bool.false_eq_true, Consumer.follow, Consumer.make]
    cases consumer.consume record state with
    | mk taken next =>
        cases taken with
        | error cause => exact ⟨_, rfl⟩
        | ok => exact rest.scans consumer next
  unrefused := rest.unrefused
  finds := findsCons wanted (readOfVisit visited)
    (mt Std.ExtTreeSet.contains_iff_mem.mpr known) rest.finds

include others

/-- A record is handed on, passed over, or noted as a duplicate. -/
theorem recordPerforms {record : Record}
    (visited : reader.visit range (range.start + progress.visited) = .ok (some record)) :
    ∃ result calls, reader.Performs range (left + 1) progress result calls := by
  by_cases wanted : isWanted range record = true
  · by_cases known : progress.found.contains record.height.toNat = true
    · obtain ⟨result, calls, rest⟩ := others
        { progress with
          visited := progress.visited + 1
          duplicates := progress.duplicates + 1 }
      refine ⟨result, _, performsPassing rest
        [.event (duplicateEvent (range.start + progress.visited) record)] rfl ?_⟩
      intro κ consumer state
      simp only [scanFrom, incomplete, within, visited, wanted, known, if_false, Bool.not_true,
        Bool.false_eq_true, if_true]
      rfl
    · obtain ⟨result, calls, rest⟩ := others
        { progress with
          visited := progress.visited + 1
          found := progress.found.insert record.height.toNat }
      exact ⟨result, _, performsFound incomplete within visited wanted known rest⟩
  · obtain ⟨result, calls, rest⟩ := others { progress with visited := progress.visited + 1 }
    refine ⟨result, _, performsPassing rest [] rfl ?_⟩
    intro κ consumer state
    simp only [scanFrom, incomplete, within, visited, wanted, if_false, Bool.not_false, if_true]
    rfl

/-- Damage is noted and passed over up to a limit, and any other fault ends the scan. -/
theorem faultPerforms {fault : LogError}
    (visited : reader.visit range (range.start + progress.visited) = .error fault) :
    ∃ result calls, reader.Performs range (left + 1) progress result calls := by
  by_cases skippable : fault.isSkippable = true
  · by_cases limit : reader.settings.maxDecodeErrors.toNat < progress.damaged + 1
    · refine ⟨_, _, performsLimit
        { progress with
          visited := progress.visited + 1
          damaged := progress.damaged + 1 }
        (.event (damageEvent (range.start + progress.visited) fault)) rfl ?_⟩
      intro κ consumer state
      simp only [scanFrom, incomplete, within, visited, skippable, limit, if_false,
        Bool.not_true, Bool.false_eq_true, if_true]
      rfl
    · obtain ⟨result, calls, rest⟩ := others
        { progress with
          visited := progress.visited + 1
          damaged := progress.damaged + 1 }
      refine ⟨result, _, performsPassing rest
        [.event (damageEvent (range.start + progress.visited) fault)] rfl ?_⟩
      intro κ consumer state
      simp only [scanFrom, incomplete, within, visited, skippable, limit, if_false,
        Bool.not_true, Bool.false_eq_true]
      rfl
  · refine ⟨_, _, performsUnreadable { progress with visited := progress.visited + 1 } fault rfl
      ?_⟩
    intro κ consumer state
    simp only [scanFrom, incomplete, within, visited, skippable, if_false, Bool.not_false, if_true]

end Entry

end Steps

/-- A scan makes the same calls to every consumer, and hands on what it finds. -/
theorem scanFromPerforms (reader : LogReader) (range : HeightRange) (left : Nat)
    (progress : ScanProgress) :
    ∃ result calls, reader.Performs range left progress result calls := by
  induction left generalizing progress with
  | zero =>
      by_cases complete : progress.found.size = range.size
      · exact ⟨_, _, performsStop .complete (fun _ _ => by simp [scanFrom, complete])
          fun _ => complete⟩
      · exact ⟨_, _, performsStop .endOfLog (fun _ _ => by simp [scanFrom, complete]) (by simp)⟩
  | succ left inductionHypothesis =>
      by_cases complete : progress.found.size = range.size
      · exact ⟨_, _, performsStop .complete (fun _ _ => by simp [scanFrom, complete])
          fun _ => complete⟩
      by_cases beyond : reader.settings.lastPosition range < range.start + progress.visited
      · exact ⟨_, _, performsStop .boundExceeded
          (fun _ _ => by simp [scanFrom, complete, beyond]) (by simp)⟩
      cases visited : reader.visit range (range.start + progress.visited) with
      | error fault => exact faultPerforms complete beyond inductionHypothesis visited
      | ok visit =>
          cases visit with
          | some record => exact recordPerforms complete beyond inductionHypothesis visited
          | none =>
              obtain ⟨result, calls, rest⟩ :=
                inductionHypothesis { progress with visited := progress.visited + 1 }
              refine ⟨result, _, performsPassing rest [] rfl ?_⟩
              intro κ consumer state
              simp only [scanFrom, complete, beyond, visited, if_false]
              rfl

/-- The records that a log supplies of a range, with what the scan came to and the heights that are
left to another source. -/
structure Supplies (reader : LogReader) (range : HeightRange) (answer : Acquired × List Nat)
    (records : List Record) : Prop where
  wanted : ∀ record ∈ records, isWanted range record = true
  listed : ∀ record ∈ records, ∃ position, reader.read position = .ok record
  distinct : (Record.heights records).Nodup
  whole : ∀ count, answer.1 = .emitted count →
    answer.2 = [] ∧ count = range.size ∧ (Record.heights records).Perm range.heights
  short : answer.2 ≠ [] →
    (∃ error, answer.1 = .failed error) ∧
      answer.2 = range.heights.filter fun height => height ∉ Record.heights records

theorem heightOfWanted {range : HeightRange} {record : Record}
    (wanted : isWanted range record = true) :
    record.isBlock = true ∧ record.height.toNat ∈ range := by
  simpa [isWanted, HeightRange.containsIff] using wanted

/-- As many different heights as a range has are the heights of the range. -/
theorem permOfLength {range : HeightRange} {records : List Record}
    (wanted : ∀ record ∈ records, isWanted range record = true)
    (distinct : (Record.heights records).Nodup) (full : records.length = range.size) :
    (Record.heights records).Perm range.heights := by
  refine (List.subperm_of_subset distinct ?_).perm_of_length_le ?_
  · intro height member
    obtain ⟨record, inside, rfl⟩ := List.mem_map.mp member
    exact (range.memHeights _).mpr (heightOfWanted (wanted record inside)).2
  · exact Nat.le_of_eq (by rw [range.lengthHeights, Record.lengthHeights, full])

/-- A scan found the heights of the records that it handed on. -/
theorem containsOfFinds {reader : LogReader} {range : HeightRange} {found : HeightSet}
    {records : List Record} (finds : reader.Finds range ∅ found records) (height : Nat) :
    found.contains height = true ↔ height ∈ Record.heights records := by
  rw [Std.ExtTreeSet.contains_iff_mem, finds.held]
  simp

/-- The heights that a scan leaves to another source are those of which it handed on no record. -/
theorem unresolvedOfFinds {reader : LogReader} {range : HeightRange} {result : ScanResult}
    {records : List Record} (place : result.range = range)
    (finds : reader.Finds range ∅ result.progress.found records) :
    result.unresolved = range.heights.filter fun height => height ∉ Record.heights records := by
  rw [ScanResult.unresolved, place]
  refine List.filter_congr fun height _ => ?_
  rw [Bool.eq_iff_iff, Bool.not_eq_true', decide_eq_true_iff, ← Bool.not_eq_true,
    containsOfFinds finds]

/-- What a scan of a whole range comes to is told by what it found. -/
theorem suppliesOfFinds {reader : LogReader} {range : HeightRange} {result : ScanResult}
    {records : List Record} (unrefused : Unrefused range result)
    (finds : reader.Finds range ∅ result.progress.found records) :
    reader.Supplies range result.close records := by
  have size : result.progress.found.size = records.length := by
    rw [finds.size, Std.ExtTreeSet.size_empty, Nat.zero_add]
  have lacking := unresolvedOfFinds unrefused.place finds
  refine ⟨finds.wanted, finds.listed, finds.distinct, ?_, ?_⟩
  · intro count emitted
    unfold ScanResult.close at emitted ⊢
    split at emitted <;> cases emitted
    rename_i complete
    have full := unrefused.complete complete
    exact ⟨by simp, full, permOfLength finds.wanted finds.distinct (size ▸ full)⟩
  · intro some
    unfold ScanResult.close at some ⊢
    split at some <;> first | exact absurd rfl some | exact ⟨⟨_, rfl⟩, lacking⟩

/-- A log is acquired with the calls of its scan, and the notes that are taken after it. -/
theorem acquireOfScans {κ : Type} {reader : LogReader} {range : HeightRange} {result : ScanResult}
    {calls : List Call} (notes : List Activity)
    (scans : reader.ScansTo range (reader.entries - range.start) .blank result calls)
    (consumer : Consumer κ) (state : κ)
    (closes : ∀ next, reader.scanFrom consumer range (reader.entries - range.start) .blank state =
        (result, next) →
      reader.acquire consumer range state = (result.close, consumer.noteAll notes next)) :
    reader.acquire consumer range state =
      consumer.perform (fun cause => (.ended cause, [])) result.close (calls ++ notes.map .note)
        state := by
  have scanned := scans consumer state
  rw [Consumer.performAppend]
  cases followed : consumer.follow calls state with
  | mk taken next =>
      rw [followed] at scanned
      cases taken with
      | ok =>
          dsimp only
          rw [closes next scanned, Consumer.performNotesOnly]
      | error cause =>
          obtain ⟨reached, scanned⟩ := scanned
          simp only [acquire, scan, scanned]
          rfl

/-- A log makes the same calls to every consumer. -/
theorem acquirePerforms (reader : LogReader) (range : HeightRange) :
    ∃ answer calls,
      (∀ {κ : Type} (consumer : Consumer κ) (state : κ),
        reader.acquire consumer range state =
          consumer.perform (fun cause => (.ended cause, [])) answer calls state) ∧
      reader.Supplies range answer (Call.records calls) := by
  obtain ⟨result, calls, scans, unrefused, finds⟩ :=
    reader.scanFromPerforms range (reader.entries - range.start) .blank
  have supplies (notes : List Activity) :
      reader.Supplies range result.close (Call.records (calls ++ notes.map .note)) := by
    simpa using suppliesOfFinds unrefused finds
  cases ending : result.ending with
  | stopped stop =>
      refine ⟨result.close, _, fun consumer state => ?_,
        supplies [.event (scanEvent range result.progress stop)]⟩
      refine acquireOfScans _ scans consumer state fun next scanned => ?_
      simp only [acquire, scan, scanned, ending]
      rfl
  | unreadable fault =>
      refine ⟨result.close, _, fun consumer state => ?_, supplies []⟩
      refine acquireOfScans _ scans consumer state fun next scanned => ?_
      simp only [acquire, scan, scanned, ending]
      rfl
  | refused cause => exact absurd ending (unrefused.ending cause)

end Backfill.LogReader
