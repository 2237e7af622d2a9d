/-
This file says what a scan of a log asks for, which is nothing, and what it reports when the log
ends or its bound is reached before all heights are found: exactly the heights that it did not hand
on.
-/

import Backfill.Proofs.Acquisition.Deeds
import Backfill.Proofs.Acquisition.Scan
import Backfill.Proofs.Height.Sorted

namespace Backfill.LogReader

variable {reader : LogReader} {range : HeightRange}

/-- A scan asks for no height. -/
theorem scanFromAsks (left : Nat) (progress : ScanProgress) (before : List Deed) :
    Deed.heights (reader.scanFrom .observer range left progress before).2 =
      Deed.heights before := by
  fun_induction reader.scanFrom .observer range left progress before
  case case7 taken inductionHypothesis =>
    obtain ⟨_, rfl⟩ := Prod.mk.inj taken
    rw [inductionHypothesis]
    simp [Deed.height?]
  all_goals simp_all +zetaDelta

/-- A scan that came to the end of the log or to its bound has not found all heights. -/
theorem scanFromShort {κ : Type} (consumer : Consumer κ) (left : Nat) (progress : ScanProgress)
    (state : κ)
    (short : (reader.scanFrom consumer range left progress state).1.ending =
        .stopped .endOfLog ∨
      (reader.scanFrom consumer range left progress state).1.ending = .stopped .boundExceeded) :
    (reader.scanFrom consumer range left progress state).1.progress.found.size ≠ range.size := by
  fun_induction reader.scanFrom consumer range left progress state <;> simp_all

variable (reader : LogReader) (range : HeightRange)

/-- What a scan of a range comes to if no record is refused. -/
def outcome : ScanResult :=
  (reader.scan .observer range []).1

/-- The records that a scan of a range hands on, in the order of the log. -/
def supplied : List Record :=
  Deed.records (reader.scan .observer range []).2

/-- The heights of a range of which a scan hands on no record, ascending. -/
def lacking : List Nat :=
  range.heights.filter fun height => height ∉ Record.heights (reader.supplied range)

theorem lackingAscend : (reader.lacking range).Pairwise (· < ·) :=
  range.heightsAscend.filter _

/-- The parts that a scan lacks have just the heights that it lacks. -/
theorem collapseLacking :
    (collapse (reader.lacking range)).flatMap HeightRange.heights = reader.lacking range := by
  rw [collapseHeights, sortedHeightsOfAscending (reader.lackingAscend range)]

/-- An observer sees what a scan comes to, but not the event at the end. -/
theorem scanObserved :
    reader.scan .observer range [] =
      reader.scanFrom .observer range (reader.entries - range.start) .blank [] := by
  unfold scan
  dsimp only
  split <;> simp

theorem outcomeFinds : Unrefused range (reader.outcome range) ∧
    reader.Finds range ∅ (reader.outcome range).progress.found (reader.supplied range) := by
  obtain ⟨result, calls, scans, unrefused, finds⟩ :=
    reader.scanFromPerforms range (reader.entries - range.start) .blank
  have observed := scans Consumer.observer []
  rw [Consumer.followObserver, List.nil_append] at observed
  rw [outcome, supplied, scanObserved, observed, Call.recordsOfDeeds]
  exact ⟨unrefused, finds⟩

/-- A log makes the same calls to every consumer and asks for no height. -/
theorem acquireOutcome : ∃ calls,
    (∀ {κ : Type} (consumer : Consumer κ) (state : κ),
      reader.acquire consumer range state =
        consumer.perform (fun cause => (.ended cause, [])) (reader.outcome range).close calls
          state) ∧
      Call.records calls = reader.supplied range ∧ Deed.heights (Call.deeds calls) = [] := by
  obtain ⟨answer, calls, same, _⟩ := reader.acquirePerforms range
  have observed : ((reader.outcome range).close, (reader.scan .observer range []).2) =
      (answer, Call.deeds calls) := by
    have seen := same Consumer.observer []
    rwa [Consumer.performObserver, List.nil_append] at seen
  obtain ⟨rfl, deeds⟩ := Prod.mk.inj observed
  refine ⟨calls, same, ?_, ?_⟩
  · rw [supplied, deeds, Call.recordsOfDeeds]
  · rw [← deeds, scanObserved, scanFromAsks]
    rfl

/-- The first heights that were not found are the first ones of all that were not. -/
theorem absentFromEq (found : HeightSet) (stop steps limit height : Nat)
    (enough : limit + (List.range' height (stop + 1 - height)).countP found.contains ≤ steps) :
    ScanResult.absentFrom found stop steps limit height =
      ((List.range' height (stop + 1 - height)).filter fun place =>
        !found.contains place).take limit := by
  induction steps generalizing limit height with
  | zero =>
      obtain rfl : limit = 0 := by omega
      rfl
  | succ steps inductionHypothesis =>
      cases limit with
      | zero => rfl
      | succ limit =>
          by_cases beyond : stop < height
          · have none : stop + 1 - height = 0 := by omega
            simp [ScanResult.absentFrom, beyond, none]
          · have first : stop + 1 - height = (stop + 1 - (height + 1)) + 1 := by omega
            rw [first, List.range'_succ] at enough ⊢
            by_cases known : found.contains height = true
            · rw [List.countP_cons_of_pos known] at enough
              rw [ScanResult.absentFrom, if_neg beyond, if_pos known,
                inductionHypothesis _ _ (by omega), List.filter_cons_of_neg (by simp [known])]
            · rw [List.countP_cons_of_neg known] at enough
              rw [ScanResult.absentFrom, if_neg beyond, if_neg known,
                inductionHypothesis _ _ (by omega), List.filter_cons_of_pos (by simp [known]),
                List.take_succ_cons]

theorem unresolvedOutcome : (reader.outcome range).unresolved = reader.lacking range :=
  unresolvedOfFinds (reader.outcomeFinds range).1.place (reader.outcomeFinds range).2

/-- A scan finds as many heights as it hands on records. -/
theorem foundOutcome : (reader.outcome range).foundCount = (reader.supplied range).length := by
  rw [ScanResult.foundCount, (reader.outcomeFinds range).2.size, Std.ExtTreeSet.size_empty,
    Nat.zero_add]

/-- The heights that a scan supplied and those that it lacked make up the range. -/
theorem lengthLacking :
    (reader.supplied range).length + (reader.lacking range).length = range.size := by
  have finds := (reader.outcomeFinds range).2
  have perm := HeightRange.permOfShort finds.distinct fun height member => by
    obtain ⟨record, inside, rfl⟩ := List.mem_map.mp member
    exact (heightOfWanted (finds.wanted record inside)).2
  have lengths := perm.length_eq
  rwa [List.length_append, Record.lengthHeights, range.lengthHeights] at lengths

theorem missingCountOutcome :
    (reader.outcome range).missingCount = (reader.lacking range).length := by
  have lengths := reader.lengthLacking range
  rw [ScanResult.missingCount, foundOutcome, (reader.outcomeFinds range).1.place]
  omega

/-- The missing heights that a scan lists are the first ones that it lacked. -/
theorem missingOutcome (limit : Nat) :
    (reader.outcome range).missing limit = (reader.lacking range).take limit := by
  have place := (reader.outcomeFinds range).1.place
  have heights : List.range' range.start (range.stop + 1 - range.start) = range.heights := by
    rw [HeightRange.heights, HeightRange.size, Nat.succ_sub range.ordered]
  have lacking : (range.heights.filter fun height =>
      !(reader.outcome range).progress.found.contains height) = reader.lacking range := by
    rw [← unresolvedOutcome, ScanResult.unresolved, place]
  have others : range.heights.countP (fun height =>
      decide ¬(reader.outcome range).progress.found.contains height = true) =
        (reader.lacking range).length := by
    rw [List.countP_eq_length_filter, ← lacking]
    simp only [decide_not, Bool.decide_eq_true]
  have counted := @List.length_eq_countP_add_countP _ (reader.outcome range).progress.found.contains
    range.heights
  rw [others, range.lengthHeights] at counted
  have lengths := reader.lengthLacking range
  rw [ScanResult.missing, place, absentFromEq, heights, lacking]
  rw [heights, foundOutcome]
  omega

variable {reader range}

/-- A log that came to its end, or a scan that came to its bound, leaves some heights to another
source and lists the first ones. -/
theorem closeOfShort
    (short : (reader.outcome range).ending = .stopped .endOfLog ∨
      (reader.outcome range).ending = .stopped .boundExceeded) :
    reader.lacking range ≠ [] ∧
      (reader.outcome range).close =
        (.failed ⟨range, .missing ((reader.lacking range).take listedHeights)
          (reader.lacking range).length⟩, reader.lacking range) := by
  refine ⟨fun none => ?_, ?_⟩
  · have lengths := reader.lengthLacking range
    rw [none, List.length_nil, ← foundOutcome] at lengths
    rw [outcome, scanObserved] at short lengths
    exact scanFromShort _ _ _ _ short lengths
  · rw [ScanResult.close]
    rcases short with short | short <;>
      simp only [short, (reader.outcomeFinds range).1.place, missingCountOutcome, missingOutcome,
        unresolvedOutcome]

end Backfill.LogReader
