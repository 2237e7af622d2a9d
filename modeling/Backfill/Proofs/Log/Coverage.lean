/-
This file shows that the coverage of a log is exact: each entry counts as a block, another record or
a damaged one, the heights and gaps are those of the blocks, and a machine whose sums and
differences have to fit its words comes to the same numbers.
-/

import Backfill.Log.Coverage
import Backfill.Proofs.Height.Complement
import Backfill.Proofs.Log.Machine
import Mathlib.Data.Set.Card
import Mathlib.Order.Bounds.Basic

namespace Backfill

/-- An entry of a log is a block of some height, another record, or damaged. -/
inductive EntryKind
  | block (height : UInt64)
  | other
  | damaged
deriving DecidableEq, Repr

/-- The height of a block. -/
def EntryKind.height? : EntryKind → Option UInt64
  | .block height => some height
  | _ => none

/-- The kind of an entry, by what is read of it. -/
def EntryKind.of : Except LogError Record → EntryKind
  | .ok record => if record.isBlock then .block record.height else .other
  | .error _ => .damaged

/-- The heights of the blocks among some entries. -/
def blockWords (kinds : List EntryKind) : List UInt64 :=
  kinds.filterMap EntryKind.height?

/-- The kinds of the entries of a log, in their order. -/
def LogReader.kinds (reader : LogReader) : List EntryKind :=
  (List.range reader.entries).map fun position => .of (reader.read position)

/-- The heights of the blocks of a log. -/
def LogReader.blockHeights (reader : LogReader) : Set Nat :=
  {height | ∃ word, .block word ∈ reader.kinds ∧ word.toNat = height}

section Counts

variable {word : UInt64} {kinds : List EntryKind}

theorem memBlockWords : word ∈ blockWords kinds ↔ .block word ∈ kinds := by
  rw [blockWords, List.mem_filterMap]
  constructor
  · rintro ⟨kind, member, found⟩
    cases kind with
    | block height =>
        obtain rfl := Option.some.inj found
        exact member
    | other => cases found
    | damaged => cases found
  · exact fun member => ⟨.block word, member, rfl⟩

@[simp] theorem blockWordsNil : blockWords [] = [] := rfl

@[simp] theorem blockWordsCons (kind : EntryKind) (rest : List EntryKind) :
    blockWords (kind :: rest) = kind.height?.toList ++ blockWords rest := by
  cases kind <;> rfl

/-- Every entry has one of the three kinds. -/
theorem lengthOfKinds (kinds : List EntryKind) :
    (blockWords kinds).length + kinds.count .other + kinds.count .damaged = kinds.length := by
  induction kinds with
  | nil => rfl
  | cons kind rest inductionHypothesis =>
      rw [blockWordsCons, List.length_append]
      cases kind <;>
        simp only [EntryKind.height?, Option.toList_some, Option.toList_none, List.length_cons,
          List.length_nil, List.count_cons, beq_iff_eq, reduceCtorEq, if_true, if_false] <;>
          omega

/-- A tally with further entries. -/
def LogTally.with (tally : LogTally) (kinds : List EntryKind) : LogTally where
  heights := ((blockWords kinds).map UInt64.toNat).reverse ++ tally.heights
  others := tally.others + kinds.count .other
  damaged := tally.damaged + kinds.count .damaged

theorem LogTally.withCons (tally : LogTally) (kind : EntryKind) (rest : List EntryKind) :
    tally.with (kind :: rest) = (tally.with [kind]).with rest := by
  cases kind <;>
    simp [LogTally.with, EntryKind.height?, Nat.add_comm, Nat.add_left_comm]

end Counts

namespace LogReader

variable {reader : LogReader} {index data : Array UInt8}

section Files

variable (indexed : reader.index = .file index) (stored : reader.data = .file data)

include indexed stored

/-- The tally takes each entry in as its kind. -/
theorem tallyEntryKind (tally : LogTally) {position : Nat} (inside : position < reader.entries) :
    ∃ events, reader.tallyEntry tally position =
      .ok (tally.with [.of (reader.read position)], events) := by
  unfold tallyEntry
  cases read : reader.read position with
  | ok record =>
      dsimp only
      cases block : record.isBlock with
      | true => exact ⟨[], by simp [EntryKind.of, block, LogTally.with, EntryKind.height?]⟩
      | false => exact ⟨[], by simp [EntryKind.of, block, LogTally.with, EntryKind.height?]⟩
  | error cause =>
      have damage := damageOfRead indexed stored inside read
      dsimp only
      rw [if_pos (LogError.skippableOfDamage damage)]
      exact ⟨_, rfl⟩

/-- The tally of a run of entries. -/
theorem tallyFromKinds (left position : Nat) (within : position + left ≤ reader.entries)
    (tally : LogTally) (events : List Event) :
    (reader.tallyFrom left position tally events).1 =
      .ok (tally.with ((List.range' position left).map fun place => .of (reader.read place))) := by
  induction left generalizing position tally events with
  | zero => rfl
  | succ left inductionHypothesis =>
      obtain ⟨more, tallied⟩ := tallyEntryKind indexed stored tally
        (show position < reader.entries by omega)
      rw [List.range'_succ, List.map_cons, LogTally.withCons, tallyFrom, tallied]
      exact inductionHypothesis (position + 1) (by omega) _ _

/-- The coverage of a log of files is the one of the kinds of its entries. -/
theorem coverageOfKinds :
    reader.coverage.1 = .ok (.ofTally reader.entries (LogTally.blank.with reader.kinds)) := by
  have tallied := tallyFromKinds indexed stored reader.entries 0 (by omega) .blank []
  rw [← List.range_eq_range', ← kinds] at tallied
  unfold coverage
  simp only [tallied, Except.map]

end Files

end LogReader

section Heights

variable {listed : List Nat} {lowest highest height : Nat}

/-- The lowest of some heights is the first of them in order. -/
theorem headOfSorted : (sortedHeights listed).head? = some lowest ↔
    IsLeast {height | height ∈ listed} lowest := by
  have ascending := sortedHeightsAscend listed
  constructor
  · intro first
    obtain ⟨rest, sorted⟩ := List.head?_eq_some_iff.mp first
    have present := (memSortedHeights listed lowest).mp (sorted ▸ List.mem_cons_self)
    refine ⟨present, fun other member => ?_⟩
    rw [sorted] at ascending
    exact headLe ascending (sorted ▸ (memSortedHeights listed other).mpr member)
  · rintro ⟨member, least⟩
    cases sorted : sortedHeights listed with
    | nil =>
        rw [Set.mem_ofPred_eq, ← memSortedHeights, sorted] at member
        cases member
    | cons first rest =>
        rw [sorted] at ascending
        have above : first ≤ lowest :=
          headLe ascending (sorted ▸ (memSortedHeights listed lowest).mpr member)
        have below : lowest ≤ first :=
          least ((memSortedHeights listed first).mp (sorted ▸ List.mem_cons_self))
        rw [List.head?_cons, Nat.le_antisymm above below]

/-- The highest of some heights is the last of them in order. -/
theorem lastOfSorted : (sortedHeights listed).getLast? = some highest ↔
    IsGreatest {height | height ∈ listed} highest := by
  have ascending := sortedHeightsAscend listed
  have greatest {last : Nat} (ends : (sortedHeights listed).getLast? = some last) :
      IsGreatest {height | height ∈ listed} last := by
    obtain ⟨before, sorted⟩ := List.getLast?_eq_some_iff.mp ends
    refine ⟨(memSortedHeights listed last).mp (by simp [sorted]), fun other member => ?_⟩
    have inside := (memSortedHeights listed other).mpr member
    rw [sorted] at ascending inside
    rcases List.mem_append.mp inside with early | final
    · exact Nat.le_of_lt ((List.pairwise_append.mp ascending).2.2 other early last
        (List.mem_singleton.mpr rfl))
    · exact Nat.le_of_eq (List.mem_singleton.mp final)
  refine ⟨greatest, fun top => ?_⟩
  cases ends : (sortedHeights listed).getLast? with
  | none =>
      have member : highest ∈ listed := top.1
      rw [← memSortedHeights, List.getLast?_eq_none_iff.mp ends] at member
      cases member
  | some last => rw [(greatest ends).unique top]

/-- A height is missing if it lies between the lowest and the highest of some heights and is none of
them. -/
theorem coversOfSorted :
    Covers (gapsOfHeights false (sortedHeights listed)) height ↔
      (∃ lowest ∈ (sortedHeights listed).head?, lowest < height) ∧
        (∃ highest ∈ (sortedHeights listed).getLast?, height < highest) ∧ height ∉ listed := by
  have ascending := sortedHeightsAscend listed
  rw [coversGapsOfHeights false ascending, MissingFrom, memSortedHeights]
  constructor
  · rintro ⟨absent, ⟨above, aboveMem, under⟩, origin⟩
    obtain ⟨below, belowMem, beyond⟩ := origin.resolve_left (by decide)
    have some := List.ne_nil_of_mem aboveMem
    refine ⟨⟨(sortedHeights listed).head some, List.head?_eq_some_head some, ?_⟩,
      ⟨(sortedHeights listed).getLast some, List.getLast?_eq_some_getLast some, ?_⟩, absent⟩
    · have least := (headOfSorted.mp (List.head?_eq_some_head some)).2
      exact Nat.lt_of_le_of_lt (least ((memSortedHeights _ _).mp belowMem)) beyond
    · have greatest := (lastOfSorted.mp (List.getLast?_eq_some_getLast some)).2
      exact Nat.lt_of_lt_of_le under (greatest ((memSortedHeights _ _).mp aboveMem))
  · rintro ⟨⟨below, first, beyond⟩, ⟨above, last, under⟩, absent⟩
    exact ⟨absent, ⟨above, List.mem_of_getLast? last, under⟩,
      .inr ⟨below, List.mem_of_head? first, beyond⟩⟩

/-- The missing heights and the others are as many as there are from the lowest height to the
highest. -/
theorem totalOfSorted (first : (sortedHeights listed).head? = some lowest)
    (last : (sortedHeights listed).getLast? = some highest) :
    lowest ≤ highest ∧
      totalSize (gapsOfHeights false (sortedHeights listed)) + (sortedHeights listed).length =
        highest - lowest + 1 := by
  have ascending := sortedHeightsAscend listed
  obtain ⟨lowestMem, least⟩ := headOfSorted.mp first
  obtain ⟨highestMem, greatest⟩ := lastOfSorted.mp last
  have ordered : lowest ≤ highest := least highestMem
  have minimum : (sortedHeights listed).min? = some lowest :=
    List.min?_eq_some_iff.mpr ⟨(memSortedHeights _ _).mpr lowestMem,
      fun other member => least ((memSortedHeights _ _).mp member)⟩
  have maximum : (sortedHeights listed).max? = some highest :=
    List.max?_eq_some_iff.mpr ⟨(memSortedHeights _ _).mpr highestMem,
      fun other member => greatest ((memSortedHeights _ _).mp member)⟩
  have number := totalGaps false (ascending.imp Nat.le_of_lt) minimum maximum
  rw [sortedHeightsOfAscending ascending] at number
  refine ⟨ordered, number.trans ?_⟩
  simp only [Bool.false_eq_true, if_false]
  omega

end Heights

/-- The coverage of a log in words. -/
structure WordCoverage where
  entries : UInt64
  blocks : UInt64
  others : UInt64
  damaged : UInt64
  distinct : UInt64
  duplicates : UInt64
  lowest : Option UInt64
  highest : Option UInt64
  gaps : List WordRange
  missing : UInt64
deriving DecidableEq, Repr

/-- The words of a coverage are the numbers of another one. -/
structure WordCoverage.Holds (words : WordCoverage) (coverage : LogCoverage) : Prop where
  entries : words.entries.toNat = coverage.entries
  blocks : words.blocks.toNat = coverage.blocks
  others : words.others.toNat = coverage.others
  damaged : words.damaged.toNat = coverage.damaged
  distinct : words.distinct.toNat = coverage.distinct
  duplicates : words.duplicates.toNat = coverage.duplicates
  lowest : words.lowest.map UInt64.toNat = coverage.lowest
  highest : words.highest.map UInt64.toNat = coverage.highest
  gaps : WordRange.Hold words.gaps coverage.gaps
  missing : words.missing.toNat = coverage.missing

/-- The tally of a machine counts the blocks apart from their heights. -/
structure WordTally where
  heights : List UInt64
  blocks : UInt64
  others : UInt64
  damaged : UInt64
deriving DecidableEq, Repr

namespace Machine

/-- The tally with one more entry, of which damage alone may be passed over. -/
def tallyEntry (tally : WordTally) :
    Except LogError Record → Except MachineFault (Except LogError WordTally)
  | .ok record =>
      if record.isBlock then do
        let blocks ← plus tally.blocks 1
        return .ok { tally with heights := record.height :: tally.heights, blocks }
      else do
        let others ← plus tally.others 1
        return .ok { tally with others }
  | .error cause =>
      if cause.isSkippable then do
        let damaged ← plus tally.damaged 1
        return .ok { tally with damaged }
      else .ok (.error cause)

/-- The tally of the entries from the one at `position` on, of which there are `left`. -/
def tallyFrom (reader : LogReader) :
    Nat → Nat → WordTally → Except MachineFault (Except LogError WordTally)
  | 0, _, tally => .ok (.ok tally)
  | left + 1, position, tally => do
      match ← tallyEntry tally (reader.read position) with
      | .ok tally => tallyFrom reader left (position + 1) tally
      | .error cause => return .error cause

/-- The coverage of a whole log. -/
def coverage (reader : LogReader) : Except MachineFault (Except LogError WordCoverage) := do
  let entries ← counted reader.entries
  match ← tallyFrom reader reader.entries 0 ⟨[], 0, 0, 0⟩ with
  | .error cause => return .error cause
  | .ok tally =>
      let heights := dropRepeats (tally.heights.mergeSort (· ≤ ·))
      let distinct ← counted heights.length
      let duplicates ← minus (← counted tally.heights.length) distinct
      let gaps ← WordRange.gaps false heights
      let missing ← WordRange.total gaps 0
      return .ok {
        entries
        blocks := tally.blocks
        others := tally.others
        damaged := tally.damaged
        distinct
        duplicates
        lowest := heights.head?
        highest := heights.getLast?
        gaps
        missing }

/-- The words of a tally are the numbers of another one. -/
structure Tallies (words : WordTally) (tally : LogTally) : Prop where
  heights : words.heights.map UInt64.toNat = tally.heights
  blocks : words.blocks.toNat = tally.heights.length
  others : words.others.toNat = tally.others
  damaged : words.damaged.toNat = tally.damaged

section Runs

variable {words : WordTally} {tally : LogTally}

/-- The machine takes an entry in, as long as a word can count it. -/
theorem tallyEntryOk (tallies : Tallies words tally) {read : Except LogError Record}
    (skippable : ∀ cause, read = .error cause → cause.isSkippable = true)
    (room : tally.heights.length + tally.others + tally.damaged < maxWord) :
    ∃ next, tallyEntry words read = .ok (.ok next) ∧ Tallies next (tally.with [.of read]) := by
  obtain ⟨heights, blocks, others, damaged⟩ := tallies
  cases read with
  | ok record =>
      rw [tallyEntry]
      cases block : record.isBlock with
      | true =>
          obtain ⟨count, added, value⟩ := succOk (show words.blocks.toNat < maxWord by omega)
          refine ⟨{ words with heights := record.height :: words.heights, blocks := count }, ?_, ?_⟩
          · rw [if_pos rfl, added]
            rfl
          · simp only [EntryKind.of, block, if_true]
            exact ⟨congrArg (record.height.toNat :: ·) heights, by rw [value, blocks]; rfl, others,
              damaged⟩
      | false =>
          obtain ⟨count, added, value⟩ := succOk (show words.others.toNat < maxWord by omega)
          refine ⟨{ words with others := count }, ?_, ?_⟩
          · rw [if_neg (by decide), added]
            rfl
          · simp only [EntryKind.of, block, Bool.false_eq_true, if_false]
            exact ⟨heights, blocks, by rw [value, others]; rfl, damaged⟩
  | error cause =>
      obtain ⟨count, added, value⟩ := succOk (show words.damaged.toNat < maxWord by omega)
      refine ⟨{ words with damaged := count }, ?_, heights, blocks, others, ?_⟩
      · rw [tallyEntry, if_pos (skippable cause rfl), added]
        rfl
      · rw [value, damaged]
        rfl

variable {reader : LogReader} {index data : Array UInt8}
  (indexed : reader.index = .file index) (stored : reader.data = .file data)

include indexed stored

/-- The machine tallies a run of entries, as long as a word can count them. -/
theorem tallyFromOk (left position : Nat) (within : position + left ≤ reader.entries)
    (tallies : Tallies words tally)
    (room : tally.heights.length + tally.others + tally.damaged + left ≤ maxWord) :
    ∃ next, tallyFrom reader left position words = .ok (.ok next) ∧
      Tallies next
        (tally.with ((List.range' position left).map fun place => .of (reader.read place))) := by
  induction left generalizing position words tally with
  | zero => exact ⟨words, rfl, tallies⟩
  | succ left inductionHypothesis =>
      have skippable : ∀ cause, reader.read position = .error cause → cause.isSkippable = true :=
        fun cause failed => LogError.skippableOfDamage
          (LogReader.damageOfRead indexed stored (by omega) failed)
      obtain ⟨next, taken, talliesNext⟩ := tallyEntryOk tallies skippable (by omega)
      have counts := lengthOfKinds [.of (reader.read position)]
      obtain ⟨last, followed, talliesLast⟩ :=
        inductionHypothesis (position + 1) (by omega) talliesNext (by
          simp only [LogTally.with, List.length_append, List.length_reverse, List.length_map,
            List.length_singleton] at counts ⊢
          omega)
      refine ⟨last, ?_, ?_⟩
      · rw [tallyFrom, taken]
        exact followed
      · rw [List.range'_succ, List.map_cons, LogTally.withCons]
        exact talliesLast

end Runs

end Machine

section Sizes

variable {listed : List Nat}

/-- Sorting keeps no more heights than there are. -/
theorem lengthSortedHeights (listed : List Nat) : (sortedHeights listed).length ≤ listed.length :=
  (List.subperm_of_subset ((sortedHeightsAscend listed).imp Nat.ne_of_lt) fun height =>
    (memSortedHeights listed height).mp).length_le

/-- The missing heights between words are fewer than the words, since the lowest is not missing. -/
theorem totalFits (words : ∀ height ∈ listed, height ≤ maxWord) :
    totalSize (gapsOfHeights false (sortedHeights listed)) ≤ maxWord := by
  by_cases none : sortedHeights listed = []
  · rw [none]
    exact Nat.zero_le _
  · have first := List.head?_eq_some_head none
    have last := List.getLast?_eq_some_getLast none
    obtain ⟨_, total⟩ := totalOfSorted first last
    have present := List.length_pos_of_ne_nil none
    have fits := words _ (lastOfSorted.mp last).1
    omega

end Sizes

/-- A coverage tells exactly what a log covers, each entry under one count and each missing height
in one gap. -/
structure LogCoverage.Exact (coverage : LogCoverage) (reader : LogReader) : Prop where
  entries : coverage.entries = reader.entries
  sum : coverage.entries = coverage.blocks + coverage.others + coverage.damaged
  others : coverage.others = reader.kinds.count .other
  damaged : coverage.damaged = reader.kinds.count .damaged
  repeats : coverage.distinct + coverage.duplicates = coverage.blocks
  distinct : coverage.distinct = reader.blockHeights.ncard
  lowest : ∀ lowest, coverage.lowest = some lowest ↔ IsLeast reader.blockHeights lowest
  highest : ∀ highest, coverage.highest = some highest ↔ IsGreatest reader.blockHeights highest
  noLowest : coverage.lowest = none ↔ coverage.blocks = 0
  noHighest : coverage.highest = none ↔ coverage.blocks = 0
  covers : ∀ height, Covers coverage.gaps height ↔
    (∃ lowest ∈ coverage.lowest, lowest < height) ∧
      (∃ highest ∈ coverage.highest, height < highest) ∧ height ∉ reader.blockHeights
  separated : Separated coverage.gaps
  span : ∀ lowest ∈ coverage.lowest, ∀ highest ∈ coverage.highest,
    (coverage.missing + coverage.distinct : Int) = highest - lowest + 1

namespace LogReader

variable {reader : LogReader} {index data : Array UInt8}

theorem memBlockHeights (height : Nat) :
    height ∈ reader.blockHeights ↔ height ∈ (LogTally.blank.with reader.kinds).heights := by
  simp only [blockHeights, Set.mem_ofPred_eq, LogTally.with, LogTally.blank, List.append_nil,
    List.mem_reverse, List.mem_map, memBlockWords]

/-- The coverage of the kinds of the entries is exact. -/
theorem exactOfKinds (reader : LogReader) :
    (LogCoverage.ofTally reader.entries (LogTally.blank.with reader.kinds)).Exact reader := by
  have same : reader.blockHeights =
      {height | height ∈ (LogTally.blank.with reader.kinds).heights} := Set.ext memBlockHeights
  have number : reader.kinds.length = reader.entries := by
    rw [kinds, List.length_map, List.length_range]
  have counts := lengthOfKinds reader.kinds
  have kept := lengthSortedHeights (LogTally.blank.with reader.kinds).heights
  have ascending := sortedHeightsAscend (LogTally.blank.with reader.kinds).heights
  have noHeight : sortedHeights (LogTally.blank.with reader.kinds).heights = [] ↔
      (LogTally.blank.with reader.kinds).heights.length = 0 := by
    rw [sortedHeightsEqNil, List.length_eq_zero_iff]
  exact {
    entries := rfl
    sum := by
      simp only [LogCoverage.ofTally, LogTally.with, LogTally.blank, List.append_nil,
        List.length_reverse, List.length_map]
      omega
    others := Nat.zero_add _
    damaged := Nat.zero_add _
    repeats := Nat.add_sub_cancel' kept
    distinct := by
      have members : {height | height ∈ (LogTally.blank.with reader.kinds).heights} =
          ((sortedHeights (LogTally.blank.with reader.kinds).heights).toFinset : Set Nat) := by
        ext height
        simp [memSortedHeights]
      rw [same, members, Set.ncard_coe_finset,
        List.toFinset_card_of_nodup (ascending.imp Nat.ne_of_lt)]
      rfl
    lowest := fun lowest => same ▸ headOfSorted
    highest := fun highest => same ▸ lastOfSorted
    noLowest := List.head?_eq_none_iff.trans noHeight
    noHighest := List.getLast?_eq_none_iff.trans noHeight
    covers := fun height => same ▸ coversOfSorted
    separated := separatedGapsOfHeights false ascending
    span := fun lowest first highest last => by
      obtain ⟨ordered, total⟩ := totalOfSorted first last
      simp only [LogCoverage.ofTally]
      omega }

/-- The machine comes to the tally of the kinds of the entries. -/
theorem tallyOfWords (indexed : reader.index = .file index) (stored : reader.data = .file data)
    (fits : reader.entries ≤ maxWord) :
    ∃ words, Machine.tallyFrom reader reader.entries 0 ⟨[], 0, 0, 0⟩ = .ok (.ok words) ∧
      Machine.Tallies words (LogTally.blank.with reader.kinds) := by
  have blank : Machine.Tallies ⟨[], 0, 0, 0⟩ .blank := ⟨rfl, rfl, rfl, rfl⟩
  have room : LogTally.blank.heights.length + LogTally.blank.others + LogTally.blank.damaged +
      reader.entries ≤ maxWord := by
    simp only [LogTally.blank, List.length_nil]
    omega
  obtain ⟨words, tallied, tallies⟩ :=
    Machine.tallyFromOk indexed stored reader.entries 0 (by omega) blank room
  rw [← List.range_eq_range', ← kinds] at tallies
  exact ⟨words, tallied, tallies⟩

/-- No more heights are tallied than there are entries. -/
theorem lengthOfTallies {words : WordTally}
    (tallies : Machine.Tallies words (LogTally.blank.with reader.kinds)) :
    words.heights.length ≤ reader.entries := by
  have counts := lengthOfKinds reader.kinds
  have number : reader.kinds.length = reader.entries := by
    rw [kinds, List.length_map, List.length_range]
  have length : words.heights.length = (blockWords reader.kinds).length := by
    rw [← List.length_map, tallies.heights]
    simp [LogTally.with, LogTally.blank]
  omega

/-- The machine comes to the gaps between some words, and to how much is missing there. -/
theorem gapsOfWords (words : List UInt64) :
    ∃ gaps missing, WordRange.gaps false (dropRepeats (words.mergeSort (· ≤ ·))) = .ok gaps ∧
      WordRange.total gaps 0 = .ok missing ∧
      WordRange.Hold gaps (gapsOfHeights false (sortedHeights (words.map UInt64.toNat))) ∧
      missing.toNat =
        totalSize (gapsOfHeights false (sortedHeights (words.map UInt64.toNat))) := by
  obtain ⟨gaps, found, hold⟩ := WordRange.gapsHold false (dropRepeats (words.mergeSort (· ≤ ·)))
  rw [← WordRange.sortedWords] at hold
  have small : ∀ height ∈ words.map UInt64.toNat, height ≤ maxWord := by
    intro height member
    obtain ⟨word, _, rfl⟩ := List.mem_map.mp member
    exact wordLe word
  obtain ⟨missing, totalled, value⟩ := WordRange.totalOk 0 hold (by
    rw [UInt64.toNat_zero, Nat.zero_add]
    exact totalFits small)
  rw [UInt64.toNat_zero, Nat.zero_add] at value
  exact ⟨gaps, missing, found, totalled, hold, value⟩

/-- The machine comes to the coverage of the kinds of the entries. -/
theorem coverageOfWords (indexed : reader.index = .file index) (stored : reader.data = .file data)
    (fits : reader.entries ≤ maxWord) :
    ∃ words, Machine.coverage reader = .ok (.ok words) ∧
      words.Holds (.ofTally reader.entries (LogTally.blank.with reader.kinds)) := by
  obtain ⟨tally, tallied, tallies⟩ := tallyOfWords indexed stored fits
  have short := lengthOfTallies tallies
  have sorted := WordRange.sortedWords tally.heights
  have kept := lengthSortedHeights (tally.heights.map UInt64.toNat)
  rw [sorted, List.length_map, List.length_map] at kept
  obtain ⟨entries, entriesCounted, entriesValue⟩ := Machine.countedOk fits
  obtain ⟨distinct, distinctCounted, distinctValue⟩ := Machine.countedOk
    (show (dropRepeats (tally.heights.mergeSort (· ≤ ·))).length ≤ maxWord by omega)
  obtain ⟨all, allCounted, allValue⟩ := Machine.countedOk
    (show tally.heights.length ≤ maxWord by omega)
  obtain ⟨duplicates, subtracted, duplicatesValue⟩ := Machine.minusOk
    (show distinct.toNat ≤ all.toNat by omega)
  obtain ⟨gaps, missing, found, totalled, hold, missingValue⟩ := gapsOfWords tally.heights
  refine ⟨⟨entries, tally.blocks, tally.others, tally.damaged, distinct, duplicates,
    (dropRepeats (tally.heights.mergeSort (· ≤ ·))).head?,
    (dropRepeats (tally.heights.mergeSort (· ≤ ·))).getLast?, gaps, missing⟩, ?_, ?_⟩
  · unfold Machine.coverage
    simp only [entriesCounted, tallied, distinctCounted, allCounted, subtracted, found, totalled,
      bind, Except.bind]
    rfl
  · rw [tallies.heights] at sorted hold missingValue
    exact {
      entries := entriesValue
      blocks := tallies.blocks
      others := tallies.others
      damaged := tallies.damaged
      distinct := by
        rw [distinctValue, LogCoverage.ofTally, sorted, List.length_map]
      duplicates := by
        rw [duplicatesValue, allValue, distinctValue, LogCoverage.ofTally, sorted, List.length_map,
          ← tallies.heights, List.length_map]
      lowest := by rw [LogCoverage.ofTally, sorted, List.head?_map]
      highest := by rw [LogCoverage.ofTally, sorted, List.getLast?_map]
      gaps := hold
      missing := missingValue }

/-- The coverage of a log, whatever stands in its files, is exact, and a machine that can count the
entries tells it without leaving the words. -/
theorem coverageExact (settings : LogSettings) (index data : Array UInt8) (entries dataLength : Nat)
    (fits : entries ≤ maxWord) :
    let reader := ofContents settings index data entries dataLength
    ∃ coverage, reader.coverage.1 = .ok coverage ∧ coverage.Exact reader ∧
      ∃ words, Machine.coverage reader = .ok (.ok words) ∧ words.Holds coverage := by
  intro reader
  exact ⟨_, coverageOfKinds rfl rfl, exactOfKinds reader, coverageOfWords rfl rfl fits⟩

/-- The files of a log with a block of the largest height, an entry that cannot be decoded, a block
of height zero, and the first block again. -/
def farFiles : LogWriter :=
  let block (height : String) :=
    Text.Utf8.encode ("[[\"block\"],\"upsert\",\"\",\"\",null,\"\"," ++ height ++ "]")
  [block "18446744073709551615", [], block "0", block "18446744073709551615"].foldl
    (fun log payload => log.appendRaw payload 0) (LogWriter.empty .extended)

/-- All heights but two are missing from that log, which is one less than a word can count. -/
theorem coverageExactFar :
    let reader := ofContents { LogSettings.standard with layout := .extended } farFiles.index
      farFiles.data 4 farFiles.data.size
    4 ≤ maxWord ∧ ∃ coverage, reader.coverage.1 = .ok coverage ∧ coverage.lowest = some 0 ∧
      coverage.highest = some maxWord ∧ coverage.duplicates = 1 ∧ coverage.damaged = 1 ∧
      ∃ words, Machine.coverage reader = .ok (.ok words) ∧ words.missing.toNat + 1 = maxWord := by
  intro reader
  have fits : 4 ≤ maxWord := by decide
  obtain ⟨coverage, told, exact, words, computed, holds⟩ :=
    coverageExact { LogSettings.standard with layout := .extended } farFiles.index farFiles.data 4
      farFiles.data.size fits
  have kinds : reader.kinds = [.block 18446744073709551615, .damaged, .block 0,
      .block 18446744073709551615] := by
    decide +kernel
  have heights : reader.blockHeights = {0, maxWord} := by
    ext height
    rw [blockHeights, kinds]
    simp only [Set.mem_ofPred_eq, List.mem_cons, EntryKind.block.injEq, reduceCtorEq, List.not_mem_nil,
      or_false, false_or, Set.mem_insert_iff, Set.mem_singleton_iff]
    constructor
    · rintro ⟨word, rfl | rfl | rfl, rfl⟩
      · exact .inr rfl
      · exact .inl rfl
      · exact .inr rfl
    · rintro (rfl | rfl)
      · exact ⟨0, .inr (.inl rfl), rfl⟩
      · exact ⟨18446744073709551615, .inl rfl, rfl⟩
  have lowest : coverage.lowest = some 0 := (exact.lowest 0).mpr
    ⟨heights ▸ Set.mem_insert _ _, fun _ _ => Nat.zero_le _⟩
  have highest : coverage.highest = some maxWord := (exact.highest maxWord).mpr
    ⟨heights ▸ Set.mem_insert_of_mem _ rfl, fun height member => by
      rcases heights ▸ member with rfl | rfl
      · exact Nat.zero_le _
      · exact Nat.le_refl _⟩
  have distinct : coverage.distinct = 2 := by
    rw [exact.distinct, heights]
    exact Set.ncard_pair (by decide)
  have damaged : coverage.damaged = 1 := by
    rw [exact.damaged, kinds]
    rfl
  have others : coverage.others = 0 := by
    rw [exact.others, kinds]
    rfl
  have entries : coverage.entries = 4 := exact.entries
  have sum := exact.sum
  have repeats := exact.repeats
  have span := exact.span 0 lowest maxWord highest
  have missing := holds.missing
  exact ⟨fits, coverage, told, lowest, highest, by omega, damaged, words, computed, by omega⟩

end LogReader

end Backfill
