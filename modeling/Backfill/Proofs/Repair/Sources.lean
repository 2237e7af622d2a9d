/-
This file shows what a planned range hands on: records of its own heights, from the log or from the
fetcher, and one record of each height where the range is acquired.
-/

import Backfill.Proofs.Acquisition.Remote
import Backfill.Proofs.Acquisition.Scan
import Backfill.Proofs.Height.Sorted
import Backfill.Repair.Run

namespace Backfill

/-- A fetcher is honest about a range if the record that it has of a height of the range is of that
height. -/
def Fetcher.Honest (fetcher : Fetcher) (range : HeightRange) : Prop :=
  ∀ height ∈ range, ∀ record, fetcher.recordAt? height = some record →
    record.height.toNat = height

/-- A fetcher gives upserts if the record that it has of a height is to put a block of that
height. -/
def Fetcher.Upserts (fetcher : Fetcher) : Prop :=
  ∀ height record, fetcher.recordAt? height = some record →
    record.isBlock = true ∧ record.operation = .upsert ∧ record.height.toNat = height

namespace Fetcher

/-- A fetcher that has the blank blocks of the heights below a bound. -/
def blanks (bound : Nat) : Fetcher := fun height =>
  if height < bound then ⟨.record (.blank height), []⟩ else ⟨.panicked, []⟩

variable {fetcher : Fetcher} {heights : List Nat}

theorem recordAtBlanks {bound height : Nat} {record : Record}
    (found : (blanks bound).recordAt? height = some record) :
    height < bound ∧ record = .blank height := by
  unfold recordAt? blanks at found
  split at found
  · rename_i answer
    split at answer
    · rename_i small
      obtain rfl := Fetched.record.inj answer
      exact ⟨small, (Option.some.inj found).symm⟩
    · cases answer
  · cases found

/-- Blank blocks are upserts as long as their heights fit a word. -/
theorem blanksUpserts {bound : Nat} (small : bound ≤ UInt64.size) : (blanks bound).Upserts := by
  intro height record found
  obtain ⟨below, rfl⟩ := recordAtBlanks found
  exact ⟨rfl, rfl, Nat.mod_eq_of_lt (lt_of_lt_of_le below small)⟩

theorem honestOfUpserts (upserts : fetcher.Upserts) (range : HeightRange) : fetcher.Honest range :=
  fun height _ record found => (upserts height record found).2.2

/-- An acquisition that succeeded is counted on from what was handed on before it. -/
theorem servesFrom (before : Nat) {count : Nat} {records : List Record}
    (served : fetcher.Serves heights 0 (.emitted count) records) :
    fetcher.Serves heights before (.emitted (before + count)) records := by
  obtain ⟨total, all⟩ := served.whole count rfl
  rw [Nat.zero_add] at total
  refine ⟨served.gives, ?_, fun _ => by rw [total]⟩
  rintro _ ⟨⟩
  exact ⟨by rw [total], all⟩

/-- An acquisition that did not succeed may be told of in other words. -/
theorem servesOther {before later : Nat} {acquired : Acquired} {records : List Record}
    (other : Acquired) (served : fetcher.Serves heights before acquired records)
    (never : ∀ count, acquired ≠ .emitted count) (otherNever : ∀ count, other ≠ .emitted count) :
    fetcher.Serves heights later other records :=
  ⟨served.gives, fun count emitted => absurd emitted (otherNever count),
    fun full => absurd (served.complete full) (never _)⟩

/-- The records of an honest fetcher have the heights that they were asked for. -/
theorem heightsOfMap
    (honest : ∀ height ∈ heights, ∀ record, fetcher.recordAt? height = some record →
      record.height.toNat = height) {records : List Record}
    (all : heights.map fetcher.recordAt? = records.map some) :
    Record.heights records = heights := by
  induction heights generalizing records with
  | nil =>
      obtain rfl := List.map_eq_nil_iff.mp all.symm
      rfl
  | cons height rest inductionHypothesis =>
      cases records with
      | nil => cases all
      | cons record records =>
          obtain ⟨first, others⟩ := List.cons.inj all
          rw [Record.heightsCons, honest height List.mem_cons_self record first, inductionHypothesis
            (fun other member => honest other (List.mem_cons_of_mem _ member)) others]

/-- Heights are acquired exactly if the fetcher has a record of each of them. -/
theorem emittedIff {before : Nat} {acquired : Acquired} {records : List Record}
    (served : fetcher.Serves heights before acquired records) :
    (∃ count, acquired = .emitted count) ↔
      ∀ height ∈ heights, (fetcher.recordAt? height).isSome := by
  constructor
  · rintro ⟨count, rfl⟩ height inside
    obtain ⟨_, all⟩ := served.whole count rfl
    have found := List.mem_map_of_mem (f := fetcher.recordAt?) inside
    rw [all] at found
    obtain ⟨record, _, same⟩ := List.mem_map.mp found
    simp [← same]
  · exact fun full => ⟨_, served.complete full⟩

end Fetcher

namespace Repairer

variable {σ : Type} (repairer : Repairer σ)

/-- A fetch makes the same calls to every consumer. -/
theorem fetchRemotePerforms (strategy : Strategy) (range : HeightRange) :
    ∃ acquired calls,
      (∀ {κ : Type} (consumer : Consumer κ) (state : κ),
        repairer.fetchRemote consumer strategy range state =
          consumer.perform .ended acquired calls state) ∧
      repairer.fetcher.Serves range.heights 0 acquired (Call.records calls) := by
  cases strategy with
  | sequential => exact repairer.fetcher.acquireSequentialPerforms range
  | parallel => exact repairer.fetcher.acquireParallelPerforms repairer.crew _ range
  | logScan => exact repairer.fetcher.acquireParallelPerforms repairer.crew _ range

section Parts

variable {repairer : Repairer σ} {κ : Type} {consumer : Consumer κ} {range part : HeightRange}
  {rest : List HeightRange} {logError : RangeError} {emitted : Nat} {calls : List Call} {state : κ}

/-- The strategy by which a part that a log lacked is fetched. -/
def partStrategy (repairer : Repairer σ) (part : HeightRange) : Strategy :=
  .select repairer.settings.thresholds false part.size

/-- A part that was acquired is followed by the others. -/
theorem fetchPartsMore {acquired : Acquired} {count : Nat} {more : List Call}
    (same : repairer.fetchRemote consumer (repairer.partStrategy part) part state =
      consumer.perform .ended (.emitted count) calls state)
    (sameRest : ∀ next, repairer.fetchParts consumer range logError rest (emitted + count) next =
      consumer.perform .ended acquired more next) :
    repairer.fetchParts consumer range logError (part :: rest) emitted state =
      consumer.perform .ended acquired (calls ++ more) state := by
  rw [fetchParts, ← partStrategy, same, Consumer.performAppend, Consumer.perform]
  cases consumer.follow calls state with
  | mk result next =>
      cases result with
      | error cause => rfl
      | ok => exact sameRest next

/-- A part that failed is the last one, and its error is joined to that of the log. -/
theorem fetchPartsFailed {error : RangeError}
    (same : repairer.fetchRemote consumer (repairer.partStrategy part) part state =
      consumer.perform .ended (.failed error) calls state) :
    repairer.fetchParts consumer range logError (part :: rest) emitted state =
      consumer.perform .ended (.failed (fallbackFailed range logError error)) calls state := by
  rw [fetchParts, ← partStrategy, same, Consumer.perform, Consumer.perform]
  cases consumer.follow calls state with
  | mk result next => cases result <;> rfl

/-- A part that ended the run is the last one. -/
theorem fetchPartsEnded {cause : RunError}
    (same : repairer.fetchRemote consumer (repairer.partStrategy part) part state =
      consumer.perform .ended (.ended cause) calls state) :
    repairer.fetchParts consumer range logError (part :: rest) emitted state =
      consumer.perform .ended (.ended cause) calls state := by
  rw [fetchParts, ← partStrategy, same, Consumer.perform]
  cases consumer.follow calls state with
  | mk result next => cases result <;> rfl

end Parts

/-- Fetching the parts that a log lacked makes the same calls to every consumer. -/
theorem fetchPartsPerforms (range : HeightRange) (logError : RangeError)
    (parts : List HeightRange) (emitted : Nat) :
    ∃ acquired calls,
      (∀ {κ : Type} (consumer : Consumer κ) (state : κ),
        repairer.fetchParts consumer range logError parts emitted state =
          consumer.perform .ended acquired calls state) ∧
      repairer.fetcher.Serves (parts.flatMap HeightRange.heights) emitted acquired
        (Call.records calls) := by
  induction parts generalizing emitted with
  | nil =>
      refine ⟨.emitted emitted, [], fun _ _ => rfl, Fetcher.givesNil _ _, ?_, fun _ => rfl⟩
      rintro _ ⟨⟩
      exact ⟨rfl, rfl⟩
  | cons part rest inductionHypothesis =>
      obtain ⟨acquired, calls, same, served⟩ :=
        repairer.fetchRemotePerforms (repairer.partStrategy part) part
      rw [List.flatMap_cons]
      have stops (other : Acquired) (never : ∀ count, acquired ≠ .emitted count)
          (otherNever : ∀ count, other ≠ .emitted count) :
          repairer.fetcher.Serves (part.heights ++ rest.flatMap HeightRange.heights) emitted other
            (Call.records calls) :=
        Fetcher.servesStop _ (Fetcher.servesOther other served never otherNever) otherNever
      cases acquired with
      | emitted count =>
          obtain ⟨acquired, more, sameRest, servedRest⟩ := inductionHypothesis (emitted + count)
          refine ⟨acquired, calls ++ more, fun consumer state =>
            fetchPartsMore (same consumer state) (sameRest consumer), ?_⟩
          rw [Call.recordsAppend]
          exact Fetcher.servesAppend (Fetcher.servesFrom emitted served) servedRest
      | failed error =>
          exact ⟨_, calls, fun consumer state => fetchPartsFailed (same consumer state),
            stops _ (by simp) (by simp)⟩
      | ended cause =>
          exact ⟨_, calls, fun consumer state => fetchPartsEnded (same consumer state),
            stops _ (by simp) (by simp)⟩

/-- Without a log none is scanned. -/
theorem selectRemote (thresholds : Thresholds) (size : Nat) :
    Strategy.select thresholds false size ≠ .logScan := by
  unfold Strategy.select
  split
  · simp
  · simp

/-- A plan that is made without a log scans none. -/
theorem remoteOfRanges {thresholds : Thresholds} {origin : RangeOrigin} {ranges : List HeightRange}
    {planned : PlannedRange}
    (member : planned ∈ PlannedRange.ofRanges thresholds false origin ranges) :
    planned.strategy ≠ .logScan := by
  obtain ⟨range, _, rfl⟩ := List.mem_map.mp member
  exact selectRemote _ _

/-- A record that was read from a log by a scan of a range. -/
def Scanned (range : HeightRange) (record : Record) : Prop :=
  LogReader.isWanted range record = true ∧
    ∃ reader position, repairer.log = some reader ∧ reader.read position = .ok record

/-- The records that acquiring a planned range hands on are the fetcher's of heights of the range or
were read from the log. -/
structure Acquires (planned : PlannedRange) (acquired : Acquired) (records : List Record) :
    Prop where
  origin : ∀ record ∈ records,
    (∃ height ∈ planned.range, repairer.fetcher.recordAt? height = some record) ∨
      repairer.Scanned planned.range record
  whole : ∀ count, acquired = .emitted count → count = planned.range.size
  once : repairer.fetcher.Honest planned.range → ∀ count, acquired = .emitted count →
    (Record.heights records).Perm planned.range.heights
  remote : planned.strategy ≠ .logScan →
    repairer.fetcher.Serves planned.range.heights 0 acquired records

section Logs

variable {repairer} {reader : LogReader} {range : HeightRange} {planned : PlannedRange}
  {acquired : Acquired} {logError : RangeError} {lacking : List Nat} {calls fetches : List Call}
  {records fetched : List Record}

/-- If a log leaves no height to the fetcher then its answer stands. -/
theorem scanLogOfWhole {κ : Type} {consumer : Consumer κ} {state next : κ}
    (scanned : reader.acquire consumer range state = ((acquired, []), next)) :
    repairer.scanLog consumer reader range state = (acquired, next) := by
  cases acquired <;> simp only [scanLog, scanned]

/-- If a log leaves heights to the fetcher then these are fetched after a checkpoint. -/
theorem scanLogOfShort {κ : Type} {consumer : Consumer κ} {state next : κ}
    (scanned : reader.acquire consumer range state = ((.failed logError, lacking), next))
    (some : lacking ≠ []) :
    repairer.scanLog consumer reader range state =
      match consumer.checkpoint
        (consumer.log (fallbackEvent range lacking.length logError) next) with
      | (.error cause, state) => (.ended cause, state)
      | (.ok (), state) => repairer.fetchParts consumer range logError (collapse lacking)
          (range.size - lacking.length) state := by
  obtain ⟨height, more, rfl⟩ := List.exists_cons_of_ne_nil some
  cases settled : consumer.checkpoint
      (consumer.log (fallbackEvent range (height :: more).length logError) next) with
  | mk result last => cases result <;> simp only [scanLog, scanned, settled]

/-- A log that leaves no height to the fetcher makes all calls. -/
theorem scanLogAlone {κ : Type} (consumer : Consumer κ) (state : κ)
    (same : reader.acquire consumer range state =
      consumer.perform (fun cause => (.ended cause, [])) (acquired, []) calls state) :
    repairer.scanLog consumer reader range state =
      consumer.perform .ended acquired calls state := by
  unfold Consumer.perform at same ⊢
  cases followed : consumer.follow calls state with
  | mk result next =>
      rw [followed] at same
      cases result with
      | error cause => exact scanLogOfWhole same
      | ok => exact scanLogOfWhole same

/-- The calls of a fetch come after those of a log that left heights to it, and a checkpoint. -/
theorem scanLogThenFetch {κ : Type} (consumer : Consumer κ) (state : κ) (some : lacking ≠ [])
    (same : reader.acquire consumer range state =
      consumer.perform (fun cause => (.ended cause, [])) (.failed logError, lacking) calls state)
    (sameFetches : ∀ state, repairer.fetchParts consumer range logError (collapse lacking)
      (range.size - lacking.length) state = consumer.perform .ended acquired fetches state) :
    repairer.scanLog consumer reader range state =
      consumer.perform .ended acquired
        (calls ++ (.note (.event (fallbackEvent range lacking.length logError)) :: .checkpoint ::
          fetches)) state := by
  rw [Consumer.performAppend]
  unfold Consumer.perform at same ⊢
  cases followed : consumer.follow calls state with
  | mk result next =>
      rw [followed] at same
      cases result with
      | error cause => exact scanLogOfWhole same
      | ok =>
          rw [scanLogOfShort same some]
          simp only [Consumer.follow, Consumer.make, Consumer.log]
          cases consumer.checkpoint _ with
          | mk settled last =>
              cases settled with
              | error cause => rfl
              | ok => exact sameFetches last

/-- What a log supplies of a range was read by a scan of it. -/
theorem scannedOfSupplies (present : repairer.log = some reader)
    (supplied : reader.Supplies range (acquired, lacking) records) :
    ∀ record ∈ records, repairer.Scanned range record := by
  intro record member
  obtain ⟨position, read⟩ := supplied.listed record member
  exact ⟨supplied.wanted record member, reader, position, present, read⟩

/-- A log that leaves no height to the fetcher acquires the range. -/
theorem acquiresOfLog (present : repairer.log = some reader)
    (strategy : planned.strategy = .logScan)
    (supplied : reader.Supplies planned.range (acquired, []) records) :
    repairer.Acquires planned acquired records where
  origin := fun record member => .inr (scannedOfSupplies present supplied record member)
  whole := fun count emitted => (supplied.whole count emitted).2.1
  once := fun _ count emitted => (supplied.whole count emitted).2.2
  remote := fun different => absurd strategy different

/-- The fetcher acquires with what the log supplied a range of which it serves the rest. -/
theorem acquiresOfFallback (present : repairer.log = some reader)
    (strategy : planned.strategy = .logScan)
    (supplied : reader.Supplies planned.range (.failed logError, lacking) records)
    (left : lacking = planned.range.heights.filter fun height =>
      height ∉ Record.heights records)
    (served : repairer.fetcher.Serves lacking (planned.range.size - lacking.length) acquired
      fetched) :
    repairer.Acquires planned acquired (records ++ fetched) := by
  have inside : ∀ height ∈ lacking, height ∈ planned.range := by
    intro height member
    rw [left] at member
    exact (planned.range.memHeights height).mp (List.mem_of_mem_filter member)
  refine ⟨?_, ?_, ?_, fun different => absurd strategy different⟩
  · intro record member
    rcases List.mem_append.mp member with early | late
    · exact .inr (scannedOfSupplies present supplied record early)
    · obtain ⟨height, listed, found⟩ := served.gives record late
      exact .inl ⟨height, inside height listed, found⟩
  · intro count emitted
    have bounded : lacking.length ≤ planned.range.size := by
      rw [left, ← planned.range.lengthHeights]
      exact List.length_filter_le _ _
    rw [(served.whole count emitted).1]
    omega
  · intro honest count emitted
    rw [Record.heightsAppend, Fetcher.heightsOfMap
      (fun height listed => honest height (inside height listed)) (served.whole count emitted).2,
      left]
    refine HeightRange.permOfShort supplied.distinct fun height member => ?_
    obtain ⟨record, handed, rfl⟩ := List.mem_map.mp member
    exact (LogReader.heightOfWanted (supplied.wanted record handed)).2

end Logs

/-- A log makes the same calls to every consumer, also where the fetcher makes up for what the log
lacked. -/
theorem scanLogPerforms {reader : LogReader} (present : repairer.log = some reader)
    (planned : PlannedRange) (strategy : planned.strategy = .logScan) :
    ∃ acquired calls,
      (∀ {κ : Type} (consumer : Consumer κ) (state : κ),
        repairer.scanLog consumer reader planned.range state =
          consumer.perform .ended acquired calls state) ∧
      repairer.Acquires planned acquired (Call.records calls) := by
  obtain ⟨⟨acquired, lacking⟩, calls, same, supplied⟩ := reader.acquirePerforms planned.range
  by_cases none : lacking = []
  · subst none
    exact ⟨acquired, calls, fun consumer state => scanLogAlone consumer state (same consumer state),
      acquiresOfLog present strategy supplied⟩
  · obtain ⟨⟨logError, failed⟩, left⟩ := supplied.short none
    obtain rfl : acquired = .failed logError := failed
    obtain ⟨acquired, fetches, sameFetches, served⟩ := repairer.fetchPartsPerforms planned.range
      logError (collapse lacking) (planned.range.size - lacking.length)
    have ascending : lacking.Pairwise (· < ·) := by
      rw [show lacking = _ from left]
      exact planned.range.heightsAscend.filter _
    rw [collapseHeights, sortedHeightsOfAscending ascending] at served
    refine ⟨acquired, _, fun consumer state => scanLogThenFetch consumer state none
      (same consumer state) (sameFetches consumer), ?_⟩
    rw [Call.recordsAppend, Call.recordsNote, Call.recordsCheckpoint]
    exact acquiresOfFallback present strategy supplied left served

/-- A fetch acquires a planned range. -/
theorem acquiresOfServes {planned : PlannedRange} {acquired : Acquired} {records : List Record}
    (served : repairer.fetcher.Serves planned.range.heights 0 acquired records) :
    repairer.Acquires planned acquired records := by
  refine ⟨?_, ?_, ?_, fun _ => served⟩
  · intro record member
    obtain ⟨height, inside, found⟩ := served.gives record member
    exact .inl ⟨height, (planned.range.memHeights height).mp inside, found⟩
  · intro count emitted
    rw [(served.whole count emitted).1, Nat.zero_add, planned.range.lengthHeights]
  · intro honest count emitted
    rw [Fetcher.heightsOfMap
      (fun height inside => honest height ((planned.range.memHeights height).mp inside))
      (served.whole count emitted).2]

/-- Acquiring a planned range makes the same calls to every consumer. -/
theorem acquirePerforms (planned : PlannedRange) :
    ∃ acquired calls,
      (∀ {κ : Type} (consumer : Consumer κ) (state : κ),
        repairer.acquire consumer planned state =
          consumer.perform .ended acquired calls state) ∧
      repairer.Acquires planned acquired (Call.records calls) := by
  have remote (strategy : Strategy) (chosen : planned.strategy = strategy)
      (fetches : strategy ≠ .logScan) :
      ∃ acquired calls,
        (∀ {κ : Type} (consumer : Consumer κ) (state : κ),
          repairer.acquire consumer planned state =
            consumer.perform .ended acquired calls state) ∧
        repairer.Acquires planned acquired (Call.records calls) := by
    obtain ⟨acquired, calls, same, served⟩ := repairer.fetchRemotePerforms strategy planned.range
    refine ⟨acquired, calls, ?_, repairer.acquiresOfServes served⟩
    intro κ consumer state
    rw [← same, acquire, chosen]
    cases strategy with
    | logScan => exact absurd rfl fetches
    | sequential => rfl
    | parallel => rfl
  cases strategy : planned.strategy with
  | sequential => exact remote .sequential strategy (by simp)
  | parallel => exact remote .parallel strategy (by simp)
  | logScan =>
      cases present : repairer.log with
      | some reader =>
          obtain ⟨acquired, calls, same, acquires⟩ :=
            repairer.scanLogPerforms present planned strategy
          refine ⟨acquired, calls, ?_, acquires⟩
          intro κ consumer state
          rw [← same, acquire, strategy, present]
      | none =>
          refine ⟨.failed ⟨planned.range, .unavailable "binary log not configured"⟩, [], ?_,
            by simp, by simp, by simp, fun different => absurd strategy different⟩
          intro κ consumer state
          rw [acquire, strategy, present]
          rfl

/-- What acquiring a planned range comes to if no call is refused. -/
def verdict (planned : PlannedRange) : Acquired :=
  (repairer.acquire Consumer.recorder planned []).1

/-- The calls that acquiring a planned range makes, in order, if none is refused. -/
def calls (planned : PlannedRange) : List Call :=
  (repairer.acquire Consumer.recorder planned []).2.reverse

/-- The records that acquiring a planned range hands on, in order. -/
def handedOn (planned : PlannedRange) : List Record :=
  Call.records (repairer.calls planned)

/-- Acquiring a planned range is to make its calls. -/
theorem acquireEq {κ : Type} (consumer : Consumer κ) (planned : PlannedRange) (state : κ) :
    repairer.acquire consumer planned state =
      consumer.perform .ended (repairer.verdict planned) (repairer.calls planned) state := by
  obtain ⟨acquired, calls, same, _⟩ := repairer.acquirePerforms planned
  rw [verdict, Repairer.calls, same, same, Consumer.performRecorder, List.reverse_reverse]

theorem acquires (planned : PlannedRange) :
    repairer.Acquires planned (repairer.verdict planned) (repairer.handedOn planned) := by
  obtain ⟨acquired, calls, same, acquires⟩ := repairer.acquirePerforms planned
  rw [handedOn, verdict, Repairer.calls, same, Consumer.performRecorder, List.reverse_reverse]
  exact acquires

/-- A range whose heights all have records is acquired without a scan, and these records are handed
on. -/
theorem acquiredOfFull {planned : PlannedRange} (remote : planned.strategy ≠ .logScan)
    (full : ∀ height ∈ planned.range, (repairer.fetcher.recordAt? height).isSome) :
    repairer.verdict planned = .emitted planned.range.size ∧
      planned.range.heights.map repairer.fetcher.recordAt? =
        (repairer.handedOn planned).map some := by
  have served := (repairer.acquires planned).remote remote
  have verdict := served.complete fun height inside =>
    full height ((planned.range.memHeights height).mp inside)
  refine ⟨?_, (served.whole _ verdict).2⟩
  rw [verdict, planned.range.lengthHeights, Nat.zero_add]

/-- Records that are handed on for a planned range are of heights of the range. -/
theorem handedOnInside {planned : PlannedRange} (honest : repairer.fetcher.Honest planned.range)
    {record : Record} (handed : record ∈ repairer.handedOn planned) :
    record.height.toNat ∈ planned.range := by
  rcases (repairer.acquires planned).origin record handed with ⟨height, inside, found⟩ | scanned
  · rwa [honest height inside record found]
  · exact (LogReader.heightOfWanted scanned.1).2

end Repairer

end Backfill
