/-
This file shows which calls an acquisition from a fetcher makes: it hands on replies of the fetcher
only, and a range that is acquired is handed on height by height, each height once.
-/

import Backfill.Acquisition.Remote
import Backfill.Proofs.Acquisition.Calls
import Backfill.Proofs.Height.Windows
import Mathlib.Data.List.Sort

namespace Backfill

/-- The record of a height, if the fetcher has it. -/
def Fetcher.recordAt? (fetcher : Fetcher) (height : Nat) : Option Record :=
  match (fetcher height).fetched with
  | .record record => some record
  | _ => none

/-- The notes that come with a request for a height. -/
def Fetcher.requestNotes (fetcher : Fetcher) (height : Nat) : List Activity :=
  .requested height :: (fetcher height).events.map .event

theorem Consumer.askEq {κ : Type} (consumer : Consumer κ) (fetcher : Fetcher) (height : Nat)
    (state : κ) :
    consumer.ask fetcher height state =
      ((fetcher height).fetched, consumer.noteAll (fetcher.requestNotes height) state) := by
  simp only [ask, logAllEq]
  rfl

namespace Fetcher

/-- Every one of these records is a reply of the fetcher for one of these heights. -/
def Gives (fetcher : Fetcher) (heights : List Nat) (records : List Record) : Prop :=
  ∀ record ∈ records, ∃ height ∈ heights, fetcher.recordAt? height = some record

theorem givesNil (fetcher : Fetcher) (heights : List Nat) : fetcher.Gives heights [] := by
  simp [Gives]

theorem givesMono {fetcher : Fetcher} {fewer more : List Nat} {records : List Record}
    (within : fewer ⊆ more) (gives : fetcher.Gives fewer records) :
    fetcher.Gives more records := by
  intro record member
  obtain ⟨height, inside, served⟩ := gives record member
  exact ⟨height, within inside, served⟩

theorem givesAppend {fetcher : Fetcher} {heights : List Nat} {first second : List Record}
    (givesFirst : fetcher.Gives heights first) (givesSecond : fetcher.Gives heights second) :
    fetcher.Gives heights (first ++ second) := by
  intro record member
  rcases List.mem_append.mp member with member | member
  · exact givesFirst record member
  · exact givesSecond record member

theorem givesOfMap {fetcher : Fetcher} {heights : List Nat} {records : List Record}
    (all : heights.map fetcher.recordAt? = records.map some) : fetcher.Gives heights records := by
  intro record member
  have listed : some record ∈ heights.map fetcher.recordAt? :=
    all ▸ List.mem_map_of_mem member
  simpa using listed

/-- The records that an acquisition of some heights hands on when `before` records were handed on
earlier. -/
structure Serves (fetcher : Fetcher) (heights : List Nat) (before : Nat) (acquired : Acquired)
    (records : List Record) : Prop where
  gives : fetcher.Gives heights records
  whole : ∀ count, acquired = .emitted count →
    count = before + heights.length ∧ heights.map fetcher.recordAt? = records.map some
  complete : (∀ height ∈ heights, (fetcher.recordAt? height).isSome) →
    acquired = .emitted (before + heights.length)

/-- An acquisition goes on where an earlier one succeeded. -/
theorem servesAppend {fetcher : Fetcher} {first second : List Nat} {before middle : Nat}
    {acquired : Acquired} {records more : List Record}
    (served : fetcher.Serves first before (.emitted middle) records)
    (rest : fetcher.Serves second middle acquired more) :
    fetcher.Serves (first ++ second) before acquired (records ++ more) := by
  obtain ⟨total, all⟩ := served.whole middle rfl
  refine ⟨givesAppend (givesMono (List.subset_append_left _ _) served.gives)
    (givesMono (List.subset_append_right _ _) rest.gives), ?_, ?_⟩
  · intro count emitted
    obtain ⟨wholeTotal, wholeAll⟩ := rest.whole count emitted
    refine ⟨?_, by simp [all, wholeAll]⟩
    rw [wholeTotal, total, List.length_append]
    omega
  · intro full
    rw [rest.complete fun height inside => full height (List.mem_append_right _ inside), total,
      List.length_append, Nat.add_assoc]

/-- An acquisition that did not succeed does not go on. -/
theorem servesStop {fetcher : Fetcher} {first : List Nat} (second : List Nat) {before : Nat}
    {acquired : Acquired} {records : List Record}
    (served : fetcher.Serves first before acquired records)
    (never : ∀ count, acquired ≠ .emitted count) :
    fetcher.Serves (first ++ second) before acquired records := by
  refine ⟨givesMono (List.subset_append_left _ _) served.gives,
    fun count emitted => absurd emitted (never count), fun full => ?_⟩
  have succeeded := served.complete fun height inside => full height (List.mem_append_left _ inside)
  exact absurd succeeded (never _)

/-- An acquisition in which a height failed does not succeed. -/
theorem servesOfLacking {fetcher : Fetcher} {heights : List Nat} {before : Nat}
    {acquired : Acquired} {records : List Record} {height : Nat} (inside : height ∈ heights)
    (lacking : fetcher.recordAt? height = none) (gives : fetcher.Gives heights records)
    (never : ∀ count, acquired ≠ .emitted count) :
    fetcher.Serves heights before acquired records := by
  refine ⟨gives, fun count emitted => absurd emitted (never count), fun full => ?_⟩
  have present := full height inside
  simp [lacking] at present

theorem recordAtOfRecord {fetcher : Fetcher} {height : Nat} {record : Record}
    (fetched : (fetcher height).fetched = .record record) :
    fetcher.recordAt? height = some record := by
  simp [recordAt?, fetched]

theorem recordAtOfFailure {fetcher : Fetcher} {height : Nat} {error : FetchError}
    (fetched : (fetcher height).fetched = .failure error) :
    fetcher.recordAt? height = none := by
  simp [recordAt?, fetched]

theorem recordAtOfPanicked {fetcher : Fetcher} {height : Nat}
    (fetched : (fetcher height).fetched = .panicked) : fetcher.recordAt? height = none := by
  simp [recordAt?, fetched]

theorem givesCons {fetcher : Fetcher} {height : Nat} {heights : List Nat} {record : Record}
    {records : List Record} (found : fetcher.recordAt? height = some record)
    (rest : fetcher.Gives heights records) :
    fetcher.Gives (height :: heights) (record :: records) := by
  rintro next (_ | ⟨_, member⟩)
  · exact ⟨height, List.mem_cons_self, found⟩
  · exact givesMono (List.subset_cons_self _ _) rest next member

/-- An acquisition of one height hands on its record. -/
theorem servesOne {fetcher : Fetcher} {height : Nat} {record : Record} (before : Nat)
    (found : fetcher.recordAt? height = some record) :
    fetcher.Serves [height] before (.emitted (before + 1)) [record] where
  gives := givesCons found (givesNil _ _)
  whole := by
    rintro count ⟨⟩
    exact ⟨rfl, by simp [found]⟩
  complete := fun _ => rfl

/-- Requests one after another with given calls and answer serve the heights that are left, unless
one failed before. -/
structure Fetches (fetcher : Fetcher) (range : HeightRange) (left height : Nat) (tally : FetchTally)
    (acquired : Acquired) (calls : List Call) : Prop where
  same : ∀ {κ : Type} (consumer : Consumer κ) (state : κ),
    fetcher.fetchFrom consumer range left height tally state =
      consumer.perform .ended acquired calls state
  gives : fetcher.Gives (List.range' height left) (Call.records calls)
  serves : tally.failures = [] →
    fetcher.Serves (List.range' height left) tally.emitted acquired (Call.records calls)
  spoilt : tally.failures ≠ [] → ∀ count, acquired ≠ .emitted count

section Requests

variable {fetcher : Fetcher} {range : HeightRange} {left height : Nat} {tally : FetchTally}
  {acquired : Acquired} {calls : List Call}

/-- Where no height is left the tally is closed. -/
theorem fetchesNone (fetcher : Fetcher) (range : HeightRange) (height : Nat) (tally : FetchTally) :
    fetcher.Fetches range 0 height tally (tally.close range) [] where
  same := fun _ _ => rfl
  gives := givesNil _ _
  serves := by
    intro clean
    have closed : tally.close range = .emitted tally.emitted := by simp [FetchTally.close, clean]
    rw [closed]
    refine ⟨givesNil _ _, ?_, fun _ => rfl⟩
    rintro count ⟨⟩
    exact ⟨rfl, rfl⟩
  spoilt := by
    intro failed count
    simp [FetchTally.close, failed]

/-- A record is handed on before the other heights are asked for. -/
theorem fetchesRecord {record : Record} (fetched : (fetcher height).fetched = .record record)
    (rest : fetcher.Fetches range left (height + 1) { tally with emitted := tally.emitted + 1 }
      acquired calls) :
    fetcher.Fetches range (left + 1) height tally acquired
      ((fetcher.requestNotes height).map .note ++ .consume record :: calls) where
  same := by
    intro κ consumer state
    have goesOn := rest.same consumer
    simp only [fetchFrom, Consumer.askEq, fetched, Consumer.performNotes, Consumer.performConsume]
    split <;> simp_all
  gives := by
    rw [List.range'_succ]
    simpa using givesCons (recordAtOfRecord fetched) rest.gives
  serves := by
    intro clean
    rw [List.range'_succ]
    simpa using servesAppend (servesOne _ (recordAtOfRecord fetched)) (rest.serves clean)
  spoilt := rest.spoilt

/-- A failure is noted before the other heights are asked for. -/
theorem fetchesFailure {error : FetchError} (fetched : (fetcher height).fetched = .failure error)
    (rest : fetcher.Fetches range left (height + 1)
      { tally with failures := (height, error) :: tally.failures } acquired calls) :
    fetcher.Fetches range (left + 1) height tally acquired
      ((fetcher.requestNotes height ++ [Activity.event (fetchFailedEvent height error)]).map .note ++
        calls) := by
  have never := rest.spoilt (List.cons_ne_nil _ _)
  have gives : fetcher.Gives (List.range' height (left + 1)) (Call.records calls) :=
    givesMono (List.subset_cons_self height _) rest.gives
  refine ⟨?_, by simpa using gives, fun _ => ?_, fun _ => never⟩
  · intro κ consumer state
    simp only [fetchFrom, Consumer.askEq, fetched, Consumer.logEq, Consumer.performNotes,
      Consumer.noteAllAppend, rest.same]
  · exact servesOfLacking List.mem_cons_self (recordAtOfFailure fetched) (by simpa using gives)
      never

/-- A panic ends the requests. -/
theorem fetchesPanicked (fetched : (fetcher height).fetched = .panicked) :
    fetcher.Fetches range (left + 1) height tally (.ended workerPanicked)
      ((fetcher.requestNotes height).map .note) := by
  have never : ∀ count, Acquired.ended workerPanicked ≠ .emitted count := by simp
  refine ⟨?_, by simpa using givesNil _ _, fun _ => ?_, fun _ => never⟩
  · intro κ consumer state
    simp only [fetchFrom, Consumer.askEq, fetched, Consumer.performNotesOnly]
  · exact servesOfLacking List.mem_cons_self (recordAtOfPanicked fetched)
      (by simpa using givesNil _ _) never

end Requests

/-- Requests one after another serve the heights that are left, unless one failed before. -/
theorem fetchFromPerforms (fetcher : Fetcher) (range : HeightRange) (left height : Nat)
    (tally : FetchTally) :
    ∃ acquired calls, fetcher.Fetches range left height tally acquired calls := by
  induction left generalizing height tally with
  | zero => exact ⟨_, _, fetchesNone fetcher range height tally⟩
  | succ left inductionHypothesis =>
      cases fetched : (fetcher height).fetched with
      | record record =>
          obtain ⟨acquired, calls, rest⟩ :=
            inductionHypothesis (height + 1) { tally with emitted := tally.emitted + 1 }
          exact ⟨acquired, _, fetchesRecord fetched rest⟩
      | failure error =>
          obtain ⟨acquired, calls, rest⟩ := inductionHypothesis (height + 1)
            { tally with failures := (height, error) :: tally.failures }
          exact ⟨acquired, _, fetchesFailure fetched rest⟩
      | panicked => exact ⟨_, _, fetchesPanicked fetched⟩

/-- Requests one after another serve a range. -/
theorem acquireSequentialPerforms (fetcher : Fetcher) (range : HeightRange) :
    ∃ acquired calls,
      (∀ {κ : Type} (consumer : Consumer κ) (state : κ),
        fetcher.acquireSequential consumer range state =
          consumer.perform .ended acquired calls state) ∧
      fetcher.Serves range.heights 0 acquired (Call.records calls) := by
  obtain ⟨acquired, calls, fetches⟩ :=
    fetcher.fetchFromPerforms range range.size range.start .blank
  exact ⟨acquired, calls, fetches.same, fetches.serves rfl⟩

/-- The records that a fetcher has of heights, in the order of the heights. -/
def records (fetcher : Fetcher) (heights : List Nat) : List Record :=
  heights.filterMap fetcher.recordAt?

theorem recordsAppend (fetcher : Fetcher) (first second : List Nat) :
    fetcher.records (first ++ second) = fetcher.records first ++ fetcher.records second :=
  List.filterMap_append

theorem recordsOfMap {fetcher : Fetcher} {heights : List Nat} {records : List Record}
    (all : heights.map fetcher.recordAt? = records.map some) :
    fetcher.records heights = records := by
  calc
    fetcher.records heights = (heights.map fetcher.recordAt?).filterMap id := by
      rw [Fetcher.records, List.filterMap_map]
      rfl
    _ = records := by
      rw [all, List.filterMap_map]
      exact List.filterMap_some

/-- The answers to heights, for those of which the fetcher has the record. -/
def answers (fetcher : Fetcher) (heights : List Nat) : List (Nat × Record) :=
  heights.filterMap fun height => (fetcher.recordAt? height).map (height, ·)

theorem memAnswers {fetcher : Fetcher} {heights : List Nat} {answer : Nat × Record}
    (member : answer ∈ fetcher.answers heights) :
    answer.1 ∈ heights ∧ fetcher.recordAt? answer.1 = some answer.2 := by
  obtain ⟨height, inside, found⟩ := List.mem_filterMap.mp member
  obtain ⟨record, served, rfl⟩ := Option.map_eq_some_iff.mp found
  exact ⟨inside, served⟩

theorem answersHeights {fetcher : Fetcher} {heights : List Nat}
    (full : ∀ height ∈ heights, (fetcher.recordAt? height).isSome) :
    (fetcher.answers heights).map Prod.fst = heights := by
  induction heights with
  | nil => rfl
  | cons height rest inductionHypothesis =>
      obtain ⟨record, served⟩ := Option.isSome_iff_exists.mp (full height List.mem_cons_self)
      have tail :=
        inductionHypothesis fun place inside => full place (List.mem_cons_of_mem _ inside)
      simp only [answers, List.filterMap_cons, served, Option.map_some, List.map_cons]
      exact congrArg (height :: ·) tail

/-- The workers of a window take given notes only, and bring every record of what arrives. -/
structure Hauls (fetcher : Fetcher) (window : HeightRange) (arrivals : List Nat)
    (received failed : Nat) (before after : Haul) (notes : List Activity) : Prop where
  same : ∀ {κ : Type} (consumer : Consumer κ) (state : κ),
    fetcher.haulFrom consumer window arrivals received failed before state =
      (after, consumer.noteAll notes state)
  records : after.records = (fetcher.answers arrivals).reverse ++ before.records
  sound : (after.panicked = false ∧ after.failures = []) ↔
    (before.panicked = false ∧ before.failures = []) ∧
      ∀ height ∈ arrivals, (fetcher.recordAt? height).isSome

/-- The notes that are taken of the progress of a window. -/
def progressNotes (window : HeightRange) (received failed : Nat) : List Activity :=
  if received % 1000 = 0 then [.event (Haul.progressEvent window received failed)] else []

theorem noteProgressEq {κ : Type} (consumer : Consumer κ) (window : HeightRange)
    (received failed : Nat) (state : κ) :
    noteProgress consumer window received failed state =
      consumer.noteAll (progressNotes window received failed) state := by
  unfold noteProgress progressNotes
  split <;> rfl

section Arrivals

variable {fetcher : Fetcher} {window : HeightRange} {height : Nat} {rest : List Nat}
  {received failed : Nat} {before after : Haul} {notes : List Activity}

theorem haulsRecord {record : Record} (fetched : (fetcher height).fetched = .record record)
    (others : fetcher.Hauls window rest (received + 1) failed
      { before with records := (height, record) :: before.records } after notes) :
    fetcher.Hauls window (height :: rest) received failed before after
      (fetcher.requestNotes height ++ (progressNotes window (received + 1) failed ++ notes)) where
  same := by
    intro κ consumer state
    simp only [haulFrom, Consumer.askEq, fetched, noteProgressEq, others.same,
      Consumer.noteAllAppend]
  records := by simp [others.records, answers, recordAtOfRecord fetched]
  sound := by simpa [recordAtOfRecord fetched] using others.sound

theorem haulsFailure {error : FetchError} (fetched : (fetcher height).fetched = .failure error)
    (others : fetcher.Hauls window rest (received + 1) (failed + 1)
      { before with failures := (height, error) :: before.failures } after notes) :
    fetcher.Hauls window (height :: rest) received failed before after
      (fetcher.requestNotes height ++ ([.event (fetchFailedEvent height error)] ++
        (progressNotes window (received + 1) (failed + 1) ++ notes))) where
  same := by
    intro κ consumer state
    simp only [haulFrom, Consumer.askEq, fetched, noteProgressEq, others.same,
      Consumer.noteAllAppend, Consumer.logEq]
  records := by simp [others.records, answers, recordAtOfFailure fetched]
  sound := by simpa [recordAtOfFailure fetched] using others.sound

theorem haulsPanicked (fetched : (fetcher height).fetched = .panicked)
    (others : fetcher.Hauls window rest received failed { before with panicked := true } after
      notes) :
    fetcher.Hauls window (height :: rest) received failed before after
      (fetcher.requestNotes height ++ notes) where
  same := by
    intro κ consumer state
    simp only [haulFrom, Consumer.askEq, fetched, others.same, Consumer.noteAllAppend]
  records := by simp [others.records, answers, recordAtOfPanicked fetched]
  sound := by simpa [recordAtOfPanicked fetched] using others.sound

end Arrivals

/-- The workers of a window only take notes, and bring every record of the heights that arrive. -/
theorem haulFromNotes (fetcher : Fetcher) (window : HeightRange) (arrivals : List Nat)
    (received failed : Nat) (before : Haul) :
    ∃ after notes, fetcher.Hauls window arrivals received failed before after notes := by
  induction arrivals generalizing received failed before with
  | nil => exact ⟨before, [], fun _ _ => rfl, by simp [answers], by simp⟩
  | cons height rest inductionHypothesis =>
      cases fetched : (fetcher height).fetched with
      | record record =>
          obtain ⟨after, notes, others⟩ := inductionHypothesis (received + 1) failed
            { before with records := (height, record) :: before.records }
          exact ⟨after, _, haulsRecord fetched others⟩
      | failure error =>
          obtain ⟨after, notes, others⟩ := inductionHypothesis (received + 1) (failed + 1)
            { before with failures := (height, error) :: before.failures }
          exact ⟨after, _, haulsFailure fetched others⟩
      | panicked =>
          obtain ⟨after, notes, others⟩ :=
            inductionHypothesis received failed { before with panicked := true }
          exact ⟨after, _, haulsPanicked fetched others⟩

/-- Answers with ascending heights are what comes of sorting them, in whatever order they arrive. -/
theorem byHeightOfPerm {α : Type} {arrived sorted : List (Nat × α)}
    (ascending : (sorted.map Prod.fst).Pairwise (· < ·)) (perm : arrived.Perm sorted) :
    byHeight arrived = sorted := by
  have ordered : (byHeight arrived).Pairwise fun first second => first.1 ≤ second.1 := by
    have sorting := @List.pairwise_mergeSort (Nat × α)
      (fun first second => decide (first.1 ≤ second.1)) (by simp only [decide_eq_true_eq]; omega)
      (by simp only [Bool.or_eq_true, decide_eq_true_eq]; omega) arrived
    simpa [byHeight] using sorting
  have keyed : sorted.Pairwise fun first second => first.1 ≤ second.1 :=
    (List.pairwise_map.mp ascending).imp Nat.le_of_lt
  have moved : (byHeight arrived).Perm sorted := (List.mergeSort_perm _ _).trans perm
  refine List.Perm.eq_of_pairwise ?_ ordered keyed moved
  intro first second firstMem secondMem lower upper
  exact List.inj_on_of_nodup_map (ascending.imp Nat.ne_of_lt) (moved.mem_iff.mp firstMem) secondMem
    (Nat.le_antisymm lower upper)

/-- Answers to all heights of an ascending list, sorted by height, are the records of the heights
in order. -/
theorem byHeightRecords {fetcher : Fetcher} {arrivals heights : List Nat}
    (records : List (Nat × Record)) (ascending : heights.Pairwise (· < ·))
    (arrived : arrivals.Perm heights)
    (full : ∀ height ∈ arrivals, (fetcher.recordAt? height).isSome)
    (brought : records.Perm (fetcher.answers arrivals)) :
    heights.map fetcher.recordAt? = ((byHeight records).map Prod.snd).map some := by
  have firsts : (fetcher.answers heights).map Prod.fst = heights :=
    answersHeights fun height inside => full height (arrived.mem_iff.mpr inside)
  have sorted : byHeight records = fetcher.answers heights :=
    byHeightOfPerm (by rwa [firsts]) (brought.trans (arrived.filterMap _))
  rw [sorted]
  conv_lhs => rw [← firsts]
  rw [List.map_map, List.map_map]
  exact List.map_congr_left fun answer member => (memAnswers member).2

/-- The calls by which a window is handed on after `emitted` records. -/
def handing (range window : HeightRange) (emitted : Nat) (notes : List Activity)
    (records : List Record) : List Call :=
  notes.map .note ++ (records.map .consume ++
    [.checkpoint, .note (.event (windowEvent range window (emitted + records.length)))])

section Window

variable {fetcher : Fetcher} {crew : Crew} {range window : HeightRange} {emitted : Nat}
  {haul : Haul} {notes : List Activity}

theorem lengthSortedRecords (haul : Haul) : haul.sortedRecords.length = haul.records.length := by
  rw [Haul.sortedRecords, List.length_map, byHeight, List.length_mergeSort]

/-- A haul with a failure or a panic lacks the record of some height of the window. -/
theorem servesOfSpoilt (acquired : Acquired)
    (hauls : fetcher.Hauls window (crew.arrivals window) 0 0 .blank haul notes)
    (unsound : ¬(haul.panicked = false ∧ haul.failures = []))
    (never : ∀ count, acquired ≠ .emitted count) :
    fetcher.Serves window.heights emitted acquired (Call.records (notes.map .note)) := by
  have lacking : ¬∀ height ∈ crew.arrivals window, (fetcher.recordAt? height).isSome :=
    fun full => unsound (hauls.sound.mpr ⟨⟨rfl, rfl⟩, full⟩)
  simp only [not_forall, Option.not_isSome_iff_eq_none] at lacking
  obtain ⟨height, inside, absent⟩ := lacking
  exact servesOfLacking ((crew.arrivalsPerm window).mem_iff.mp inside) absent
    (by simpa using givesNil _ _) never

/-- A haul without failure has the record of every height of the window. -/
theorem servesOfSound (emitted : Nat)
    (hauls : fetcher.Hauls window (crew.arrivals window) 0 0 .blank haul notes)
    (sound : haul.panicked = false ∧ haul.failures = []) :
    fetcher.Serves window.heights emitted (.emitted (emitted + haul.records.length))
      haul.sortedRecords := by
  have brought : haul.records.Perm (fetcher.answers (crew.arrivals window)) := by
    rw [hauls.records, Haul.blank, List.append_nil]
    exact List.reverse_perm _
  have all : window.heights.map fetcher.recordAt? = haul.sortedRecords.map some :=
    byHeightRecords haul.records window.heightsAscend (crew.arrivalsPerm window)
      (hauls.sound.mp sound).2 brought
  have count : haul.records.length = window.heights.length := by
    have lengths := congrArg List.length all
    simp only [List.length_map] at lengths
    rw [lengths, lengthSortedRecords]
  refine ⟨givesOfMap all, ?_, fun _ => by rw [count]⟩
  rintro _ ⟨⟩
  exact ⟨by rw [count], all⟩

/-- A window whose haul has no failure is handed on as a whole. -/
theorem acquireWindowHands {κ : Type} (consumer : Consumer κ) (state : κ)
    (hauls : fetcher.Hauls window (crew.arrivals window) 0 0 .blank haul notes)
    (panicked : haul.panicked = false) (clean : haul.failures = []) :
    fetcher.acquireWindow consumer crew range window emitted state =
      consumer.perform .ended (.emitted (emitted + haul.records.length))
        (handing range window emitted notes haul.sortedRecords) state := by
  simp only [acquireWindow, haulWindow, hauls.same, panicked, clean, List.isEmpty_nil,
    Bool.not_true, Bool.false_eq_true, if_false]
  rw [handing, Consumer.performNotes, Consumer.performAppend, Consumer.followConsume,
    lengthSortedRecords]
  cases consumer.consumeAll haul.sortedRecords (consumer.noteAll notes state) with
  | mk taken next =>
      cases taken with
      | error cause => rfl
      | ok =>
          simp only [Consumer.perform, Consumer.follow, Consumer.make]
          cases consumer.checkpoint next with
          | mk settled last => cases settled <;> rfl

end Window

/-- A window is handed on as a whole or not at all. -/
theorem acquireWindowPerforms (fetcher : Fetcher) (crew : Crew) (range window : HeightRange)
    (emitted : Nat) :
    ∃ acquired calls,
      (∀ {κ : Type} (consumer : Consumer κ) (state : κ),
        fetcher.acquireWindow consumer crew range window emitted state =
          consumer.perform .ended acquired calls state) ∧
      fetcher.Serves window.heights emitted acquired (Call.records calls) := by
  obtain ⟨haul, notes, hauls⟩ :=
    fetcher.haulFromNotes window (crew.arrivals window) 0 0 .blank
  cases panicked : haul.panicked with
  | true =>
      refine ⟨.ended workerPanicked, notes.map .note, ?_,
        servesOfSpoilt _ hauls (by simp [panicked]) (by simp)⟩
      intro κ consumer state
      simp only [acquireWindow, haulWindow, hauls.same, panicked, if_true,
        Consumer.performNotesOnly]
  | false =>
      by_cases clean : haul.failures = []
      · refine ⟨.emitted (emitted + haul.records.length),
          handing range window emitted notes haul.sortedRecords,
          fun consumer state => acquireWindowHands consumer state hauls panicked clean, ?_⟩
        simpa [handing] using servesOfSound emitted hauls ⟨panicked, clean⟩
      · refine ⟨.failed (.ofFailures range haul.sortedFailures (emitted + haul.records.length)),
          notes.map .note, ?_, servesOfSpoilt _ hauls (by simp [clean]) (by simp)⟩
        intro κ consumer state
        simp [acquireWindow, haulWindow, hauls.same, panicked, clean, Consumer.performNotesOnly]

section Windows

variable {κ : Type} {fetcher : Fetcher} {consumer : Consumer κ} {crew : Crew}
  {range left rest : HeightRange} {width emitted : Nat} {acquired : Acquired} {calls : List Call}
  {state : κ}

/-- The last window of a range ends its acquisition. -/
theorem acquireWindowsLast (split : (left.splitWindow width).2 = none) :
    fetcher.acquireWindows consumer crew range width left emitted state =
      fetcher.acquireWindow consumer crew range left emitted state := by
  rw [acquireWindows, HeightRange.splitWindowLast split]
  split
  · split <;> simp_all
  · simp_all

/-- A window that is handed on is followed by the rest of the range. -/
theorem acquireWindowsMore {middle : Nat} {more : List Call}
    (split : (left.splitWindow width).2 = some rest)
    (same : fetcher.acquireWindow consumer crew range (left.splitWindow width).1 emitted state =
      consumer.perform .ended (.emitted middle) calls state)
    (sameRest : ∀ next, fetcher.acquireWindows consumer crew range width rest middle next =
      consumer.perform .ended acquired more next) :
    fetcher.acquireWindows consumer crew range width left emitted state =
      consumer.perform .ended acquired (calls ++ more) state := by
  rw [acquireWindows, same, Consumer.performAppend, Consumer.perform]
  cases consumer.follow calls state with
  | mk result next =>
      cases result with
      | error cause => rfl
      | ok =>
          dsimp only
          split
          · simp_all
          · rename_i found
            obtain rfl := Option.some.inj (split.symm.trans found)
            exact sameRest next

/-- A window that is not handed on ends the acquisition of its range. -/
theorem acquireWindowsStop (never : ∀ count, acquired ≠ .emitted count)
    (same : fetcher.acquireWindow consumer crew range (left.splitWindow width).1 emitted state =
      consumer.perform .ended acquired calls state) :
    fetcher.acquireWindows consumer crew range width left emitted state =
      consumer.perform .ended acquired calls state := by
  rw [acquireWindows, same, Consumer.perform]
  cases consumer.follow calls state with
  | mk result next =>
      cases result with
      | error cause => rfl
      | ok =>
          cases acquired with
          | emitted count => exact absurd rfl (never count)
          | failed error => rfl
          | ended cause => rfl

end Windows

/-- Windows one after another serve what is left of a range. -/
theorem acquireWindowsPerforms (fetcher : Fetcher) (crew : Crew) (range : HeightRange)
    (width : Nat) (left : HeightRange) (emitted : Nat) :
    ∃ acquired calls,
      (∀ {κ : Type} (consumer : Consumer κ) (state : κ),
        fetcher.acquireWindows consumer crew range width left emitted state =
          consumer.perform .ended acquired calls state) ∧
      fetcher.Serves left.heights emitted acquired (Call.records calls) := by
  induction size : left.size using Nat.strong_induction_on generalizing left emitted with
  | _ size inductionHypothesis =>
      obtain ⟨acquired, calls, same, served⟩ :=
        fetcher.acquireWindowPerforms crew range (left.splitWindow width).1 emitted
      cases split : (left.splitWindow width).2 with
      | none =>
          rw [HeightRange.splitWindowLast split] at same served
          exact ⟨acquired, calls, fun consumer state => (acquireWindowsLast split).trans
            (same consumer state), served⟩
      | some rest =>
          have shorter := HeightRange.splitWindowRest split
          rw [HeightRange.splitWindowHeights split]
          have stopped (never : ∀ count, acquired ≠ .emitted count) :=
            servesStop rest.heights served never
          cases acquired with
          | emitted middle =>
              obtain ⟨acquired, more, sameRest, servedRest⟩ :=
                inductionHypothesis rest.size (size ▸ shorter) rest middle rfl
              refine ⟨acquired, calls ++ more, fun consumer state =>
                acquireWindowsMore split (same consumer state) (sameRest consumer), ?_⟩
              rw [Call.recordsAppend]
              exact servesAppend served servedRest
          | failed error =>
              exact ⟨_, calls, fun consumer state =>
                acquireWindowsStop (by simp) (same consumer state), stopped (by simp)⟩
          | ended cause =>
              exact ⟨_, calls, fun consumer state =>
                acquireWindowsStop (by simp) (same consumer state), stopped (by simp)⟩

/-- A crew serves a range. -/
theorem acquireParallelPerforms (fetcher : Fetcher) (crew : Crew) (width : Nat)
    (range : HeightRange) :
    ∃ acquired calls,
      (∀ {κ : Type} (consumer : Consumer κ) (state : κ),
        fetcher.acquireParallel consumer crew width range state =
          consumer.perform .ended acquired calls state) ∧
      fetcher.Serves range.heights 0 acquired (Call.records calls) :=
  fetcher.acquireWindowsPerforms crew range width range 0

end Fetcher

end Backfill
