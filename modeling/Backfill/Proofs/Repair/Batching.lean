/-
This file shows that it does not matter to a range in which batches its records are handed to a sink,
nor when they are committed: what becomes of them is what comes of applying them one by one.
-/

import Backfill.Proofs.Height.Sorted
import Backfill.Proofs.Repair.Watched
import Backfill.Proofs.Replica.Backed

namespace Backfill

/-- What comes of records that are applied one by one: a content with those that are accepted, their
number, and those that are refused. -/
structure Tally (γ : Type) where
  content : γ
  applied : Nat
  refused : List Record

namespace Tally

variable {γ : Type}

/-- Nothing is applied yet. -/
def blank (content : γ) : Tally γ :=
  ⟨content, 0, []⟩

variable (accepts : γ → Record → Bool) (put : γ → Record → γ)

/-- The tally after one more record. -/
def enter (tally : Tally γ) (record : Record) : Tally γ :=
  if accepts tally.content record then
    { tally with content := put tally.content record, applied := tally.applied + 1 }
  else { tally with refused := tally.refused ++ [record] }

/-- The tally of records in order. -/
def ofRecords (start : γ) (records : List Record) : Tally γ :=
  records.foldl (enter accepts put) (blank start)

/-- Whether records are all accepted when they are applied one by one. -/
def acceptsAll : γ → List Record → Bool
  | _, [] => true
  | content, record :: rest => accepts content record && acceptsAll (put content record) rest

variable {accepts : γ → Record → Bool} {put : γ → Record → γ}

/-- A batch whose records are all accepted is tallied as a whole. -/
theorem ofAccepted {start : γ} {before batch : List Record}
    (all : acceptsAll accepts put (ofRecords accepts put start before).content batch = true) :
    ofRecords accepts put start (before ++ batch) =
      { ofRecords accepts put start before with
        content := batch.foldl put (ofRecords accepts put start before).content
        applied := (ofRecords accepts put start before).applied + batch.length } := by
  rw [ofRecords, List.foldl_append, ← ofRecords]
  generalize ofRecords accepts put start before = tally at all ⊢
  induction batch generalizing tally with
  | nil => rfl
  | cons record rest inductionHypothesis =>
      rw [acceptsAll, Bool.and_eq_true] at all
      rw [List.foldl_cons, enter, if_pos all.1, inductionHypothesis _ all.2, List.length_cons,
        List.foldl_cons, Nat.add_right_comm, Nat.add_assoc]

/-- A single record that is refused is tallied as such. -/
theorem ofRefused {start : γ} {before : List Record} {record : Record}
    (refused : acceptsAll accepts put (ofRecords accepts put start before).content [record] = false) :
    ofRecords accepts put start (before ++ [record]) =
      { ofRecords accepts put start before with
        refused := (ofRecords accepts put start before).refused ++ [record] } := by
  rw [acceptsAll, acceptsAll, Bool.and_true] at refused
  rw [ofRecords, List.foldl_append, ← ofRecords, List.foldl_cons, List.foldl_nil, enter, refused]
  rfl

end Tally

/-- A sink with states of type `σ` and contents of type `γ` puts a batch into its content exactly if
it would accept the records one by one. -/
structure Sink.Stepwise {σ γ : Type} (sink : Sink σ) (content : σ → γ) (busy : σ → Prop)
    (accepts : Bool → γ → Record → Bool) (put : Bool → γ → Record → γ) : Prop where
  begun : ∀ {state next}, sink.begin state = (.ok (), next) →
    busy next ∧ content next = content state
  applied : ∀ {update records state next}, busy state →
    sink.apply update records state = (.ok (), next) →
    busy next ∧ Tally.acceptsAll (accepts update) (put update) (content state) records = true ∧
      content next = records.foldl (put update) (content state)
  refused : ∀ {update records state cause next}, busy state →
    sink.apply update records state = (.error cause, next) →
    busy next ∧ Tally.acceptsAll (accepts update) (put update) (content state) records = false ∧
      content next = content state
  committed : ∀ {state next}, busy state → sink.commit state = (.ok (), next) →
    content next = content state

namespace Replica

/-- A store that keeps its records in a replica acts stepwise: it accepts the records that can be
stored. -/
theorem stepwiseOfBacked {σ : Type} {store : Store σ} {replica : σ → Replica}
    (backed : store.Backed replica) :
    store.toSink.Stepwise (fun state => (replica state).visible)
      (fun state => (replica state).working ≠ none) (fun _ _ record => record.isStorable)
      Tables.write := by
  have all (update : Bool) (records : List Record) (tables : Tables) :
      Tally.acceptsAll (fun _ record => record.isStorable) (Tables.write update) tables records =
        records.all Record.isStorable := by
    induction records generalizing tables with
    | nil => rfl
    | cons record rest inductionHypothesis =>
        rw [Tally.acceptsAll, inductionHypothesis, List.all_cons]
  constructor
  · intro state next answer
    obtain ⟨closed, same⟩ := backed.begun answer
    rw [same, visible, visible, closed]
    exact ⟨by simp, rfl⟩
  · intro update records state next _ answer
    obtain ⟨written, working, _, storable⟩ := workingOfApply (backed.applied answer)
    rw [all, List.all_eq_true]
    exact ⟨working, storable, written⟩
  · intro update records state cause next busy answer
    obtain ⟨same, unstorable⟩ := sameOfRefusal (backed.applied answer)
    obtain ⟨record, member, refused⟩ := unstorable busy
    rw [all, List.all_eq_false, same]
    exact ⟨busy, ⟨record, member, by simp [refused]⟩, rfl⟩
  · intro state next busy answer
    obtain ⟨tables, working, same⟩ := backed.committed answer
    rw [same, visible, visible, working]
    rfl

end Replica

namespace Committer

variable {σ γ : Type} {sink : Sink σ} {content : σ → γ} {busy : σ → Prop}
  {accepts : Bool → γ → Record → Bool} {put : Bool → γ → Record → γ} {update : Bool} {start : γ}

/-- A committer that has handed on some records has done what the tally of them says. -/
structure Tallies (content : σ → γ) (busy : σ → Prop) (accepts : Bool → γ → Record → Bool)
    (put : Bool → γ → Record → γ) (update : Bool) (start : γ) (records : List Record)
    (committer : Committer (Traced σ)) : Prop where
  mode : committer.update = update
  busy : committer.inTransaction = true → busy committer.sink.inner
  content : content committer.sink.inner =
    (Tally.ofRecords (accepts update) (put update) start records).content
  applied : committer.stats.applied =
    (Tally.ofRecords (accepts update) (put update) start records).applied
  failed : committer.stats.failed.reverse =
    Record.heights (Tally.ofRecords (accepts update) (put update) start records).refused

section Answers

variable {records batch : List Record} {record : Record} {cause : ReplicaError}
  {committer other : Committer (Traced σ)} {next : Traced σ}

theorem talliesAlike
    (tallies : Tallies content busy accepts put update start records committer)
    (alike : Alike committer other) :
    Tallies content busy accepts put update start records other := by
  constructor
  · rw [alike.update, tallies.mode]
  · rw [alike.sink, alike.inTransaction]
    exact tallies.busy
  · rw [alike.sink, tallies.content]
  · rw [alike.stats, tallies.applied]
  · rw [alike.stats, tallies.failed]

/-- Opening a transaction leaves the content as it is. -/
theorem talliesBegun (stepwise : sink.Stepwise content busy accepts put)
    (tallies : Tallies content busy accepts put update start records committer)
    (answer : sink.watched.begin committer.sink = (.ok (), next)) :
    Tallies content busy accepts put update start records (committer.opened next) := by
  obtain ⟨answered, _⟩ := Traced.recordEq answer
  obtain ⟨opens, same⟩ := stepwise.begun answered
  exact ⟨tallies.mode, fun _ => opens, same.trans tallies.content, tallies.applied, tallies.failed⟩

/-- The records of a batch that was applied are accepted one by one. -/
theorem talliesApplied (stepwise : sink.Stepwise content busy accepts put)
    (tallies : Tallies content busy accepts put update start records committer)
    (inside : committer.inTransaction = true)
    (answer : sink.watched.apply committer.update batch committer.sink = (.ok (), next)) :
    Tallies content busy accepts put update start (records ++ batch)
      (committer.written next batch.length) := by
  obtain ⟨answered, _⟩ := Traced.recordEq answer
  obtain ⟨still, all, writes⟩ := stepwise.applied (tallies.busy inside) answered
  rw [tallies.mode, tallies.content] at all writes
  have more := Tally.ofAccepted all
  unfold written
  constructor
  · exact tallies.mode
  · exact fun _ => still
  · rw [writes, more]
  · rw [more, tallies.applied]
  · rw [more, tallies.failed]

/-- A batch that was refused left the content as it was. -/
theorem talliesUnchanged (stepwise : sink.Stepwise content busy accepts put)
    (tallies : Tallies content busy accepts put update start records committer)
    (inside : committer.inTransaction = true)
    (answer : sink.watched.apply committer.update batch committer.sink = (.error cause, next)) :
    Tallies content busy accepts put update start records { committer with sink := next } := by
  obtain ⟨answered, _⟩ := Traced.recordEq answer
  obtain ⟨still, _, same⟩ := stepwise.refused (tallies.busy inside) answered
  exact ⟨tallies.mode, fun _ => still, same.trans tallies.content, tallies.applied, tallies.failed⟩

/-- A record that was refused alone is tallied as such. -/
theorem talliesRefused (stepwise : sink.Stepwise content busy accepts put)
    (tallies : Tallies content busy accepts put update start records committer)
    (inside : committer.inTransaction = true)
    (answer : sink.watched.apply committer.update [record] committer.sink = (.error cause, next)) :
    Tallies content busy accepts put update start (records ++ [record])
      (committer.rejected next record) := by
  obtain ⟨answered, _⟩ := Traced.recordEq answer
  obtain ⟨still, one, same⟩ := stepwise.refused (tallies.busy inside) answered
  rw [tallies.mode, tallies.content] at one
  have more := Tally.ofRefused one
  unfold rejected
  constructor
  · exact tallies.mode
  · exact fun _ => still
  · rw [same, more, tallies.content]
  · rw [more, tallies.applied]
  · rw [more, List.reverse_cons, tallies.failed, Record.heightsAppend]
    rfl

/-- A commit leaves the content as it is. -/
theorem talliesCommitted (stepwise : sink.Stepwise content busy accepts put)
    (tallies : Tallies content busy accepts put update start records committer)
    (inside : committer.inTransaction = true)
    (answer : sink.watched.commit committer.sink = (.ok (), next)) :
    Tallies content busy accepts put update start records (committer.settled next) := by
  obtain ⟨answered, _⟩ := Traced.recordEq answer
  have same := stepwise.committed (tallies.busy inside) answered
  unfold settled
  constructor
  · exact tallies.mode
  · intro again
    cases again
  · exact same.trans tallies.content
  · exact tallies.applied
  · exact tallies.failed

end Answers

/-- Every call to the sink keeps the tally. -/
theorem talliesUpkeep (stepwise : sink.Stepwise content busy accepts put) :
    Upkeep sink.watched
      (fun done sent => Tallies content busy accepts put update start (done ++ sent))
      (fun _ _ committer => ¬committer.sink.Clean) where
  alike := talliesAlike
  alikeBad := by
    intro done cause first second unclean alike
    rwa [alike.sink]
  begun := fun tallies _ answer => talliesBegun stepwise tallies answer
  beginFailed := fun _ _ answer => Sink.uncleanOfBegin answer
  applied := by
    intro done sent committer batch next tallies inside answer
    rw [← List.append_assoc]
    exact talliesApplied stepwise tallies inside answer
  batchRefused := talliesUnchanged stepwise
  refused := by
    intro done sent committer record cause next tallies inside answer
    rw [← List.append_assoc]
    exact talliesRefused stepwise tallies inside answer
  committed := by
    intro done sent committer next tallies inside answer
    rw [List.append_nil]
    exact talliesCommitted stepwise tallies inside answer
  commitFailed := fun _ _ answer => Sink.uncleanOfCommit answer

/-- A range that is ended well comes to the tally of its records, and otherwise a transaction failed
to be opened or committed. -/
theorem workLeavesTally (stepwise : sink.Stepwise content busy accepts put) (cadence : Cadence)
    (range : HeightRange) (update : Bool) (calls : List Call) {before : Committer σ}
    (closed : before.inTransaction = false) :
    let tally := Tally.ofRecords (accepts update) (put update) (content before.sink)
      ((Call.records calls).map repeatable)
    match before.watch.work sink.watched cadence range update calls with
    | (.ok stats, after) => content after.sink.inner = tally.content ∧ ∃ commits,
        stats = ⟨tally.applied, commits, sortedHeights (Record.heights tally.refused).reverse⟩
    | (.error _, after) => ¬after.sink.Clean := by
  have begins : Tallies content busy accepts put update (content before.sink) []
      (before.watch.beginRange range update) := by
    constructor
    · rfl
    · intro inside
      exact absurd (closed.symm.trans inside) (by decide)
    · rfl
    · rfl
    · rfl
  have leaves := (talliesUpkeep stepwise).custody.workLeaves cadence calls begins
  cases answer : before.watch.work sink.watched cadence range update calls with
  | mk result after =>
      rw [answer] at leaves
      cases result with
      | error cause =>
          obtain ⟨done, _, unclean⟩ := leaves
          exact unclean
      | ok stats =>
          obtain ⟨last, tallies, rfl, same, _⟩ := leaves
          rw [List.append_nil] at tallies
          have left := tallies.content
          rw [← same] at left
          refine ⟨left, last.stats.commits, ?_⟩
          rw [← tallies.failed, List.reverse_reverse, ← tallies.applied]

/-- What comes of a range that is ended well is the tally of the records. -/
theorem talliesOfWork (stepwise : sink.Stepwise content busy accepts put) {cadence : Cadence}
    {range : HeightRange} {update : Bool} {calls : List Call} {before after : Committer σ}
    {stats : CommitStats} (closed : before.inTransaction = false)
    (ended : before.work sink cadence range update calls = (.ok stats, after)) :
    let tally := Tally.ofRecords (accepts update) (put update) (content before.sink)
      ((Call.records calls).map repeatable)
    content after.sink = tally.content ∧ ∃ commits,
      stats = ⟨tally.applied, commits, sortedHeights (Record.heights tally.refused).reverse⟩ := by
  have leaves := workLeavesTally stepwise cadence range update calls closed
  rw [workWatched] at ended
  cases answer : before.watch.work sink.watched cadence range update calls with
  | mk result last =>
      rw [answer] at leaves ended
      obtain ⟨rfl, rfl⟩ := Prod.mk.inj ended
      exact leaves

/-- If no transaction fails to be opened or committed, a range is ended well, and what comes of it is
the tally of the records. -/
theorem workTallies (stepwise : sink.Stepwise content busy accepts put) (cadence : Cadence)
    (range : HeightRange) (update : Bool) (calls : List Call) {before : Committer σ}
    (closed : before.inTransaction = false)
    (clean : (before.sinkTrace sink cadence range update calls).Clean) :
    let tally := Tally.ofRecords (accepts update) (put update) (content before.sink)
      ((Call.records calls).map repeatable)
    let answer := before.work sink cadence range update calls
    content answer.2.sink = tally.content ∧ ∃ commits, answer.1 =
      .ok ⟨tally.applied, commits, sortedHeights (Record.heights tally.refused).reverse⟩ := by
  have leaves := workLeavesTally stepwise cadence range update calls closed
  rw [workWatched]
  unfold sinkTrace at clean
  cases answer : before.watch.work sink.watched cadence range update calls with
  | mk result after =>
      rw [answer] at leaves clean
      cases result with
      | error cause => exact absurd clean leaves
      | ok stats =>
          obtain ⟨left, commits, rfl⟩ := leaves
          exact ⟨left, commits, rfl⟩

/-- Two committers that take the same records, in batches of any size and with commits and checkpoints
at any places, leave the same behind if no transaction fails to be opened or committed: both leave
what comes of applying the records one by one, and both name the heights of the refused ones,
ascending. -/
theorem batchingInvisible (stepwise : sink.Stepwise content busy accepts put) (range : HeightRange)
    (update : Bool) {before : Committer σ} (closed : before.inTransaction = false)
    (firstCadence secondCadence : Cadence) {firstCalls secondCalls : List Call}
    (same : Call.records firstCalls = Call.records secondCalls)
    (firstClean : (before.sinkTrace sink firstCadence range update firstCalls).Clean)
    (secondClean : (before.sinkTrace sink secondCadence range update secondCalls).Clean) :
    let tally := Tally.ofRecords (accepts update) (put update) (content before.sink)
      ((Call.records firstCalls).map repeatable)
    let first := before.work sink firstCadence range update firstCalls
    let second := before.work sink secondCadence range update secondCalls
    ∃ firstStats secondStats, first.1 = .ok firstStats ∧ second.1 = .ok secondStats ∧
      content first.2.sink = tally.content ∧ content second.2.sink = tally.content ∧
      firstStats.applied = tally.applied ∧ secondStats.applied = tally.applied ∧
      firstStats.failed = secondStats.failed ∧ firstStats.failed.Pairwise (· < ·) ∧
      ∀ height, height ∈ firstStats.failed ↔
        ∃ record ∈ tally.refused, record.height.toNat = height := by
  obtain ⟨firstContent, firstCommits, firstEnds⟩ :=
    workTallies stepwise firstCadence range update firstCalls closed firstClean
  obtain ⟨secondContent, secondCommits, secondEnds⟩ :=
    workTallies stepwise secondCadence range update secondCalls closed secondClean
  rw [← same] at secondContent secondEnds
  refine ⟨_, _, firstEnds, secondEnds, firstContent, secondContent, rfl, rfl, rfl,
    sortedHeightsAscend _, ?_⟩
  intro height
  rw [memSortedHeights, List.mem_reverse, Record.heights, List.mem_map]

/-- Three blocks, of which the second one has a height that does not fit its column. -/
def misfit : List Record :=
  [.blank 1, .blank (maxSigned + 1), .blank 2]

/-- One by one, or in one batch before a checkpoint, the two blocks that fit are applied and the height
of the other one is named. -/
theorem batchingOfMisfit :
    let range : HeightRange := { start := 1, stop := 2 }
    let before := new Replica.empty
    let first := before.work Replica.store.toSink { interval := 1, batchSize := 1 } range false
      (misfit.map .consume)
    let second := before.work Replica.store.toSink { interval := 5, batchSize := 4 } range false
      (misfit.map .consume ++ [.checkpoint])
    before.inTransaction = false ∧
      ∃ firstStats secondStats, first.1 = .ok firstStats ∧ second.1 = .ok secondStats ∧
        first.2.sink.visible = second.2.sink.visible ∧
        firstStats.applied = 2 ∧ secondStats.applied = 2 ∧
        firstStats.failed = secondStats.failed ∧
        ∀ height, height ∈ firstStats.failed ↔ height = maxSigned + 1 := by
  have tallied : (Tally.ofRecords (fun _ record => record.isStorable) (Tables.write false)
      Tables.empty ((Call.records (misfit.map .consume)).map repeatable)).applied = 2 := by
    decide +kernel
  have refused : (Tally.ofRecords (fun _ record => record.isStorable) (Tables.write false)
      Tables.empty ((Call.records (misfit.map .consume)).map repeatable)).refused =
        [.blank (maxSigned + 1)] := by
    decide +kernel
  obtain ⟨firstStats, secondStats, firstEnds, secondEnds, firstLeft, secondLeft, firstApplied,
    secondApplied, failed, _, named⟩ := batchingInvisible
      (Replica.stepwiseOfBacked Replica.storeBacked) { start := 1, stop := 2 } false
      (show (new Replica.empty).inTransaction = false from rfl)
      { interval := 1, batchSize := 1 } { interval := 5, batchSize := 4 }
      (show Call.records (misfit.map .consume) =
        Call.records (misfit.map .consume ++ [.checkpoint]) from rfl)
      (by decide +kernel) (by decide +kernel)
  refine ⟨rfl, firstStats, secondStats, firstEnds, secondEnds, firstLeft.trans secondLeft.symm,
    firstApplied.trans tallied, secondApplied.trans tallied, failed, ?_⟩
  intro height
  rw [named]
  show (∃ record ∈ (Tally.ofRecords (fun _ record => record.isStorable) (Tables.write false)
      Tables.empty ((Call.records (misfit.map .consume)).map repeatable)).refused, _) ↔ _
  rw [refused, eq_comm]
  simp [Record.blank, maxSigned]

end Committer

end Backfill
