/-
This file works off a range with a committer whose sink is watched: the calls to the sink are written
down, and this does not change what they come to.
-/

import Backfill.Proofs.Repair.Upkeep
import Backfill.Replica.Trace

namespace Backfill

/-- A sink mirrors another one if every call leads from images of states to images of states and is
answered alike. -/
structure Sink.Mirrors {σ τ : Type} (first : Sink σ) (second : Sink τ) (image : σ → τ) : Prop where
  begin : ∀ state, second.begin (image state) = Prod.map id image (first.begin state)
  apply : ∀ update records state,
    second.apply update records (image state) = Prod.map id image (first.apply update records state)
  commit : ∀ state, second.commit (image state) = Prod.map id image (first.commit state)
  rollback : ∀ state, second.rollback (image state) = Prod.map id image (first.rollback state)
  applied : ∀ count, second.applied count = first.applied count

/-- No call is refused. -/
def Outages.none : Outages :=
  fun _ _ => .none

/-- The sink with its calls traced and none of them refused. -/
def Sink.watched {σ : Type} (sink : Sink σ) : Sink (Traced σ) :=
  sink.traced .none

/-- Tracing calls changes nothing about them. -/
theorem Sink.watchedMirrors {σ : Type} (sink : Sink σ) :
    sink.watched.Mirrors sink Traced.inner where
  begin := fun _ => rfl
  apply := fun _ _ _ => rfl
  commit := fun _ => rfl
  rollback := fun _ => rfl
  applied := fun _ => rfl

/-- A trace is clean if no transaction failed to be opened or to be committed in it. -/
def Traced.Clean {σ : Type} (traced : Traced σ) : Prop :=
  (SinkCall.begin, false) ∉ traced.calls ∧ (SinkCall.commit, false) ∉ traced.calls

instance {σ : Type} (traced : Traced σ) : Decidable traced.Clean :=
  inferInstanceAs (Decidable (_ ∧ _))

theorem Traced.newClean {σ : Type} (inner : σ) : (Traced.new inner).Clean :=
  ⟨List.not_mem_nil, List.not_mem_nil⟩

/-- The answer of a traced call is the answer of the call, which is written down. -/
theorem Traced.recordEq {σ : Type} {call : SinkCall} {before next : Traced σ}
    {answer : Except ReplicaError Unit × σ} {result : Except ReplicaError Unit}
    (recorded : before.record call answer = (result, next)) :
    answer = (result, next.inner) ∧ next.calls = (call, result.toBool) :: before.calls := by
  obtain ⟨rfl, rfl⟩ := Prod.mk.inj recorded
  exact ⟨rfl, rfl⟩

/-- A call that does not fail to open or to commit a transaction leaves a clean trace clean. -/
theorem Traced.cleanOfCall {σ : Type} {before next : Traced σ} {call : SinkCall × Bool}
    (clean : before.Clean) (calls : next.calls = call :: before.calls)
    (fine : call ≠ (.begin, false) ∧ call ≠ (.commit, false)) : next.Clean := by
  unfold Clean
  rw [calls, List.mem_cons, List.mem_cons]
  exact ⟨not_or.mpr ⟨fine.1.symm, clean.1⟩, not_or.mpr ⟨fine.2.symm, clean.2⟩⟩

/-- A transaction that cannot be opened spoils a trace. -/
theorem Sink.uncleanOfBegin {σ : Type} {sink : Sink σ} {before next : Traced σ}
    {cause : ReplicaError} (answer : sink.watched.begin before = (.error cause, next)) :
    ¬next.Clean := by
  obtain ⟨_, calls⟩ := Traced.recordEq answer
  intro clean
  apply clean.1
  rw [calls]
  exact List.mem_cons_self

/-- A transaction that cannot be committed spoils a trace, also once it is rolled back. -/
theorem Sink.uncleanOfCommit {σ : Type} {sink : Sink σ} {before next : Traced σ}
    {cause : ReplicaError} (answer : sink.watched.commit before = (.error cause, next)) :
    ¬(sink.watched.rollback next).2.Clean := by
  obtain ⟨_, calls⟩ := Traced.recordEq answer
  cases undone : sink.watched.rollback next with
  | mk result last =>
      obtain ⟨_, moreCalls⟩ := Traced.recordEq undone
      intro clean
      apply clean.2
      rw [moreCalls, calls]
      exact List.mem_cons_of_mem _ List.mem_cons_self

namespace Committer

section Image

variable {σ τ α : Type} {first : Sink σ} {second : Sink τ} {image : σ → τ}

/-- The committer with the image of its sink. -/
def map (image : σ → τ) (committer : Committer σ) : Committer τ :=
  { committer with sink := image committer.sink }

/-- An answer with the image of the sink that it leaves. -/
def mapAnswer (image : σ → τ) (answer : Except RunError α × Committer σ) :
    Except RunError α × Committer τ :=
  (answer.1, answer.2.map image)

theorem noteAppliedMap (mirrors : first.Mirrors second image) (count : Nat)
    (committer : Committer σ) :
    noteApplied second count (committer.map image) =
      (noteApplied first count committer).map image := by
  rw [noteApplied, noteApplied, logAllEq, logAllEq, mirrors.applied]
  rfl

theorem applyOneMap (mirrors : first.Mirrors second image) (committer : Committer σ)
    (record : Record) :
    applyOne second (committer.map image) record = (applyOne first committer record).map image := by
  simp only [applyOne, map, mirrors.apply]
  cases first.apply committer.update [record] committer.sink with
  | mk result next =>
      cases result with
      | ok => exact noteAppliedMap mirrors 1 { committer with sink := next }
      | error cause => rfl

theorem applyBatchMap (mirrors : first.Mirrors second image) (batch : List Record)
    (committer : Committer σ) :
    applyBatch second batch (committer.map image) = (applyBatch first batch committer).map image := by
  have each (records : List Record) (committer : Committer σ) :
      records.foldl (applyOne second) (committer.map image) =
        (records.foldl (applyOne first) committer).map image := by
    induction records generalizing committer with
    | nil => rfl
    | cons record rest inductionHypothesis =>
        rw [List.foldl_cons, List.foldl_cons, applyOneMap mirrors, inductionHypothesis]
  simp only [applyBatch, map, mirrors.apply]
  cases first.apply committer.update batch committer.sink with
  | mk result next =>
      cases result with
      | ok => exact noteAppliedMap mirrors batch.length { committer with sink := next }
      | error cause => exact each batch (log (batchEvent batch cause) { committer with sink := next })

theorem commitMap (mirrors : first.Mirrors second image) (committer : Committer σ) :
    (committer.map image).commit second = mapAnswer image (committer.commit first) := by
  simp only [commit, map, mirrors.commit]
  cases first.commit committer.sink with
  | mk result next =>
      cases result with
      | ok => rfl
      | error cause =>
          simp only [Prod.map_apply, id, mirrors.rollback]
          cases first.rollback next with
          | mk result last => cases result <;> rfl

theorem openTransactionMap (mirrors : first.Mirrors second image) (committer : Committer σ) :
    (committer.map image).openTransaction second =
      mapAnswer image (committer.openTransaction first) := by
  simp only [openTransaction, map, mirrors.begin]
  split
  · rfl
  · cases first.begin committer.sink with
    | mk result next => cases result <;> rfl

theorem flushMap (mirrors : first.Mirrors second image) (cadence : Cadence)
    (committer : Committer σ) :
    (committer.map image).flush second cadence =
      mapAnswer image (committer.flush first cadence) := by
  unfold flush
  rw [openTransactionMap mirrors]
  show (if committer.buffer.isEmpty then _ else _) = _
  split
  · rfl
  · cases committer.openTransaction first with
    | mk result begun =>
        cases result with
        | error cause => rfl
        | ok =>
            have written := applyBatchMap mirrors begun.buffer.reverse { begun with buffer := [] }
            simp only [map] at written
            simp only [mapAnswer, map, written]
            split
            · exact commitMap mirrors _
            · rfl

theorem commitPendingMap (mirrors : first.Mirrors second image) (cadence : Cadence)
    (committer : Committer σ) :
    (committer.map image).commitPending second cadence =
      mapAnswer image (committer.commitPending first cadence) := by
  unfold commitPending
  rw [flushMap mirrors]
  cases committer.flush first cadence with
  | mk result flushed =>
      cases result with
      | error cause => rfl
      | ok =>
          simp only [mapAnswer, map]
          split
          · exact commitMap mirrors flushed
          · rfl

theorem makeRoomMap (mirrors : first.Mirrors second image) (cadence : Cadence)
    (operation : Operation) (committer : Committer σ) :
    (committer.map image).makeRoom second cadence operation =
      mapAnswer image (committer.makeRoom first cadence operation) := by
  obtain ⟨sink, range, update, buffer, inTransaction, sinceCommit, stats, totalCommits, journal⟩ :=
    committer
  cases buffer with
  | nil => rfl
  | cons last rest =>
      simp only [makeRoom, map]
      split
      · rfl
      · exact flushMap mirrors cadence ⟨sink, range, update, last :: rest, inTransaction, sinceCommit,
          stats, totalCommits, journal⟩

theorem pushMap (mirrors : first.Mirrors second image) (cadence : Cadence) (record : Record)
    (committer : Committer σ) :
    (committer.map image).push second cadence record =
      mapAnswer image (committer.push first cadence record) := by
  unfold push
  dsimp only
  rw [makeRoomMap mirrors]
  cases committer.makeRoom first cadence (repeatable record).operation with
  | mk result made =>
      cases result with
      | error cause => rfl
      | ok =>
          simp only [mapAnswer, map]
          split
          · exact flushMap mirrors cadence { made with buffer := repeatable record :: made.buffer }
          · rfl

theorem followMap (mirrors : first.Mirrors second image) (cadence : Cadence) (calls : List Call)
    (committer : Committer σ) :
    (consumer second cadence).follow calls (committer.map image) =
      mapAnswer image ((consumer first cadence).follow calls committer) := by
  induction calls generalizing committer with
  | nil => rfl
  | cons call rest inductionHypothesis =>
      have made : (consumer second cadence).make call (committer.map image) =
          mapAnswer image ((consumer first cadence).make call committer) := by
        cases call with
        | consume record => exact pushMap mirrors cadence record committer
        | checkpoint => exact commitPendingMap mirrors cadence committer
        | note activity => rfl
      rw [Consumer.follow, Consumer.follow, made]
      cases (consumer first cadence).make call committer with
      | mk result next =>
          cases result with
          | error cause => rfl
          | ok => exact inductionHypothesis next

theorem finishRangeMap (mirrors : first.Mirrors second image) (cadence : Cadence)
    (committer : Committer σ) :
    (committer.map image).finishRange second cadence =
      mapAnswer image (committer.finishRange first cadence) := by
  simp only [finishRange, commitPendingMap mirrors]
  cases committer.commitPending first cadence with
  | mk result last => cases result <;> rfl

end Image

variable {σ : Type}

/-- Works off a range: the calls of its acquisition are followed, and the range is finished. -/
def work (sink : Sink σ) (cadence : Cadence) (range : HeightRange) (update : Bool)
    (calls : List Call) (committer : Committer σ) : Except RunError CommitStats × Committer σ :=
  match (consumer sink cadence).follow calls (committer.beginRange range update) with
  | (.ok (), committer) => committer.finishRange sink cadence
  | (.error cause, committer) => (.error cause, committer)

theorem workMap {τ : Type} {first : Sink σ} {second : Sink τ} {image : σ → τ}
    (mirrors : first.Mirrors second image) (cadence : Cadence) (range : HeightRange)
    (update : Bool) (calls : List Call) (committer : Committer σ) :
    (committer.map image).work second cadence range update calls =
      mapAnswer image (committer.work first cadence range update calls) := by
  have follows := followMap mirrors cadence calls (committer.beginRange range update)
  simp only [beginRange, map] at follows
  simp only [work, beginRange, map, follows]
  cases (consumer first cadence).follow calls _ with
  | mk result taken =>
      cases result with
      | error cause => rfl
      | ok => exact finishRangeMap mirrors cadence taken

/-- The committer with a sink that was not called so far. -/
def watch (committer : Committer σ) : Committer (Traced σ) :=
  { committer with sink := .new committer.sink }

/-- The sink after a range was worked off, with the calls that were made to it. -/
def sinkTrace (sink : Sink σ) (cadence : Cadence) (range : HeightRange) (update : Bool)
    (calls : List Call) (committer : Committer σ) : Traced σ :=
  (committer.watch.work sink.watched cadence range update calls).2.sink

/-- A committer whose sink is watched works as one whose sink is not. -/
theorem workWatched (sink : Sink σ) (cadence : Cadence) (range : HeightRange) (update : Bool)
    (calls : List Call) (committer : Committer σ) :
    committer.work sink cadence range update calls =
      mapAnswer Traced.inner (committer.watch.work sink.watched cadence range update calls) :=
  workMap sink.watchedMirrors cadence range update calls committer.watch

/-- When a range is worked off, every record that was taken is written for good, or the last ones
are lost. -/
theorem Custody.workLeaves {sink : Sink σ} {Good : List Record → List Record → Committer σ → Prop}
    {Bad : List Record → RunError → Committer σ → Prop} (custody : Custody sink Good Bad)
    (cadence : Cadence) {range : HeightRange} {update : Bool} (calls : List Call)
    {committer : Committer σ} (start : Good [] [] (committer.beginRange range update)) :
    match committer.work sink cadence range update calls with
    | (.ok stats, after) =>
        ∃ last, Good ((Call.records calls).map repeatable) [] last ∧
          stats = { last.stats with failed := sortedHeights last.stats.failed } ∧
          after.sink = last.sink ∧ last.inTransaction = false ∧ after.inTransaction = false
    | (.error cause, after) =>
        ∃ done, done <+: (Call.records calls).map repeatable ∧ Bad done cause after := by
  have holding : Holding False Good [] (committer.beginRange range update) :=
    ⟨[], [], rfl, start, fun _ => rfl, False.elim⟩
  have lost {after : Committer σ} {cause : RunError} (losing : Losing False Bad
      ((Call.records calls).map repeatable) cause after) :
      ∃ done, done <+: (Call.records calls).map repeatable ∧ Bad done cause after := by
    obtain ⟨done, rest, split, _, bad⟩ := losing
    exact ⟨done, ⟨rest, split.symm⟩, bad⟩
  have follows := custody.followLeaves cadence calls holding
  rw [List.nil_append] at follows
  unfold work
  cases answer : (consumer sink cadence).follow calls (committer.beginRange range update) with
  | mk result taken =>
      rw [answer] at follows
      cases result with
      | error cause => exact lost follows
      | ok =>
          have finish := custody.finishRangeLeaves cadence follows
          dsimp only
          cases finishAnswer : taken.finishRange sink cadence with
          | mk result after =>
              rw [finishAnswer] at finish
              cases result with
              | error cause => exact lost finish
              | ok stats =>
                  obtain ⟨last, good, same, sink, _, quietly, closed⟩ := finish
                  exact ⟨last, good, same, sink, quietly, closed⟩

end Committer

end Backfill
