/-
This file shows that a committer keeps to the protocol of transactions, whatever its sink answers
and wherever a range is given up: every batch and every commit goes to an open transaction, and
nothing is rolled back but a transaction that could not be committed.
-/

import Backfill.Proofs.Replica.Protocol

namespace Backfill

/-- A part of a run: a range is begun, calls are followed up to the first that fails, and the range
is finished unless one failed or it is given up. -/
structure Shift where
  range : HeightRange
  update : Bool
  calls : List Call
  finishes : Bool

namespace Committer

variable {σ τ : Type}

/-- The committer after a shift. -/
def serve (sink : Sink σ) (cadence : Cadence) (committer : Committer σ) (shift : Shift) :
    Committer σ :=
  if shift.finishes then
    (committer.work sink cadence shift.range shift.update shift.calls).2
  else
    ((consumer sink cadence).follow shift.calls
      (committer.beginRange shift.range shift.update)).2

/-- The committer after shifts in order. -/
def serveAll (sink : Sink σ) (cadence : Cadence) (shifts : List Shift) (committer : Committer σ) :
    Committer σ :=
  shifts.foldl (serve sink cadence) committer

theorem serveMap {first : Sink σ} {second : Sink τ} {image : σ → τ}
    (mirrors : first.Mirrors second image) (cadence : Cadence) (committer : Committer σ)
    (shift : Shift) :
    serve second cadence (committer.map image) shift =
      (serve first cadence committer shift).map image := by
  unfold serve
  split
  · rw [workMap mirrors]
    rfl
  · have follows := followMap mirrors cadence shift.calls
      (committer.beginRange shift.range shift.update)
    exact congrArg Prod.snd follows

theorem serveAllMap {first : Sink σ} {second : Sink τ} {image : σ → τ}
    (mirrors : first.Mirrors second image) (cadence : Cadence) (shifts : List Shift)
    (committer : Committer σ) :
    (committer.map image).serveAll second cadence shifts =
      (committer.serveAll first cadence shifts).map image := by
  induction shifts generalizing committer with
  | nil => rfl
  | cons shift rest inductionHypothesis =>
      simp only [serveAll, List.foldl_cons, serveMap mirrors] at inductionHypothesis ⊢
      exact inductionHypothesis _

/-- The condition on the sink that fits the committer holds. -/
def Fit (Good : Bool → σ → Prop) (committer : Committer σ) : Prop :=
  Good committer.inTransaction committer.sink

theorem fitEq {Good : Bool → σ → Prop} {committer : Committer σ} {busy : Bool}
    (state : committer.inTransaction = busy) :
    Fit Good committer = Good busy committer.sink := by
  rw [Fit, state]

/-- What is buffered between two calls is less than a full batch. -/
structure Ready (cadence : Cadence) (Good : Bool → σ → Prop) (committer : Committer σ) : Prop where
  fit : Fit Good committer
  short : committer.buffer.length < cadence.batchSize
  batch : committer.buffer ≠ [] → IsBatch cadence.batchSize committer.buffer

theorem Ready.ofEmpty {cadence : Cadence} {Good : Bool → σ → Prop} {committer : Committer σ}
    (fit : Fit Good committer) (empty : committer.buffer = []) : Ready cadence Good committer where
  fit := fit
  short := by simpa [empty] using cadence.batchPositive
  batch := fun some => absurd empty some

/-- Each record is written as an upsert or deleted. -/
theorem repeatableKept (record : Record) : (repeatable record).operation ≠ .insert := by
  unfold repeatable
  split <;> simp_all

section Steps

variable {sink : Sink σ} {cadence : Cadence} {Good : Bool → σ → Prop} {committer : Committer σ}

/-- A single record is a batch that the sink is called with. -/
theorem applyOneFit (keeps : sink.Keeps cadence.batchSize Good) {record : Record}
    (good : Good true committer.sink) (batch : IsBatch cadence.batchSize [record]) :
    Good true (applyOne sink committer record).sink := by
  rw [applyOneSink]
  exact keeps.applied good batch

/-- A batch is applied as a whole, and then perhaps record by record. -/
theorem applyBatchFit (keeps : sink.Keeps cadence.batchSize Good) {batch : List Record}
    (good : Good true committer.sink) (isBatch : IsBatch cadence.batchSize batch) :
    Good true (applyBatch sink batch committer).sink := by
  have each (records : List Record) (committer : Committer σ) (good : Good true committer.sink)
      (single : ∀ record ∈ records, IsBatch cadence.batchSize [record]) :
      Good true (records.foldl (applyOne sink) committer).sink := by
    induction records generalizing committer with
    | nil => exact good
    | cons record rest inductionHypothesis =>
        apply inductionHypothesis
        · exact applyOneFit keeps good (single record List.mem_cons_self)
        · exact fun other member => single other (List.mem_cons_of_mem _ member)
  have applied : Good true (sink.apply committer.update batch committer.sink).2 :=
    keeps.applied good isBatch
  unfold applyBatch
  cases answer : sink.apply committer.update batch committer.sink with
  | mk result next =>
      rw [answer] at applied
      cases result with
      | ok => simpa [noteApplied, logAllEq] using applied
      | error cause =>
          exact each batch (log (batchEvent batch cause) { committer with sink := next }) applied
            fun record member => isBatch.single member

/-- No transaction is open after a commit, whether it went well or not. -/
theorem commitFit (keeps : sink.Keeps cadence.batchSize Good) (good : Good true committer.sink) :
    Leaves (fun after => Fit Good after ∧ after.buffer = committer.buffer) (fun _ => Fit Good)
      (committer.commit sink) := by
  unfold commit
  cases answer : sink.commit committer.sink with
  | mk result next =>
      cases result with
      | ok => exact ⟨keeps.committed good answer, rfl⟩
      | error cause =>
          have rolledBack := keeps.abandoned good answer
          dsimp only
          cases undone : sink.rollback next with
          | mk result last =>
              rw [undone] at rolledBack
              cases result <;> exact rolledBack

/-- A transaction is opened only where none is. -/
theorem openFit (keeps : sink.Keeps cadence.batchSize Good) (fit : Fit Good committer) :
    Leaves
      (fun after => Good true after.sink ∧ after.inTransaction = true ∧
        after.buffer = committer.buffer)
      (fun _ => Fit Good) (committer.openTransaction sink) := by
  unfold openTransaction
  by_cases busy : committer.inTransaction = true
  · rw [if_pos busy]
    rw [fitEq busy] at fit
    exact ⟨fit, busy, rfl⟩
  · rw [if_neg busy]
    have closed := eq_false_of_ne_true busy
    rw [fitEq closed] at fit
    cases answer : sink.begin committer.sink with
    | mk result next =>
        cases result with
        | ok => exact ⟨keeps.begun fit answer, rfl, rfl⟩
        | error cause =>
            have still : Good false next := keeps.unopened fit answer
            rwa [← closed] at still

/-- After a flush nothing is buffered. -/
theorem flushFit (keeps : sink.Keeps cadence.batchSize Good) (fit : Fit Good committer)
    (batch : committer.buffer ≠ [] → IsBatch cadence.batchSize committer.buffer) :
    Leaves (fun after => Fit Good after ∧ after.buffer = []) (fun _ => Fit Good)
      (committer.flush sink cadence) := by
  unfold flush
  by_cases empty : committer.buffer = []
  · simp only [empty, List.isEmpty_nil, if_true]
    exact ⟨fit, empty⟩
  simp only [List.isEmpty_iff, empty, if_false]
  have opens := openFit keeps fit
  cases openAnswer : committer.openTransaction sink with
  | mk result begun =>
      rw [openAnswer] at opens
      cases result with
      | error cause => exact opens
      | ok =>
          obtain ⟨good, busy, buffer⟩ := opens
          dsimp only
          rw [buffer]
          have applied : Good true
              (applyBatch sink committer.buffer.reverse { begun with buffer := [] }).sink :=
            applyBatchFit keeps good (batch empty).reverse
          obtain ⟨emptied, stays, _⟩ :=
            applyBatchFrame sink committer.buffer.reverse { begun with buffer := [] }
          split
          · exact leavesMono (commitFit keeps applied)
              (fun after fit => ⟨fit.1, fit.2.trans emptied⟩) fun _ _ bad => bad
          · exact ⟨(fitEq (stays.trans busy)).mpr applied, emptied⟩

/-- What is pending is committed, so that no transaction stays open. -/
theorem commitPendingFit (keeps : sink.Keeps cadence.batchSize Good)
    (ready : Ready cadence Good committer) :
    Leaves (Ready cadence Good) (fun _ => Fit Good) (committer.commitPending sink cadence) := by
  have flushes := flushFit keeps ready.fit ready.batch
  unfold commitPending
  cases answer : committer.flush sink cadence with
  | mk result flushed =>
      rw [answer] at flushes
      cases result with
      | error cause => exact flushes
      | ok =>
          obtain ⟨fit, empty⟩ := flushes
          dsimp only
          split
          · rename_i busy
            rw [fitEq busy] at fit
            exact leavesMono (commitFit keeps fit)
              (fun after fit => .ofEmpty fit.1 (fit.2.trans empty)) fun _ _ bad => bad
          · exact .ofEmpty fit empty

/-- There is room for a record once the records of another operation are written. -/
theorem makeRoomFit (keeps : sink.Keeps cadence.batchSize Good) (operation : Operation)
    (ready : Ready cadence Good committer) :
    Leaves
      (fun after => Ready cadence Good after ∧
        ∀ record ∈ after.buffer, record.operation = operation)
      (fun _ => Fit Good) (committer.makeRoom sink cadence operation) := by
  unfold makeRoom
  split
  · rename_i last rest buffer
    split
    · rename_i same
      refine ⟨ready, ?_⟩
      obtain ⟨common, _, all⟩ := (ready.batch (by simp [buffer])).uniform
      have lastCommon := all last (by simp [buffer])
      intro record member
      rw [all record member, ← lastCommon, same]
    · exact leavesMono (flushFit keeps ready.fit ready.batch)
        (fun after fit => ⟨.ofEmpty fit.1 fit.2, by simp [fit.2]⟩) fun _ _ bad => bad
  · rename_i empty
    exact ⟨ready, by simp [empty]⟩

/-- A record joins those of its operation, and a full batch is written. -/
theorem pushFit (keeps : sink.Keeps cadence.batchSize Good) (record : Record)
    (ready : Ready cadence Good committer) :
    Leaves (Ready cadence Good) (fun _ => Fit Good) (committer.push sink cadence record) := by
  have makes := makeRoomFit keeps (repeatable record).operation ready
  unfold push
  dsimp only
  cases answer : committer.makeRoom sink cadence (repeatable record).operation with
  | mk result made =>
      rw [answer] at makes
      cases result with
      | error cause => exact makes
      | ok =>
          obtain ⟨still, same⟩ := makes
          have joined : IsBatch cadence.batchSize (repeatable record :: made.buffer) :=
            { some := by simp
              within := still.short
              uniform := ⟨_, repeatableKept record, by simpa using same⟩ }
          have more : Fit Good { made with buffer := repeatable record :: made.buffer } := still.fit
          dsimp only
          split
          · exact leavesMono (flushFit keeps more fun _ => joined)
              (fun after fit => .ofEmpty fit.1 fit.2) fun _ _ bad => bad
          · rename_i short
            exact ⟨more, Nat.not_le.mp short, fun _ => joined⟩

/-- The condition is kept up to the first call that fails, and by that one too. -/
theorem followFit (keeps : sink.Keeps cadence.batchSize Good) (calls : List Call)
    (ready : Ready cadence Good committer) :
    Leaves (Ready cadence Good) (fun _ => Fit Good)
      ((consumer sink cadence).follow calls committer) := by
  induction calls generalizing committer with
  | nil => exact ready
  | cons call rest inductionHypothesis =>
      have makes : Leaves (Ready cadence Good) (fun _ => Fit Good)
          ((consumer sink cadence).make call committer) := by
        cases call with
        | consume record => exact pushFit keeps record ready
        | checkpoint => exact commitPendingFit keeps ready
        | note activity => exact ⟨ready.fit, ready.short, ready.batch⟩
      rw [Consumer.follow]
      cases answer : (consumer sink cadence).make call committer with
      | mk result next =>
          rw [answer] at makes
          cases result with
          | error cause => exact makes
          | ok => exact inductionHypothesis makes

/-- Finishing a range keeps the condition. -/
theorem finishRangeFit (keeps : sink.Keeps cadence.batchSize Good)
    (ready : Ready cadence Good committer) : Fit Good (committer.finishRange sink cadence).2 := by
  have commits := commitPendingFit keeps ready
  unfold finishRange
  cases answer : committer.commitPending sink cadence with
  | mk result last =>
      rw [answer] at commits
      cases result with
      | error cause => exact commits
      | ok => exact commits.fit

/-- A shift keeps the condition, and it does not matter what an earlier one left buffered. -/
theorem serveFit (keeps : sink.Keeps cadence.batchSize Good) (shift : Shift)
    (fit : Fit Good committer) : Fit Good (serve sink cadence committer shift) := by
  have ready : Ready cadence Good (committer.beginRange shift.range shift.update) :=
    .ofEmpty fit rfl
  have follows := followFit keeps shift.calls ready
  unfold serve work
  cases answer : (consumer sink cadence).follow shift.calls
      (committer.beginRange shift.range shift.update) with
  | mk result taken =>
      rw [answer] at follows
      cases result with
      | error cause => split <;> exact follows
      | ok =>
          split
          · exact finishRangeFit keeps follows
          · exact follows.fit

/-- The condition is kept by any shifts. -/
theorem serveAllFit (keeps : sink.Keeps cadence.batchSize Good) (shifts : List Shift)
    (fit : Fit Good committer) : Fit Good (committer.serveAll sink cadence shifts) := by
  induction shifts generalizing committer with
  | nil => exact fit
  | cons shift rest inductionHypothesis => exact inductionHypothesis (serveFit keeps shift fit)

end Steps

/-- What a new committer's shifts come to with a sink whose answers are written down. -/
def served (sink : Sink σ) (settings : CommitSettings) (shifts : List Shift) (state : σ) :
    Committer (Answered σ) :=
  (new (.new state)).serveAll sink.answered settings.cadence shifts

/-- Whatever the sink answers, its history keeps to the protocol of transactions, so that a replica
never says that it misses one. -/
theorem protocolKept (settings : CommitSettings) (shifts : List Shift) :
    (∀ {σ : Type} (sink : Sink σ) (state : σ),
      (new state).serveAll sink settings.cadence shifts =
          (served sink settings shifts state).map Answered.inner ∧
        Protocol (max 1 settings.batchSize.toNat)
          (served sink settings shifts state).sink.history) ∧
      ∀ (outages : Outages) (replica : Replica),
        Replica.Excused outages
          (served (Replica.store.traced outages).toSink settings shifts
            (.new replica)).sink.history := by
  constructor
  · intro σ sink state
    refine ⟨serveAllMap sink.answeredMirrors settings.cadence shifts (new (.new state)), ?_⟩
    rw [Nat.max_comm]
    exact Orderly.protocol (serveAllFit (sink.orderlyKept settings.cadence.batchSize) shifts .blank)
  · intro outages replica
    have start : Fit (fun busy (state : Answered (Traced Replica)) =>
        (busy = true → state.inner.inner.working ≠ none) ∧ Replica.Excused outages state.history)
        (new (.new (.new replica))) :=
      ⟨fun busy => (nomatch busy), fun call member => (nomatch member)⟩
    have keeps := Replica.excusedKept outages settings.cadence.batchSize
    exact (serveAllFit keeps shifts start).2

/-- A commit that is refused is rolled back at once, and the next range begins a transaction. -/
example :
    let shift : Shift := ⟨.single 1, false, [.consume (.blank 1)], true⟩
    let outages : Outages := fun call count =>
      if call = .commit ∧ count = 1 then some (.database .nestedTransaction) else none
    let committer :=
      served (Replica.store.traced outages).toSink ⟨2, 2⟩ [shift, shift] (.new .empty)
    committer.sink.history.map (fun exchange => (exchange.1.name, exchange.2.toBool)) =
      [("commit", true), ("apply", true), ("begin", true), ("rollback", true), ("commit", false),
        ("apply", true), ("begin", true)] := by
  decide +kernel

end Committer

end Backfill
