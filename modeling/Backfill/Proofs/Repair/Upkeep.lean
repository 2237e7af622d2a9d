/-
This file carries a condition through the work of a committer. A condition that every call to the
sink keeps holds after any number of records, which were then written for good, written in the open
transaction, or are buffered, in this order.
-/

import Backfill.Proofs.Acquisition.Calls
import Backfill.Repair.Committer

namespace Backfill.Committer

variable {σ : Type}

/-- Committers that agree on the sink, on the range and its statistics, on whether rows may be
replaced and on whether a transaction is open. -/
structure Alike (first second : Committer σ) : Prop where
  sink : second.sink = first.sink
  range : second.range = first.range
  update : second.update = first.update
  inTransaction : second.inTransaction = first.inTransaction
  stats : second.stats = first.stats

/-- The committer after a transaction was opened. -/
def opened (next : σ) (committer : Committer σ) : Committer σ :=
  { committer with sink := next, inTransaction := true }

/-- The committer after its transaction was committed. -/
def settled (next : σ) (committer : Committer σ) : Committer σ :=
  { committer with
    sink := next
    inTransaction := false
    stats := { committer.stats with commits := committer.stats.commits + 1 } }

/-- The committer after its transaction was given up. -/
def abandoned (next : σ) (committer : Committer σ) : Committer σ :=
  { committer with sink := next, inTransaction := false }

/-- The committer after so many records were applied. -/
def written (next : σ) (count : Nat) (committer : Committer σ) : Committer σ :=
  { committer with
    sink := next
    stats := { committer.stats with applied := committer.stats.applied + count } }

/-- The committer after a record was refused. -/
def rejected (next : σ) (record : Record) (committer : Committer σ) : Committer σ :=
  { committer with
    sink := next
    stats := { committer.stats with
      failed := record.height.toNat :: committer.stats.failed } }

/-- A condition on a committer that has written some records for good and others in the open
transaction is kept by the calls that begin and end transactions. -/
structure Transacts (sink : Sink σ) (Good : List Record → List Record → Committer σ → Prop)
    (Bad : List Record → RunError → Committer σ → Prop) : Prop where
  alike : ∀ {done sent first second}, Good done sent first → Alike first second →
    Good done sent second
  alikeBad : ∀ {done cause first second}, Bad done cause first → Alike first second →
    Bad done cause second
  begun : ∀ {done committer next}, Good done [] committer → committer.inTransaction = false →
    sink.begin committer.sink = (.ok (), next) → Good done [] (committer.opened next)
  beginFailed : ∀ {done committer cause next}, Good done [] committer →
    committer.inTransaction = false → sink.begin committer.sink = (.error cause, next) →
    Bad done (.commit .begin cause) { committer with sink := next }
  committed : ∀ {done sent committer next}, Good done sent committer →
    committer.inTransaction = true → sink.commit committer.sink = (.ok (), next) →
    Good (done ++ sent) [] (committer.settled next)
  commitFailed : ∀ {done sent committer cause next}, Good done sent committer →
    committer.inTransaction = true → sink.commit committer.sink = (.error cause, next) →
    Bad done (.commit .commit cause) (committer.abandoned (sink.rollback next).2)

/-- Such a condition is kept by every call to the sink. -/
structure Upkeep (sink : Sink σ) (Good : List Record → List Record → Committer σ → Prop)
    (Bad : List Record → RunError → Committer σ → Prop) : Prop
    extends Transacts sink Good Bad where
  applied : ∀ {done sent committer batch next}, Good done sent committer →
    committer.inTransaction = true →
    sink.apply committer.update batch committer.sink = (.ok (), next) →
    Good done (sent ++ batch) (committer.written next batch.length)
  batchRefused : ∀ {done sent committer batch cause next}, Good done sent committer →
    committer.inTransaction = true →
    sink.apply committer.update batch committer.sink = (.error cause, next) →
    Good done sent { committer with sink := next }
  refused : ∀ {done sent committer record cause next}, Good done sent committer →
    committer.inTransaction = true →
    sink.apply committer.update [record] committer.sink = (.error cause, next) →
    Good done (sent ++ [record]) (committer.rejected next record)

/-- Such a condition is kept by every batch, however often the sink is called for it. -/
structure Custody (sink : Sink σ) (Good : List Record → List Record → Committer σ → Prop)
    (Bad : List Record → RunError → Committer σ → Prop) : Prop
    extends Transacts sink Good Bad where
  handed : ∀ {done sent committer} (batch : List Record), Good done sent committer →
    committer.inTransaction = true → Good done (sent ++ batch) (applyBatch sink batch committer)

/-- The records that were taken are written for good, written in the open transaction, or buffered,
and no transaction is open in vain. -/
def Holding (idle : Prop) (Good : List Record → List Record → Committer σ → Prop)
    (taken : List Record) (committer : Committer σ) : Prop :=
  ∃ done sent, taken = done ++ sent ++ committer.buffer.reverse ∧ Good done sent committer ∧
    (committer.inTransaction = false → sent = []) ∧
    (idle → committer.inTransaction = true → sent ≠ [] ∨ committer.buffer ≠ [])

/-- Some of the records that were taken are written for good; the others are lost, and if no
transaction was open before the first of them then there are such. -/
def Losing (idle : Prop) (Bad : List Record → RunError → Committer σ → Prop)
    (taken : List Record) (cause : RunError) (committer : Committer σ) : Prop :=
  ∃ done rest, taken = done ++ rest ∧ (idle → rest ≠ []) ∧ Bad done cause committer

/-- What an answer leaves: one condition where it went well, another where it ended the run. -/
def Leaves (good : Committer σ → Prop) (bad : RunError → Committer σ → Prop)
    (answer : Except RunError Unit × Committer σ) : Prop :=
  match answer with
  | (.ok (), committer) => good committer
  | (.error cause, committer) => bad cause committer

theorem leavesMono {good more : Committer σ → Prop} {bad worse : RunError → Committer σ → Prop}
    {answer : Except RunError Unit × Committer σ} (leaves : Leaves good bad answer)
    (well : ∀ committer, good committer → more committer)
    (badly : ∀ cause committer, bad cause committer → worse cause committer) :
    Leaves more worse answer := by
  rcases answer with ⟨_ | _, committer⟩
  · exact badly _ _ leaves
  · exact well _ leaves

/-- Events leave alone all but the journal. -/
theorem logAllEq (events : List Event) (committer : Committer σ) :
    logAll events committer =
      { committer with journal := (events.map .event).reverse ++ committer.journal } := by
  induction events generalizing committer with
  | nil => rfl
  | cons event rest inductionHypothesis =>
      rw [logAll, List.foldl_cons, ← logAll, inductionHypothesis]
      simp [log, note]

theorem losingMore {idle : Prop} {Bad : List Record → RunError → Committer σ → Prop}
    {taken : List Record} {cause : RunError} {committer : Committer σ} (more : List Record)
    (losing : Losing idle Bad taken cause committer) :
    Losing idle Bad (taken ++ more) cause committer := by
  obtain ⟨done, rest, split, some, bad⟩ := losing
  refine ⟨done, rest ++ more, by rw [split, List.append_assoc], fun quiet => ?_, bad⟩
  simp [some quiet]

/-- Applying a record does not touch what is buffered and leaves the transaction open. -/
theorem applyOneFrame (sink : Sink σ) (record : Record) (committer : Committer σ) :
    (applyOne sink committer record).buffer = committer.buffer ∧
      (applyOne sink committer record).inTransaction = committer.inTransaction ∧
      (applyOne sink committer record).update = committer.update := by
  unfold applyOne
  split
  · simp [noteApplied, logAllEq]
  · exact ⟨rfl, rfl, rfl⟩

/-- Applying a record calls the sink once. -/
theorem applyOneSink (sink : Sink σ) (record : Record) (committer : Committer σ) :
    (applyOne sink committer record).sink =
      (sink.apply committer.update [record] committer.sink).2 := by
  unfold applyOne
  split
  · rename_i answer
    simp [noteApplied, logAllEq, answer]
  · rename_i answer
    rw [answer]
    rfl

theorem applyEachFrame (sink : Sink σ) (records : List Record) (committer : Committer σ) :
    (records.foldl (applyOne sink) committer).buffer = committer.buffer ∧
      (records.foldl (applyOne sink) committer).inTransaction = committer.inTransaction ∧
      (records.foldl (applyOne sink) committer).update = committer.update := by
  induction records generalizing committer with
  | nil => exact ⟨rfl, rfl, rfl⟩
  | cons record rest inductionHypothesis =>
      obtain ⟨buffer, inTransaction, update⟩ := applyOneFrame sink record committer
      rw [List.foldl_cons, ← buffer, ← inTransaction, ← update]
      exact inductionHypothesis _

/-- Applying a batch does not touch what is buffered and leaves the transaction open. -/
theorem applyBatchFrame (sink : Sink σ) (batch : List Record) (committer : Committer σ) :
    (applyBatch sink batch committer).buffer = committer.buffer ∧
      (applyBatch sink batch committer).inTransaction = committer.inTransaction ∧
      (applyBatch sink batch committer).update = committer.update := by
  unfold applyBatch
  split
  · simp [noteApplied, logAllEq]
  · exact applyEachFrame sink batch _

variable {sink : Sink σ} {Good : List Record → List Record → Committer σ → Prop}
  {Bad : List Record → RunError → Committer σ → Prop} {idle : Prop}
  {done sent taken : List Record} {committer : Committer σ}

namespace Upkeep

/-- A record is written whether it is accepted or not. -/
theorem applyOneKeeps (upkeep : Upkeep sink Good Bad) (record : Record)
    (good : Good done sent committer) (busy : committer.inTransaction = true) :
    Good done (sent ++ [record]) (applyOne sink committer record) := by
  unfold applyOne
  cases answer : sink.apply committer.update [record] committer.sink with
  | mk result next =>
      cases result with
      | ok =>
          apply upkeep.alike (upkeep.applied good busy answer)
          simp only [noteApplied, logAllEq]
          exact ⟨rfl, rfl, rfl, rfl, rfl⟩
      | error cause => exact upkeep.alike (upkeep.refused good busy answer) ⟨rfl, rfl, rfl, rfl, rfl⟩

theorem applyEachKeeps (upkeep : Upkeep sink Good Bad) (records : List Record)
    (good : Good done sent committer) (busy : committer.inTransaction = true) :
    Good done (sent ++ records) (records.foldl (applyOne sink) committer) := by
  induction records generalizing sent committer with
  | nil => simpa using good
  | cons record rest inductionHypothesis =>
      rw [List.foldl_cons, List.append_cons]
      exact inductionHypothesis (upkeep.applyOneKeeps record good busy)
        ((applyOneFrame sink record committer).2.1.trans busy)

/-- A batch is written record by record if it is refused as a whole. -/
theorem applyBatchKeeps (upkeep : Upkeep sink Good Bad) (batch : List Record)
    (good : Good done sent committer) (busy : committer.inTransaction = true) :
    Good done (sent ++ batch) (applyBatch sink batch committer) := by
  unfold applyBatch
  cases answer : sink.apply committer.update batch committer.sink with
  | mk result next =>
      cases result with
      | ok =>
          apply upkeep.alike (upkeep.applied good busy answer)
          simp only [noteApplied, logAllEq]
          exact ⟨rfl, rfl, rfl, rfl, rfl⟩
      | error cause =>
          have kept := upkeep.alike (upkeep.batchRefused good busy answer)
            (⟨rfl, rfl, rfl, rfl, rfl⟩ : Alike { committer with sink := next }
              (log (batchEvent batch cause) { committer with sink := next }))
          exact upkeep.applyEachKeeps batch kept busy

/-- What every call to the sink keeps, every batch keeps. -/
theorem custody (upkeep : Upkeep sink Good Bad) : Custody sink Good Bad where
  toTransacts := upkeep.toTransacts
  handed := upkeep.applyBatchKeeps

end Upkeep

namespace Custody

/-- A commit makes durable what was written, or leaves it lost. -/
theorem commitLeaves (custody : Custody sink Good Bad) (good : Good done sent committer)
    (busy : committer.inTransaction = true) :
    Leaves
      (fun after => Good (done ++ sent) [] after ∧ after.buffer = committer.buffer ∧
        after.inTransaction = false)
      (Bad done) (committer.commit sink) := by
  unfold commit
  cases answer : sink.commit committer.sink with
  | mk result next =>
      cases result with
      | ok =>
          refine ⟨custody.alike (custody.committed good busy answer) ?_, rfl, rfl⟩
          exact ⟨rfl, rfl, rfl, rfl, rfl⟩
      | error cause =>
          have bad := custody.commitFailed good busy answer
          dsimp only
          cases undone : sink.rollback next with
          | mk result last =>
              rw [undone] at bad
              cases result with
              | ok => exact custody.alikeBad bad ⟨rfl, rfl, rfl, rfl, rfl⟩
              | error second => exact custody.alikeBad bad ⟨rfl, rfl, rfl, rfl, rfl⟩

/-- Opening a transaction changes nothing else. -/
theorem openLeaves (custody : Custody sink Good Bad) (good : Good done sent committer)
    (quiet : committer.inTransaction = false → sent = []) :
    Leaves
      (fun after => Good done sent after ∧ after.buffer = committer.buffer ∧
        after.inTransaction = true)
      (Bad done) (committer.openTransaction sink) := by
  unfold openTransaction
  by_cases busy : committer.inTransaction = true
  · simp only [busy, if_true]
    exact ⟨good, rfl, busy⟩
  · rw [if_neg busy]
    have closed := eq_false_of_ne_true busy
    obtain rfl := quiet closed
    cases answer : sink.begin committer.sink with
    | mk result next =>
        cases result with
        | ok => exact ⟨custody.begun good closed answer, rfl, rfl⟩
        | error cause => exact custody.beginFailed good closed answer

/-- A committer that has written all it took for good holds it. -/
theorem holdingOfSettled (good : Good taken [] committer) (empty : committer.buffer = [])
    (closed : committer.inTransaction = false) : Holding idle Good taken committer :=
  ⟨taken, [], by simp [empty], good, fun _ => rfl, fun _ busy => by simp [closed] at busy⟩

/-- Where nothing is buffered a commit makes durable all that was taken, or leaves the rest lost. -/
theorem commitTaken (custody : Custody sink Good Bad) (good : Good done sent committer)
    (busy : committer.inTransaction = true) (empty : committer.buffer = [])
    (some : idle → sent ≠ []) :
    Leaves
      (fun after => Good (done ++ sent) [] after ∧ after.buffer = [] ∧
        after.inTransaction = false)
      (Losing idle Bad (done ++ sent)) (committer.commit sink) :=
  leavesMono (custody.commitLeaves good busy)
    (fun _ kept => ⟨kept.1, kept.2.1.trans empty, kept.2.2⟩)
    fun _ _ lost => ⟨done, sent, rfl, some, lost⟩

/-- A batch that is written in an open transaction is held there, or committed at once. -/
theorem batchLeaves (custody : Custody sink Good Bad) (cadence : Cadence)
    (good : Good done sent committer) (busy : committer.inTransaction = true)
    (some : committer.buffer ≠ []) :
    Leaves
      (fun after =>
        Holding idle Good (done ++ sent ++ committer.buffer.reverse) after ∧ after.buffer = [])
      (Losing idle Bad (done ++ sent ++ committer.buffer.reverse))
      (let wrote := applyBatch sink committer.buffer.reverse { committer with buffer := [] }
       if cadence.interval ≤ wrote.sinceCommit then wrote.commit sink else (.ok (), wrote)) := by
  have emptied : Good done sent { committer with buffer := [] } :=
    custody.alike good ⟨rfl, rfl, rfl, rfl, rfl⟩
  have wrote := custody.handed committer.buffer.reverse emptied busy
  obtain ⟨empty, stays, _⟩ :=
    applyBatchFrame sink committer.buffer.reverse { committer with buffer := [] }
  have still := stays.trans busy
  have sentSome : sent ++ committer.buffer.reverse ≠ [] := by simp [some]
  rw [List.append_assoc]
  dsimp only
  split
  · exact leavesMono (custody.commitTaken wrote still empty fun _ => sentSome)
      (fun _ kept => ⟨holdingOfSettled kept.1 kept.2.1 kept.2.2, kept.2.1⟩) fun _ _ lost => lost
  · exact ⟨⟨done, _, by rw [empty]; simp, wrote, fun closed => by simp [still] at closed,
      fun _ _ => .inl sentSome⟩, empty⟩

/-- After a flush nothing is buffered. -/
theorem flushLeaves (custody : Custody sink Good Bad) (cadence : Cadence)
    (holding : Holding idle Good taken committer) :
    Leaves (fun after => Holding idle Good taken after ∧ after.buffer = [])
      (Losing idle Bad taken) (committer.flush sink cadence) := by
  obtain ⟨done, sent, rfl, good, quiet, some⟩ := holding
  unfold flush
  by_cases empty : committer.buffer = []
  · simp only [empty, List.isEmpty_nil, if_true]
    exact ⟨⟨done, sent, by rw [empty], good, quiet, some⟩, empty⟩
  simp only [List.isEmpty_iff, empty, if_false]
  have opens := custody.openLeaves good quiet
  cases openAnswer : committer.openTransaction sink with
  | mk result begun =>
      rw [openAnswer] at opens
      cases result with
      | error cause =>
          exact ⟨done, sent ++ committer.buffer.reverse, List.append_assoc _ _ _,
            fun _ => by simp [empty], opens⟩
      | ok =>
          obtain ⟨still, buffer, busy⟩ := opens
          rw [← buffer] at empty ⊢
          exact custody.batchLeaves cadence still busy empty

/-- After a checkpoint nothing is buffered and no transaction is open: every record that was taken
is written for good. -/
theorem commitPendingLeaves (custody : Custody sink Good Bad) (cadence : Cadence)
    (holding : Holding idle Good taken committer) :
    Leaves (fun after => Good taken [] after ∧ after.buffer = [] ∧ after.inTransaction = false)
      (Losing idle Bad taken) (committer.commitPending sink cadence) := by
  have flushes := custody.flushLeaves cadence holding
  unfold commitPending
  cases flushAnswer : committer.flush sink cadence with
  | mk result flushed =>
      rw [flushAnswer] at flushes
      cases result with
      | error cause => exact flushes
      | ok =>
          obtain ⟨⟨done, sent, rfl, good, quiet, some⟩, empty⟩ := flushes
          rw [empty, List.reverse_nil, List.append_nil]
          dsimp only
          by_cases busy : flushed.inTransaction = true
          · rw [if_pos busy]
            exact custody.commitTaken good busy empty fun still =>
              (some still busy).resolve_right (by simp [empty])
          · have closed := eq_false_of_ne_true busy
            obtain rfl := quiet closed
            rw [if_neg busy, List.append_nil]
            exact ⟨good, empty, closed⟩

/-- A record that is taken is buffered after those before it. -/
theorem pushLeaves (custody : Custody sink Good Bad) (cadence : Cadence) (record : Record)
    (holding : Holding idle Good taken committer) :
    Leaves (Holding idle Good (taken ++ [repeatable record]))
      (Losing idle Bad (taken ++ [repeatable record]))
      (committer.push sink cadence record) := by
  have room : Leaves (Holding idle Good taken) (Losing idle Bad taken)
      (committer.makeRoom sink cadence (repeatable record).operation) := by
    unfold makeRoom
    split
    · split
      · exact holding
      · exact leavesMono (custody.flushLeaves cadence holding) (fun _ kept => kept.1)
          fun _ _ lost => lost
    · exact holding
  unfold push
  dsimp only
  cases roomAnswer : committer.makeRoom sink cadence (repeatable record).operation with
  | mk result made =>
      rw [roomAnswer] at room
      cases result with
      | error cause => exact losingMore _ room
      | ok =>
          obtain ⟨done, sent, split, good, quiet, some⟩ := room
          have buffered : Holding idle Good (taken ++ [repeatable record])
              { made with buffer := repeatable record :: made.buffer } :=
            ⟨done, sent, by simp [split], custody.alike good ⟨rfl, rfl, rfl, rfl, rfl⟩, quiet,
              fun _ _ => .inr (by simp)⟩
          dsimp only
          split
          · exact leavesMono (custody.flushLeaves cadence buffered) (fun _ kept => kept.1)
              fun _ _ lost => lost
          · exact buffered

/-- Whatever calls a committer follows, it keeps what it holds. -/
theorem followLeaves (custody : Custody sink Good Bad) (cadence : Cadence) (calls : List Call)
    (holding : Holding idle Good taken committer) :
    Leaves (Holding idle Good (taken ++ (Call.records calls).map repeatable))
      (Losing idle Bad (taken ++ (Call.records calls).map repeatable))
      ((consumer sink cadence).follow calls committer) := by
  induction calls generalizing taken committer with
  | nil => simpa [Consumer.follow, Leaves] using holding
  | cons call rest inductionHypothesis =>
      cases call with
      | note activity =>
          obtain ⟨done, sent, split, good, quiet, some⟩ := holding
          exact inductionHypothesis
            ⟨done, sent, split, custody.alike good ⟨rfl, rfl, rfl, rfl, rfl⟩, quiet, some⟩
      | consume record =>
          have pushes := custody.pushLeaves cadence record holding
          simp only [Consumer.follow, Consumer.make, consumer, Call.recordsConsume, List.map_cons]
          rw [List.append_cons taken]
          cases pushAnswer : committer.push sink cadence record with
          | mk result next =>
              rw [pushAnswer] at pushes
              cases result with
              | ok => exact inductionHypothesis pushes
              | error cause => exact losingMore _ pushes
      | checkpoint =>
          have commits := custody.commitPendingLeaves cadence holding
          simp only [Consumer.follow, Consumer.make, consumer, Call.recordsCheckpoint]
          cases commitAnswer : committer.commitPending sink cadence with
          | mk result next =>
              rw [commitAnswer] at commits
              cases result with
              | error cause => exact losingMore _ commits
              | ok =>
                  obtain ⟨good, empty, closed⟩ := commits
                  exact inductionHypothesis (holdingOfSettled good empty closed)

/-- At the end of a range every record that was taken is written for good. -/
theorem finishRangeLeaves (custody : Custody sink Good Bad) (cadence : Cadence)
    (holding : Holding idle Good taken committer) :
    match committer.finishRange sink cadence with
    | (.ok stats, after) =>
        ∃ last, Good taken [] last ∧
          stats = { last.stats with failed := sortedHeights last.stats.failed } ∧
          after.sink = last.sink ∧ after.buffer = [] ∧ last.inTransaction = false ∧
            after.inTransaction = false
    | (.error cause, after) => Losing idle Bad taken cause after := by
  have commits := custody.commitPendingLeaves cadence holding
  unfold finishRange
  cases answer : committer.commitPending sink cadence with
  | mk result last =>
      rw [answer] at commits
      cases result with
      | error cause => exact commits
      | ok =>
          obtain ⟨good, empty, closed⟩ := commits
          exact ⟨last, good, rfl, rfl, empty, closed, closed⟩

end Custody

end Backfill.Committer
