/-
This file shows how many transactions a committer needs. Batches are handed on when they are full,
and a transaction is committed after a batch that reaches the interval, so that it has as many full
batches as it takes to reach the interval.
-/

import Backfill.Proofs.Repair.Bounded
import Mathlib.Algebra.Order.Floor.Div

namespace Backfill

namespace Cadence

variable (cadence : Cadence)

/-- So many full batches reach the interval. -/
def stride : Nat :=
  cadence.interval ⌈/⌉ cadence.batchSize

/-- The number of records in so many batches. -/
def period : Nat :=
  cadence.batchSize * cadence.stride

theorem reachesIff (batches : Nat) :
    cadence.interval ≤ cadence.batchSize * batches ↔ cadence.stride ≤ batches :=
  (ceilDiv_le_iff_le_mul cadence.batchPositive).symm

theorem stridePositive : 0 < cadence.stride := by
  by_contra none
  have reached : cadence.interval ≤ cadence.batchSize * 0 :=
    (cadence.reachesIff 0).mpr (Nat.le_of_not_lt none)
  exact absurd cadence.intervalPositive (Nat.not_lt_of_le reached)

theorem periodPositive : 0 < cadence.period :=
  Nat.mul_pos cadence.batchPositive cadence.stridePositive

/-- Batches that do not reach the interval, and less than another one, are less than a period. -/
theorem underPeriod {batches rest : Nat} (room : batches < cadence.stride)
    (few : rest < cadence.batchSize) :
    cadence.batchSize * batches + rest < cadence.period :=
  calc
    cadence.batchSize * batches + rest < cadence.batchSize * batches + cadence.batchSize :=
      Nat.add_lt_add_left few _
    _ = cadence.batchSize * (batches + 1) := (Nat.mul_succ _ _).symm
    _ ≤ cadence.period := Nat.mul_le_mul_left _ room

/-- Full transactions and one for the rest are the quotient, rounded up. -/
theorem ceilDivPeriod (count : Nat) : count ⌈/⌉ cadence.period =
    count / cadence.period + if count % cadence.period = 0 then 0 else 1 := by
  have positive := cadence.periodPositive
  have split := Nat.div_add_mod count cadence.period
  have small := Nat.mod_lt count positive
  rw [Nat.ceilDiv_eq_add_pred_div]
  by_cases even : count % cadence.period = 0
  · have whole : count + cadence.period - 1 =
        cadence.period * (count / cadence.period) + (cadence.period - 1) := by omega
    have less : cadence.period - 1 < cadence.period := Nat.sub_one_lt_of_lt positive
    rw [if_pos even, whole, Nat.mul_add_div positive, Nat.div_eq_of_lt less]
  · have beyond : count + cadence.period - 1 =
        cadence.period * (count / cadence.period + 1) + (count % cadence.period - 1) := by
      rw [Nat.mul_succ]
      omega
    have less : count % cadence.period - 1 < cadence.period := by omega
    rw [if_neg even, beyond, Nat.mul_add_div positive, Nat.div_eq_of_lt less, Nat.add_zero]

end Cadence

namespace Gauge

variable (cadence : Cadence) (full batches : Nat)

/-- The counts while nothing is refused: all transactions have a period of records, and so many
batches are in the open one. -/
def steady : Gauge :=
  ⟨⟨List.replicate full cadence.period, cadence.batchSize * batches⟩,
    cadence.batchSize * batches, full, 0, decide (0 < batches)⟩

/-- The counts at the end, if so many records were left for the last transaction. -/
def closed (rest : Nat) : Gauge :=
  if rest = 0 then steady cadence full 0
  else ⟨⟨rest :: List.replicate full cadence.period, 0⟩, 0, full + 1, 0, false⟩

/-- A full batch is the next one of its transaction, or the last one. -/
theorem flushFull {full batches : Nat} (room : batches < cadence.stride) :
    (steady cadence full batches).flush cadence cadence.batchSize 0 =
      if batches + 1 < cadence.stride then steady cadence full (batches + 1)
      else steady cadence (full + 1) 0 := by
  have next : cadence.batchSize * batches + cadence.batchSize = cadence.batchSize * (batches + 1) :=
    (Nat.mul_succ _ _).symm
  unfold flush
  dsimp only [start, handOn, steady]
  simp only [next, cadence.reachesIff]
  by_cases more : batches + 1 < cadence.stride
  · rw [if_neg (Nat.not_le_of_lt more), if_pos more]
    simp
  · have last : batches + 1 = cadence.stride := by omega
    rw [if_pos (Nat.le_of_not_lt more), if_neg more, last]
    rfl

/-- A full batch adds itself to the full transactions and the full batches of the open one. -/
theorem flushSteady {full batches : Nat} (room : batches < cadence.stride) :
    ∃ nextFull next, next < cadence.stride ∧
      cadence.period * nextFull + cadence.batchSize * next =
        cadence.period * full + cadence.batchSize * batches + cadence.batchSize ∧
      (steady cadence full batches).flush cadence cadence.batchSize 0 =
        steady cadence nextFull next := by
  rw [flushFull cadence room]
  by_cases more : batches + 1 < cadence.stride
  · refine ⟨full, batches + 1, more, ?_, if_pos more⟩
    rw [Nat.mul_succ, Nat.add_assoc]
  · refine ⟨full + 1, 0, cadence.stridePositive, ?_, if_neg more⟩
    have last : cadence.period = cadence.batchSize * batches + cadence.batchSize := by
      rw [← Nat.mul_succ, Cadence.period]
      congr 1
      omega
    rw [Nat.mul_succ]
    omega

/-- What is left is committed once, whether it reaches the interval or not. -/
theorem finishSteady {full batches : Nat} (rest : Nat) :
    (if rest = 0 then steady cadence full batches
      else (steady cadence full batches).flush cadence rest 0).finish =
      closed cadence full (cadence.batchSize * batches + rest) := by
  have positive := cadence.batchPositive
  by_cases nothing : rest = 0
  · rw [if_pos nothing, nothing, Nat.add_zero, closed, finish, steady]
    cases batches with
    | zero => simp [steady]
    | succ batches => simp [settle, positive.ne']
  · rw [if_neg nothing, closed, if_neg (by omega)]
    unfold flush
    dsimp only [start, handOn, steady]
    split <;> rfl

theorem closedCommits (rest : Nat) :
    (closed cadence full rest).commits = full + if rest = 0 then 0 else 1 := by
  unfold closed
  split <;> rfl

/-- At the end there are full transactions, and one more for the rest. -/
theorem closedPortions (rest : Nat) :
    let sizes := (closed cadence full rest).portions.committed
    sizes.length = (closed cadence full rest).commits ∧
      sizes.sum = cadence.period * full + rest ∧
      ∀ size ∈ sizes.reverse.dropLast, size = cadence.period := by
  unfold closed
  split
  · rename_i nothing
    refine ⟨List.length_replicate, ?_, fun size member => ?_⟩
    · simp [steady, nothing, Nat.mul_comm]
    · have inside := List.mem_reverse.mp (List.mem_of_mem_dropLast member)
      exact List.eq_of_mem_replicate inside
  · refine ⟨by simp, ?_, fun size member => ?_⟩
    · simp [Nat.mul_comm, Nat.add_comm]
    · rw [List.reverse_cons, List.dropLast_concat, List.mem_reverse] at member
      exact List.eq_of_mem_replicate member

end Gauge

namespace Committer

variable {σ : Type} (sink : Sink σ) {cadence : Cadence} {operation : Operation} {count : Nat}
  {committer : Committer (Traced σ)}

/-- So many records with an operation were taken, and all went well so far: they are in full
transactions, in full batches of the open one, or buffered. -/
structure Paced (cadence : Cadence) (operation : Operation) (count : Nat)
    (committer : Committer (Traced σ)) : Prop where
  alike : ∀ record ∈ committer.buffer, record.operation = operation
  steady : committer.gauge.failed = 0 → ∃ full batches,
    batches < cadence.stride ∧ committer.buffer.length < cadence.batchSize ∧
      count = cadence.period * full + (cadence.batchSize * batches + committer.buffer.length) ∧
      committer.gauge = Gauge.steady cadence full batches

/-- A batch with the same operation is not handed on before its time. -/
theorem makeRoomAlike (alike : ∀ record ∈ committer.buffer, record.operation = operation) :
    committer.makeRoom sink.watched cadence operation = (.ok (), committer) := by
  unfold makeRoom
  split
  · rename_i buffered
    rw [if_pos (alike _ (by rw [buffered]; exact List.mem_cons_self))]
  · rfl

/-- A record with the same operation is taken as planned. -/
theorem pushPaced (paced : Paced cadence operation count committer) {record : Record}
    (same : (repeatable record).operation = operation) :
    Leaves (Paced cadence operation (count + 1)) (fun _ _ => True)
      (committer.push sink.watched cadence record) := by
  have alike : ∀ other ∈ repeatable record :: committer.buffer, other.operation = operation :=
    List.forall_mem_cons.mpr ⟨same, paced.alike⟩
  unfold push
  dsimp only
  rw [same, makeRoomAlike sink paced.alike]
  dsimp only
  split
  · rename_i complete
    refine leavesMono (gaugeFlush sink cadence _ (List.cons_ne_nil _ _)) ?_ fun _ _ _ => trivial
    rintro after ⟨emptied, applied, refused, all, flushed⟩
    refine ⟨by simp [emptied], fun fine => ?_⟩
    rw [flushed, Gauge.flushFailed] at fine
    obtain ⟨full, batches, room, few, counted, gauge⟩ :=
      paced.steady (Nat.eq_zero_of_add_eq_zero_right fine)
    have none : refused = 0 := Nat.eq_zero_of_add_eq_zero_left fine
    have length : committer.buffer.length + 1 = cadence.batchSize := Nat.le_antisymm few complete
    have whole : applied = cadence.batchSize := by
      rw [← length, ← List.length_cons, ← all, none, Nat.add_zero]
    have next : after.gauge =
        (Gauge.steady cadence full batches).flush cadence cadence.batchSize 0 := by
      rw [flushed, whole, none, ← gauge]
      rfl
    obtain ⟨nextFull, more, few, sum, steady⟩ := Gauge.flushSteady cadence room
    refine ⟨nextFull, more, few, ?_, ?_, next.trans steady⟩
    · rw [emptied]
      exact cadence.batchPositive
    · rw [emptied, List.length_nil, counted]
      omega
  · rename_i short
    refine ⟨alike, fun fine => ?_⟩
    obtain ⟨full, batches, room, _, counted, gauge⟩ := paced.steady fine
    refine ⟨full, batches, room, Nat.lt_of_not_le short, ?_, gauge⟩
    rw [counted, List.length_cons]
    omega

/-- Records with one operation are taken as planned. -/
theorem followPaced (records : List Record) (paced : Paced cadence operation count committer)
    (same : ∀ record ∈ records, (repeatable record).operation = operation) :
    Leaves (Paced cadence operation (count + records.length)) (fun _ _ => True)
      ((consumer sink.watched cadence).follow (records.map .consume) committer) := by
  induction records generalizing count committer with
  | nil => exact paced
  | cons record rest inductionHypothesis =>
      obtain ⟨first, others⟩ := List.forall_mem_cons.mp same
      have pushed : Leaves (Paced cadence operation (count + 1)) (fun _ _ => True)
          ((consumer sink.watched cadence).make (.consume record) committer) :=
        pushPaced sink paced first
      rw [List.map_cons, Consumer.follow]
      cases answer : (consumer sink.watched cadence).make (.consume record) committer with
      | mk result next =>
          rw [answer] at pushed
          cases result with
          | error cause => trivial
          | ok =>
              rw [List.length_cons, Nat.add_comm rest.length, ← Nat.add_assoc]
              exact inductionHypothesis pushed others

/-- What was taken as planned ends in full transactions and the rest. -/
theorem pendingPaced (paced : Paced cadence operation count committer) :
    Leaves (fun after => after.gauge.failed = 0 →
        after.gauge = Gauge.closed cadence (count / cadence.period) (count % cadence.period))
      (fun _ _ => True) (committer.commitPending sink.watched cadence) := by
  refine leavesMono (gaugePending sink cadence committer) ?_ fun _ _ _ => trivial
  rintro after ⟨_, applied, refused, all, ended⟩ fine
  have before : committer.gauge.failed = 0 ∧ (committer.buffer.length ≠ 0 → refused = 0) := by
    rw [ended, Gauge.finishFailed] at fine
    split at fine
    · rename_i empty
      exact ⟨fine, (absurd empty ·)⟩
    · rw [Gauge.flushFailed] at fine
      omega
  obtain ⟨full, batches, room, few, counted, gauge⟩ := paced.steady before.1
  have rest := cadence.underPeriod room few
  have whole : applied = committer.buffer.length ∧ refused = 0 := by omega
  rw [ended, gauge, whole.1, whole.2, Gauge.finishSteady, counted,
    Nat.mul_add_div cadence.periodPositive, Nat.mul_add_mod, Nat.div_eq_of_lt rest,
    Nat.mod_eq_of_lt rest, Nat.add_zero]

/-- A range that was taken as planned is finished with full transactions and the rest. -/
theorem finishRangePaced (paced : Paced cadence operation count committer) {stats : CommitStats}
    {after : Committer (Traced σ)}
    (finished : committer.finishRange sink.watched cadence = (.ok stats, after))
    (fine : stats.failed = []) :
    let closed := Gauge.closed cadence (count / cadence.period) (count % cadence.period)
    stats.commits = closed.commits ∧ after.sink.portions = closed.portions := by
  have ends := pendingPaced sink paced
  unfold finishRange at finished
  cases answer : committer.commitPending sink.watched cadence with
  | mk result last =>
      rw [answer] at ends finished
      cases result with
      | error cause => cases (Prod.mk.inj finished).1
      | ok =>
          obtain ⟨told, rfl⟩ := Prod.mk.inj finished
          obtain rfl := Except.ok.inj told
          have none : last.gauge.failed = 0 :=
            congrArg List.length ((sortedHeightsEqNil last.stats.failed).mp fine)
          exact ⟨congrArg Gauge.commits (ends none), congrArg Gauge.portions (ends none)⟩

/-- A range of records with one operation is worked off as planned. -/
theorem workPaced {before : Committer σ} (idle : before.inTransaction = false)
    {range : HeightRange} {update : Bool} {records : List Record}
    (same : ∀ record ∈ records, (repeatable record).operation = operation) {stats : CommitStats}
    {after : Committer (Traced σ)}
    (worked : before.watch.work sink.watched cadence range update (records.map .consume) =
      (.ok stats, after))
    (fine : stats.failed = []) :
    let closed := Gauge.closed cadence (records.length / cadence.period)
      (records.length % cadence.period)
    stats.commits = closed.commits ∧ after.sink.portions = closed.portions := by
  have start : Paced cadence operation 0 (before.watch.beginRange range update) := by
    refine ⟨by simp [beginRange], fun _ =>
      ⟨0, 0, cadence.stridePositive, cadence.batchPositive, rfl, ?_⟩⟩
    show Gauge.mk .blank 0 0 0 before.inTransaction = _
    rw [idle]
    rfl
  have follows := followPaced sink records start same
  rw [Nat.zero_add] at follows
  unfold work at worked
  cases answer : (consumer sink.watched cadence).follow (records.map .consume)
      (before.watch.beginRange range update) with
  | mk result taken =>
      rw [answer] at follows worked
      cases result with
      | error cause => cases (Prod.mk.inj worked).1
      | ok => exact finishRangePaced sink follows worked fine

/-- A range is worked off without a refusal if no transaction fails and every record is accepted. -/
theorem workAccepted {before : Committer σ} {range : HeightRange} {update : Bool}
    {records : List Record}
    (clean : (before.sinkTrace sink cadence range update (records.map .consume)).Clean)
    (accepted : ∀ entry ∈ (before.sinkTrace sink cadence range update
      (records.map .consume)).delivery.durable, entry.2 = true) :
    ∃ stats after, before.watch.work sink.watched cadence range update (records.map .consume) =
      (.ok stats, after) ∧ stats.failed = [] := by
  have start : Tracks [] [] [] (before.watch.beginRange range update) :=
    ⟨rfl, rfl, rfl, Traced.newClean _, rfl, rfl⟩
  have leaves := (tracksCustody sink).workLeaves cadence (records.map .consume) start
  unfold sinkTrace at clean accepted
  cases answer : before.watch.work sink.watched cadence range update (records.map .consume) with
  | mk result after =>
      rw [answer] at leaves clean accepted
      cases result with
      | error cause =>
          obtain ⟨_, _, unclean⟩ := leaves
          exact absurd clean unclean
      | ok stats =>
          obtain ⟨last, tracks, rfl, sink, _⟩ := leaves
          refine ⟨_, after, rfl, (sortedHeightsEqNil _).mpr (List.reverse_eq_nil_iff.mp ?_)⟩
          have pending : last.sink.delivery.pending = [] := List.map_eq_nil_iff.mp tracks.sent
          rw [tracks.failed, pending, List.append_nil, ← sink,
            (Delivery.refusedEqNil _).mpr accepted]
          rfl

/-- Whatever the sink answers, a committer buffers less than a batch and leaves fewer applied
records than the interval to be committed. -/
theorem cadenceKept (cadence : Cadence) (range : HeightRange) (update : Bool)
    {before : Committer σ} (idle : before.inTransaction = false) :
    (∀ (calls : List RangeCall) (call : RangeCall),
      let answer := call.make sink cadence
        (RangeCall.makeAll sink cadence calls (before.beginRange range update))
      let watched := call.make sink.watched cadence
        (RangeCall.makeAll sink.watched cadence calls (before.watch.beginRange range update))
      answer = mapAnswer Traced.inner watched ∧
        (answer.1 = .ok () → answer.2.buffer.length < cadence.batchSize ∧
          watched.2.sink.portions.pending < cadence.interval)) ∧
      ∀ records : List Record,
        ((∀ record ∈ records, record.operation = .insert ∨ record.operation = .upsert) ∨
          ∀ record ∈ records, record.operation = .delete) →
        let trace := before.sinkTrace sink cadence range update (records.map .consume)
        let size := cadence.batchSize * (cadence.interval ⌈/⌉ cadence.batchSize)
        trace.Clean → (∀ entry ∈ trace.delivery.durable, entry.2 = true) →
        ∃ stats, (before.work sink cadence range update (records.map .consume)).1 = .ok stats ∧
          stats.commits = records.length ⌈/⌉ size ∧
          trace.portions.committed.length = stats.commits ∧
          trace.portions.committed.sum = records.length ∧
          ∀ portion ∈ trace.portions.committed.reverse.dropLast, portion = size := by
  constructor
  · intro calls call answer watched
    have mirrors := sink.watchedMirrors
    have mapped : answer = mapAnswer Traced.inner watched := by
      have reached := RangeCall.makeAllMap mirrors cadence calls
        (before.watch.beginRange range update)
      exact (congrArg (call.make sink cadence) reached).trans
        (RangeCall.makeMap mirrors cadence call _)
    have start : (before.watch.beginRange range update).gauge.Bounded cadence :=
      ⟨Nat.le_refl _, cadence.intervalPositive⟩
    have leaves := RangeCall.makeBounded sink (RangeCall.makeAllBounded sink calls start) call
    refine ⟨mapped, fun fine => ?_⟩
    rw [mapped] at fine ⊢
    change Leaves _ _ watched at leaves
    obtain ⟨_ | _, after⟩ := watched
    · cases fine
    · exact ⟨leaves.1, leaves.2.small⟩
  · intro records alike trace size clean accepted
    obtain ⟨operation, same⟩ : ∃ operation, ∀ record ∈ records,
        (repeatable record).operation = operation := by
      rcases alike with puts | deletions
      · refine ⟨.upsert, fun record member => ?_⟩
        rcases puts record member with insert | upsert
        · simp [repeatable, insert]
        · simp [repeatable, upsert]
      · exact ⟨.delete, fun record member => by simp [repeatable, deletions record member]⟩
    obtain ⟨stats, after, worked, fine⟩ := workAccepted sink clean accepted
    obtain ⟨commits, portions⟩ := workPaced sink idle same worked fine
    have traced : trace.portions = _ := (congrArg (·.2.sink.portions) worked).trans portions
    obtain ⟨length, sum, full⟩ := Gauge.closedPortions cadence (records.length / cadence.period)
      (records.length % cadence.period)
    rw [← traced] at length sum full
    refine ⟨stats, ?_, ?_, length.trans commits.symm, ?_, full⟩
    · rw [workWatched, worked]
      rfl
    · rw [commits, Gauge.closedCommits]
      exact (cadence.ceilDivPeriod _).symm
    · rw [sum, Nat.div_add_mod]

/-- The insert of an empty block. -/
def insertOf (height : Nat) : Record :=
  let block := { BlockPayload.blank with height := UInt64.ofNat height }
  { Record.ofBlock [UInt8.ofNat height] block with operation := .insert }

/-- In batches of two with an interval of three, five inserts need two transactions, and a deletion
after two inserts is buffered. -/
theorem cadenceOfFive :
    let cadence : Cadence := ⟨3, 2, by decide, by decide⟩
    let range : HeightRange := ⟨1, 5, by decide⟩
    let records := [1, 2, 3, 4, 5].map insertOf
    let before := new Replica.empty
    let trace := before.sinkTrace Replica.store.toSink cadence range false (records.map .consume)
    let watched := RangeCall.make Replica.store.toSink.watched cadence
      (.push { insertOf 1 with operation := .delete })
      (RangeCall.makeAll Replica.store.toSink.watched cadence
        [.push (insertOf 1), .push (insertOf 2)] (before.watch.beginRange range false))
    (watched.2.buffer.length < 2 ∧ watched.2.sink.portions.pending < 3) ∧
      ∃ stats,
        (before.work Replica.store.toSink cadence range false (records.map .consume)).1 =
            .ok stats ∧
          stats.commits = 2 ∧
          ∀ portion ∈ trace.portions.committed.reverse.dropLast, portion = 4 := by
  intro cadence range records before trace watched
  have idle : before.inTransaction = false := rfl
  obtain ⟨bounds, counts⟩ := cadenceKept Replica.store.toSink cadence range false idle
  have clean : trace.Clean := by decide +kernel
  have accepted : ∀ entry ∈ trace.delivery.durable, entry.2 = true := by decide +kernel
  have puts : ∀ record ∈ records,
      record.operation = .insert ∨ record.operation = .upsert := by decide
  obtain ⟨mapped, small⟩ := bounds [.push (insertOf 1), .push (insertOf 2)]
    (.push { insertOf 1 with operation := .delete })
  obtain ⟨stats, worked, commits, _, _, full⟩ := counts records (.inl puts) clean accepted
  refine ⟨?_, stats, worked, commits.trans (by decide), fun portion member => ?_⟩
  · rw [mapped] at small
    exact small (by decide +kernel)
  · exact (full portion member).trans (by decide)

end Committer

end Backfill
