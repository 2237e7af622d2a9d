/-
This file shows that a run that could not open or commit a transaction leaves the last missing
heights missing, and that a further run completes what it began.
-/

import Backfill.Proofs.Repair.Complete
import Backfill.Proofs.Repair.Watched

namespace Backfill

/-- The last heights of a range are those of a range that ends where it ends. -/
theorem HeightRange.suffixOfHeights {range : HeightRange} {taken left : List Nat}
    (split : range.heights = taken ++ left) (some : left ≠ []) :
    ∃ suffix : HeightRange, suffix.start ∈ range ∧ suffix.stop = range.stop ∧
      left = suffix.heights := by
  have ordered := range.ordered
  obtain ⟨count, _, _, rest⟩ := List.range'_eq_append_iff.mp split
  have positive : 0 < range.size - count := by
    rw [rest] at some
    refine Nat.pos_of_ne_zero fun nothing => some ?_
    rw [nothing]
    rfl
  unfold size at positive
  have inside : range.start + count ≤ range.stop := by omega
  have length : range.size - count = range.stop - (range.start + count) + 1 := by
    unfold size
    omega
  refine ⟨⟨range.start + count, range.stop, inside⟩, ⟨Nat.le_add_right _ _, inside⟩, rfl, ?_⟩
  rw [rest, length, Nat.mul_one]
  rfl

/-- A call that passes the guard leaves a clean trace clean if it is answered well or has nothing to
do with transactions. -/
theorem Sink.cleanOfGuard {σ : Type} {outages : Outages} {call : SinkCall}
    {act : σ → Except ReplicaError Unit × σ} {before after : Traced σ}
    {result : Except ReplicaError Unit} (clean : before.Clean)
    (answer : guard outages call act before = (result, after))
    (fine : (call, result.toBool) ≠ (SinkCall.begin, false) ∧
      (call, result.toBool) ≠ (SinkCall.commit, false)) : after.Clean :=
  Traced.cleanOfCall clean (Traced.recordEq answer).2 fine

namespace Committer

variable {σ : Type}

/-- A trace stays clean as long as the run goes on. -/
theorem cleanUpkeep (sink : Sink σ) (outages : Outages) :
    Upkeep (sink.traced outages) (fun _ _ committer => committer.sink.Clean)
      (fun _ _ _ => True) where
  alike := fun clean alike => alike.sink ▸ clean
  alikeBad := fun _ _ => trivial
  begun := fun clean _ answer => Sink.cleanOfGuard clean answer (by simp [Except.toBool])
  beginFailed := fun _ _ _ => trivial
  applied := fun clean _ answer => Sink.cleanOfGuard clean answer (by simp)
  batchRefused := fun clean _ answer => Sink.cleanOfGuard clean answer (by simp)
  refused := fun clean _ answer => Sink.cleanOfGuard clean answer (by simp)
  committed := fun clean _ answer => Sink.cleanOfGuard clean answer (by simp [Except.toBool])
  commitFailed := fun _ _ _ => trivial

end Committer

namespace Repairer

open Committer

section Clean

variable {σ : Type} {repairer : Repairer σ} {outages : Outages}
  {before after : Committer (Traced σ)}

/-- A range that does not end the run leaves a clean trace clean. -/
theorem cleanRange {planned : PlannedRange} {outcome : RangeOutcome} (clean : before.sink.Clean)
    (answer : (repairer.traced outages).repairRange planned before = (.ok outcome, after)) :
    after.sink.Clean := by
  unfold repairRange at answer
  cases present : (repairer.traced outages).isPresent planned before.sink with
  | error cause =>
      rw [present] at answer
      cases answer
  | ok there =>
      rw [present] at answer
      cases there with
      | true =>
          obtain rfl := (Prod.mk.inj answer).2
          exact clean
      | false =>
          dsimp only at answer
          have settles := (repairer.traced outages).fillSettles False
            (cleanUpkeep repairer.store.toSink outages) planned before clean False.elim
          rw [answer] at settles
          obtain ⟨last, lastClean, ends⟩ := settles
          rw [ends.sink]
          exact lastClean

theorem cleanTrail {plan : List PlannedRange} {reports : List RangeReport}
    (clean : before.sink.Clean)
    (trail : (repairer.traced outages).Trail plan before reports after) : after.sink.Clean := by
  induction trail with
  | nil committer => exact clean
  | cons answer _ inductionHypothesis => exact inductionHypothesis (cleanRange clean answer)

/-- A run that comes to its end leaves a clean trace clean. -/
theorem cleanRun {report : RepairReport} (clean : before.sink.Clean)
    (finished : (repairer.traced outages).run .missing before = (.ok report, after)) :
    after.sink.Clean := by
  have trails := (repairer.traced outages).runTrail before
  rw [finished] at trails
  obtain ⟨gaps, start, last, _, alikeStart, trail, alikeLast⟩ := trails
  rw [alikeLast.sink]
  exact cleanTrail (alikeStart.sink.symm ▸ clean) trail

end Clean

section Resumed

variable {σ : Type} {repairer : Repairer σ} {tables : Tables} {first later : List HeightRange}
  {current suffix : HeightRange} {taken : List Nat}

/-- The heights of ranges, cut within one of them. -/
theorem heightsOfCut (split : current.heights = taken ++ suffix.heights) :
    (first ++ current :: later).flatMap HeightRange.heights =
      (first.flatMap HeightRange.heights ++ taken) ++
        (suffix :: later).flatMap HeightRange.heights := by
  rw [List.flatMap_append, List.flatMap_cons, List.flatMap_cons, split]
  simp only [List.append_assoc]

theorem missingOfCut
    (detected : Replica.store.detectGaps repairer.settings.fromGenesis (.ofTables tables) =
      .ok (first ++ current :: later))
    (split : current.heights = taken ++ suffix.heights) :
    ∀ height ∈ first.flatMap HeightRange.heights ++ taken,
      tables.Missing repairer.settings.fromGenesis height := by
  intro height inside
  obtain ⟨_, _, exact⟩ := Replica.detectGapsIff.mp detected
  refine (exact height).mp ((memFlatHeights _ height).mp ?_)
  rw [heightsOfCut split]
  exact List.mem_append_left _ inside

/-- Once the first missing ranges are filled and the next one up to some height, what is detected
are the other heights of that range, and the ranges after it. -/
theorem detectedOfCut (fillable : repairer.Fillable tables)
    (detected : Replica.store.detectGaps repairer.settings.fromGenesis (.ofTables tables) =
      .ok (first ++ current :: later))
    (split : current.heights = taken ++ suffix.heights) (stop : suffix.stop = current.stop) :
    Replica.store.detectGaps repairer.settings.fromGenesis (.ofTables (tables.writeAll false
        (repairer.fetcher.records (first.flatMap HeightRange.heights ++ taken)))) =
      .ok (suffix :: later) := by
  have missing := missingOfCut detected split
  obtain ⟨natural, separated, exact⟩ := Replica.detectGapsIff.mp detected
  have apart := heightsOfSeparated separated
  rw [heightsOfCut split] at apart
  refine Replica.detectGapsIff.mpr ⟨?_, ?_, fun height => ?_⟩
  · exact Tables.naturalOfFills
      (fillsOfFetches fillable.fresh (fetchesRecords missing)) natural
  · obtain ⟨below, above⟩ := List.pairwise_cons.mp (List.pairwise_append.mp separated).2.1
    exact List.pairwise_cons.mpr ⟨fun other member => stop ▸ below other member, above⟩
  · have among : tables.Missing repairer.settings.fromGenesis height ↔
        height ∈ first.flatMap HeightRange.heights ++ taken ∨
          height ∈ (suffix :: later).flatMap HeightRange.heights := by
      rw [← List.mem_append, ← heightsOfCut split, memFlatHeights]
      exact (exact height).symm
    refine Iff.trans ?_ (missingOfRecords fillable missing height).symm
    rw [among, ← memFlatHeights]
    constructor
    · intro inside
      refine ⟨.inr inside, fun before => ?_⟩
      exact Nat.lt_irrefl height ((List.pairwise_append.mp apart).2.2 height before height inside)
    · rintro ⟨before | inside, absent⟩
      · exact absurd before absent
      · exact inside

end Resumed

section Interrupted

variable {repairer : Repairer Replica} {replica : Replica}

/-- Where a run stood that was interrupted: the first ranges are filled, and the current one up to
some height. -/
structure Interrupted (repairer : Repairer Replica) (replica left : Replica)
    (first : List HeightRange) (current suffix : HeightRange) (later : List HeightRange)
    (taken : List Nat) : Prop where
  detected : Replica.store.detectGaps repairer.settings.fromGenesis replica =
    .ok (first ++ current :: later)
  split : current.heights = taken ++ suffix.heights
  start : suffix.start ∈ current
  stop : suffix.stop = current.stop
  filled : left = .ofTables (replica.visible.writeAll false
    (repairer.fetcher.records (first.flatMap HeightRange.heights ++ taken)))

/-- A run in which a transaction could not be opened or committed is interrupted in a range. -/
theorem interruptedOfRefusal (plain : repairer.store = Replica.store)
    (unlogged : repairer.log = none) (fillable : repairer.Fillable replica.visible)
    (quiet : replica.working = none)
    {outages : Outages}
    (applies : ∀ update records count, outages (.apply update records) count = none)
    {before after : Committer (Traced Replica)} (start : before.sink = .new replica)
    (closed : before.inTransaction = false) {result : Except RunError RepairReport}
    (interrupted : (repairer.traced outages).run .missing before = (result, after))
    (unclean : ¬after.sink.Clean) :
    (∃ stage fault, result = .error (.commit stage fault)) ∧ after.inTransaction = false ∧
      ∃ first current suffix later taken, after.range = some current ∧
        repairer.Interrupted replica after.sink.inner first current suffix later taken := by
  have backed : (repairer.traced outages).store.Backed Traced.inner := by
    have behind := Replica.tracedBacked applies
    rwa [← plain] at behind
  have clean : before.sink.Clean := by
    rw [start]
    exact ⟨by simp [Traced.new], by simp [Traced.new]⟩
  have tracedFillable : (repairer.traced outages).Fillable before.sink.inner.visible := by
    rw [start]
    obtain ⟨fits, ⟨upserts, absent, distinct⟩, complete⟩ := fillable
    exact ⟨fits, ⟨upserts, absent, distinct⟩, complete⟩
  cases result with
  | ok report => exact absurd (cleanRun clean interrupted) unclean
  | error cause =>
      cases detected : (repairer.traced outages).store.detectGaps
          (repairer.traced outages).settings.fromGenesis before.sink with
      | error fault =>
          unfold run plan at interrupted
          rw [detected] at interrupted
          obtain rfl := (Prod.mk.inj interrupted).2
          exact absurd clean unclean
      | ok gaps =>
          obtain ⟨broken, afterClosed, _, first, current, later, taken, left, rfl, heights, some,
            range, filled⟩ := filledOfBroken backed unlogged tracedFillable closed
              (by rw [start]; exact quiet) detected interrupted
          obtain ⟨suffix, inside, stop, rfl⟩ := HeightRange.suffixOfHeights heights some
          rw [Store.detectGapsBacked backed, start] at detected
          rw [start] at filled
          exact ⟨broken.imp fun _ => Exists.imp fun _ => congrArg Except.error, afterClosed, first,
            current, suffix, later, taken, range, detected, heights, inside, stop, filled⟩

variable {left : Replica} {first later : List HeightRange} {current suffix : HeightRange}
  {taken : List Nat}

theorem detectedOfInterrupted (fillable : repairer.Fillable replica.visible)
    (quiet : replica.working = none)
    (interrupted : repairer.Interrupted replica left first current suffix later taken) :
    Replica.store.detectGaps repairer.settings.fromGenesis left = .ok (suffix :: later) := by
  have detected := interrupted.detected
  rw [eqOfClosed quiet] at detected
  rw [interrupted.filled]
  exact detectedOfCut fillable detected interrupted.split interrupted.stop

/-- A run that goes on where another one was interrupted comes to the same replica as a run that was
not interrupted. -/
theorem resumedOfInterrupted (plain : repairer.store = Replica.store)
    (unlogged : repairer.log = none) (fillable : repairer.Fillable replica.visible)
    (quiet : replica.working = none)
    (interrupted : repairer.Interrupted replica left first current suffix later taken)
    {whole again : Committer Replica} (wholeSink : whole.sink = replica)
    (wholeClosed : whole.inTransaction = false) (againSink : again.sink = left)
    (againClosed : again.inTransaction = false) :
    ∃ report last further final, repairer.run .missing whole = (.ok report, last) ∧
      repairer.run .missing again = (.ok further, final) ∧ final.sink = last.sink := by
  have backed : repairer.store.Backed id := plain ▸ Replica.storeBacked
  have reliable : repairer.store.Reliable id := plain ▸ Replica.storeReliable
  have cut := detectedOfInterrupted fillable quiet interrupted
  obtain ⟨detected, split, _, _, rfl⟩ := interrupted
  have missing := missingOfCut (eqOfClosed quiet ▸ detected) split
  rw [← wholeSink, ← plain] at detected
  rw [← againSink, ← plain] at cut
  obtain ⟨report, last, finished, _, lastState⟩ := runOfReliable backed unlogged
    (wholeSink ▸ fillable) wholeClosed (wholeSink ▸ quiet) detected reliable
  obtain ⟨further, final, resumed, _, finalState⟩ := runOfReliable backed unlogged
    (againSink ▸ fillableOfRecords fillable missing) againClosed (againSink ▸ rfl) cut reliable
  refine ⟨report, last, further, final, finished, resumed, ?_⟩
  have lastSink : last.sink = .ofTables (whole.sink.visible.writeAll false _) := lastState
  have finalSink : final.sink = .ofTables (again.sink.visible.writeAll false _) := finalState
  rw [lastSink, finalSink, wholeSink, againSink, heightsOfCut split,
    Fetcher.recordsAppend _ (_ ++ _), Tables.writeAllAppend]
  rfl

end Interrupted

/-- A run that ends because a transaction could not be opened or committed is resumed by a further
run, which comes to the same replica as one that was not interrupted. -/
theorem interruptedRunResumes (repairer : Repairer Replica)
    (plain : repairer.store = Replica.store) (unlogged : repairer.log = none)
    {replica : Replica} (reachable : replica.Reachable)
    (quiet : replica.working = none) (fresh : repairer.Fresh replica.visible)
    (complete : ∀ height, replica.visible.Missing repairer.settings.fromGenesis height →
      ∃ record, repairer.fetcher.recordAt? height = some record ∧ record.isStorable = true)
    {outages : Outages}
    (applies : ∀ update records count, outages (.apply update records) count = none)
    {before after : Committer (Traced Replica)} (start : before.sink = .new replica)
    (closed : before.inTransaction = false) {result : Except RunError RepairReport}
    (interrupted : (repairer.traced outages).run .missing before = (result, after))
    (refused : (SinkCall.begin, false) ∈ after.sink.calls ∨
      (SinkCall.commit, false) ∈ after.sink.calls) :
    (∃ stage fault, result = .error (.commit stage fault)) ∧
      (∃ first current suffix later,
        repairer.store.detectGaps repairer.settings.fromGenesis replica =
          .ok (first ++ current :: later) ∧
        after.range = some current ∧ suffix.start ∈ current ∧ suffix.stop = current.stop ∧
        repairer.store.detectGaps repairer.settings.fromGenesis after.sink.inner =
          .ok (suffix :: later)) ∧
      after.inTransaction = false ∧
      ∀ whole again : Committer Replica, whole.sink = replica → whole.inTransaction = false →
        again.sink = after.sink.inner → again.inTransaction = false →
          ∃ report last further final, repairer.run .missing whole = (.ok report, last) ∧
            repairer.run .missing again = (.ok further, final) ∧ final.sink = last.sink := by
  have unclean : ¬after.sink.Clean := fun clean => refused.elim clean.1 clean.2
  have fillable : repairer.Fillable replica.visible :=
    ⟨Replica.visibleFits reachable, fresh, complete⟩
  obtain ⟨broken, afterClosed, first, current, suffix, later, taken, range, stood⟩ :=
    interruptedOfRefusal plain unlogged fillable quiet applies start closed interrupted
      unclean
  have cut := detectedOfInterrupted fillable quiet stood
  have detected := stood.detected
  rw [← plain] at detected cut
  exact ⟨broken, ⟨first, current, suffix, later, detected, range, stood.start, stood.stop, cut⟩,
    afterClosed, fun _ _ wholeSink wholeClosed againSink againClosed => resumedOfInterrupted plain
      unlogged fillable quiet stood wholeSink wholeClosed againSink againClosed⟩

/-- The first commit is refused. -/
def firstCommitRefused : Outages := fun call count =>
  if call = .commit ∧ count = 1 then some .noTransaction else none

theorem interruptedGapResumes : ∃ cause after,
    (blanks.traced firstCommitRefused).run .missing (.new (.new (.ofTables .gapped))) =
        (.error cause, after) ∧
      (∃ suffix later,
        blanks.store.detectGaps true after.sink.inner = .ok (suffix :: later)) ∧
      ∃ report last further final,
        blanks.run .missing (.new (.ofTables .gapped)) = (.ok report, last) ∧
          blanks.run .missing (.new after.sink.inner) = (.ok further, final) ∧
            final.sink = last.sink := by
  have fillable : blanks.Fillable (Replica.ofTables .gapped).visible := blanksFillable
  have applies (update : Bool) (records : List Record) (count : Nat) :
      firstCommitRefused (.apply update records) count = none := by
    simp [firstCommitRefused]
  let start : Committer (Traced Replica) := .new (.new (.ofTables .gapped))
  have detected : (blanks.traced firstCommitRefused).store.detectGaps true start.sink =
      .ok [Tables.gap] :=
    (Store.detectGapsBacked (Replica.tracedBacked applies) true start.sink).trans
      (Replica.detectGapsGapped true)
  have refused : (SinkCall.commit, false) ∈
      ((blanks.traced firstCommitRefused).run .missing start).2.sink.calls := by
    rw [runOfGaps _ detected]
    decide +kernel
  obtain ⟨⟨stage, fault, failed⟩, ⟨_, _, suffix, later, _, _, _, _, cut⟩, _, resumes⟩ :=
    interruptedRunResumes blanks rfl rfl (.opened .gapped fillable.fits) rfl fillable.fresh
      fillable.complete applies rfl rfl
      (rfl : (blanks.traced firstCommitRefused).run .missing start = (_, _)) (.inr refused)
  exact ⟨_, _, Prod.ext failed rfl, ⟨suffix, later, cut⟩, resumes _ _ rfl rfl rfl rfl⟩

end Repairer

end Backfill
