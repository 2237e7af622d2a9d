/-
This file shows what a repair writes to the replica behind its store: the records that were taken,
in order, and after a failure those of them that were committed.
-/

import Backfill.Proofs.Repair.Range
import Backfill.Proofs.Repair.Trail
import Backfill.Proofs.Replica.Backed

namespace Backfill

variable {σ : Type}

/-- Whether the blocks of a list can all be stored is told by its parts. -/
theorem storableAppend (first second : List Record) :
    (∀ record ∈ first ++ second, record.isStorable = true) ↔
      (∀ record ∈ first, record.isStorable = true) ∧
        ∀ record ∈ second, record.isStorable = true :=
  List.forall_mem_append

namespace Committer

/-- A committer at work on a range of a replica shows all records that were written, and has those
durable that were written for good. -/
structure Writes (replica : σ → Replica) (replaces : Bool) (range : HeightRange) (start : Replica)
    (done sent : List Record) (committer : Committer σ) : Prop where
  update : committer.update = replaces
  range : committer.range = some range
  visible : (replica committer.sink).visible = start.visible.writeAll replaces (done ++ sent)
  working : committer.inTransaction = true → (replica committer.sink).working ≠ none
  durable : start.working = none → committer.inTransaction = true →
    (replica committer.sink).committed = start.visible.writeAll replaces done
  idle : committer.inTransaction = false → (replica committer.sink).working ≠ none →
    start.working ≠ none
  failed : committer.stats.failed = [] ↔ ∀ record ∈ done ++ sent, record.isStorable = true

/-- A committer that could not open or commit a transaction leaves an idle replica with the records
that were written for good. -/
structure Breaks (store : Store σ) (replica : σ → Replica) (replaces : Bool) (range : HeightRange)
    (start : Replica) (done : List Record) (cause : RunError) (committer : Committer σ) : Prop where
  range : committer.range = some range
  closed : committer.inTransaction = false
  cause : ∃ stage fault, cause = .commit stage fault
  left : start.working = none →
    replica committer.sink = .ofTables (start.visible.writeAll replaces done) ∧
      ¬store.Reliable replica

/-- A committer that takes a transaction to be open has one open in the replica. -/
def Consistent (replica : σ → Replica) (committer : Committer σ) : Prop :=
  committer.inTransaction = true → (replica committer.sink).working ≠ none

variable {store : Store σ} {replica : σ → Replica}

theorem visibleOfClosed {state : Replica} (closed : state.working = none) :
    state.visible = state.committed := by
  rw [Replica.visible, closed]
  rfl

theorem eqOfClosed {state : Replica} (closed : state.working = none) :
    state = .ofTables state.visible := by
  rw [visibleOfClosed closed, Replica.ofTables, ← closed]

section Answers

variable {update : Bool} {range : HeightRange} {start : Replica} {done sent batch : List Record}
  {record : Record} {cause : ReplicaError} {committer other : Committer σ} {next : σ}

theorem writesAlike (writes : Writes replica update range start done sent committer)
    (alike : Alike committer other) : Writes replica update range start done sent other := by
  constructor
  · rw [alike.update]
    exact writes.update
  · rw [alike.range]
    exact writes.range
  · rw [alike.sink]
    exact writes.visible
  · rw [alike.inTransaction, alike.sink]
    exact writes.working
  · rw [alike.inTransaction, alike.sink]
    exact writes.durable
  · rw [alike.inTransaction, alike.sink]
    exact writes.idle
  · rw [alike.stats]
    exact writes.failed

theorem breaksAlike {cause : RunError}
    (breaks : Breaks store replica update range start done cause committer)
    (alike : Alike committer other) :
    Breaks store replica update range start done cause other := by
  constructor
  · rw [alike.range]
    exact breaks.range
  · rw [alike.inTransaction]
    exact breaks.closed
  · exact breaks.cause
  · rw [alike.sink]
    exact breaks.left

/-- A transaction starts from what is durable. -/
theorem writesBegun (backed : store.Backed replica)
    (writes : Writes replica update range start done [] committer)
    (answer : store.begin committer.sink = (.ok (), next)) :
    Writes replica update range start done [] (opened next committer) := by
  obtain ⟨closed, begun⟩ := backed.begun answer
  have visible := writes.visible
  rw [visibleOfClosed closed] at visible
  refine ⟨writes.update, writes.range, ?_, fun _ => ?_, fun _ _ => ?_, ?_, writes.failed⟩
  · rw [opened, begun]
    exact visible
  · rw [opened, begun]
    simp
  · rw [opened, begun]
    rw [List.append_nil] at visible
    exact visible
  · simp [opened]

/-- A store that does not open a transaction for an idle replica cannot be relied on. -/
theorem breaksOfBegin (backed : store.Backed replica)
    (writes : Writes replica update range start done [] committer)
    (closed : committer.inTransaction = false)
    (answer : store.begin committer.sink = (.error cause, next)) :
    Breaks store replica update range start done (.commit .begin cause)
      { committer with sink := next } := by
  have same := backed.beginRefused answer
  refine ⟨writes.range, closed, ⟨_, _, rfl⟩, fun quiet => ?_⟩
  have still : (replica committer.sink).working = none := by
    by_contra busy
    exact writes.idle closed busy quiet
  constructor
  · rw [same, eqOfClosed still, writes.visible, List.append_nil]
  · intro reliable
    have begins := reliable.begins committer.sink still
    rw [answer] at begins
    cases begins

/-- A batch that was applied is written in the open transaction, and all of it can be stored. -/
theorem writesApplied (backed : store.Backed replica)
    (writes : Writes replica update range start done sent committer)
    (busy : committer.inTransaction = true)
    (answer : store.apply committer.update batch committer.sink = (.ok (), next)) :
    Writes replica update range start done (sent ++ batch)
      (written next batch.length committer) := by
  rw [writes.update] at answer
  obtain ⟨visible, working, durable, storable⟩ := Replica.workingOfApply (backed.applied answer)
  refine ⟨writes.update, writes.range, ?_, fun _ => working, fun quiet _ => ?_, ?_, ?_⟩
  · rw [written, visible, writes.visible, ← Tables.writeAllAppend, List.append_assoc]
  · exact durable.trans (writes.durable quiet busy)
  · intro closed
    simp [written, busy] at closed
  · rw [← List.append_assoc, storableAppend, written]
    exact writes.failed.trans ⟨fun before => ⟨before, storable⟩, And.left⟩

theorem writesUnchanged (same : replica next = replica committer.sink)
    (writes : Writes replica update range start done sent committer) :
    Writes replica update range start done sent { committer with sink := next } := by
  constructor
  · exact writes.update
  · exact writes.range
  · rw [same]
    exact writes.visible
  · rw [same]
    exact writes.working
  · rw [same]
    exact writes.durable
  · rw [same]
    exact writes.idle
  · exact writes.failed

/-- A record that was refused alone cannot be stored, so writing it changes nothing. -/
theorem writesRefused (backed : store.Backed replica)
    (writes : Writes replica update range start done sent committer)
    (busy : committer.inTransaction = true)
    (answer : store.apply committer.update [record] committer.sink = (.error cause, next)) :
    Writes replica update range start done (sent ++ [record])
      (rejected next record committer) := by
  obtain ⟨same, unstorable⟩ := Replica.sameOfRefusal (backed.applied answer)
  have refused : record.isStorable = false := by
    obtain ⟨other, member, unstorable⟩ := unstorable (writes.working busy)
    rwa [List.mem_singleton.mp member] at unstorable
  have kept := writesUnchanged same writes
  refine ⟨kept.update, kept.range, ?_, kept.working, kept.durable, kept.idle, ?_⟩
  · rw [← List.append_assoc, Tables.writeAllAppend _ _ (done ++ sent), ← kept.visible]
    exact (Tables.writeOfRefused update _ refused).symm
  · rw [← List.append_assoc, storableAppend]
    simp [rejected, refused]

/-- A commit writes for good what was written in the transaction. -/
theorem writesCommitted (backed : store.Backed replica)
    (writes : Writes replica update range start done sent committer)
    (answer : store.commit committer.sink = (.ok (), next)) :
    Writes replica update range start (done ++ sent) [] (settled next committer) := by
  obtain ⟨tables, working, committed⟩ := backed.committed answer
  have visible : tables = start.visible.writeAll update (done ++ sent) := by
    rw [← writes.visible, Replica.visible, working]
    rfl
  refine ⟨writes.update, writes.range, ?_, ?_, ?_, ?_, ?_⟩
  · rw [settled, committed, visible, List.append_nil]
    rfl
  · simp [settled]
  · simp [settled]
  · rw [settled, committed]
    simp [Replica.ofTables]
  · rw [List.append_nil]
    exact writes.failed

/-- A commit that fails leaves what was written for good, and the store cannot be relied on. -/
theorem breaksOfCommit (backed : store.Backed replica)
    (writes : Writes replica update range start done sent committer)
    (busy : committer.inTransaction = true)
    (answer : store.commit committer.sink = (.error cause, next)) :
    Breaks store replica update range start done (.commit .commit cause)
      (abandoned (store.rollback next).2 committer) := by
  have same := backed.commitRefused answer
  refine ⟨writes.range, rfl, ⟨_, _, rfl⟩, fun quiet => ⟨?_, fun reliable => ?_⟩⟩
  · rw [abandoned, backed.rolledBack, same, writes.durable quiet busy]
  · have commits := reliable.commits committer.sink (writes.working busy)
    rw [answer] at commits
    cases commits

end Answers

/-- The calls to a store that keeps its records in a replica write to the replica. -/
theorem writesUpkeep (backed : store.Backed replica) (update : Bool) (range : HeightRange)
    (start : Replica) :
    Upkeep store.toSink (Writes replica update range start)
      (Breaks store replica update range start) where
  alike := writesAlike
  alikeBad := breaksAlike
  begun := fun writes _ answer => writesBegun backed writes answer
  beginFailed := breaksOfBegin backed
  applied := writesApplied backed
  batchRefused := fun writes _ answer =>
    writesUnchanged (Replica.sameOfRefusal (backed.applied answer)).1 writes
  refused := writesRefused backed
  committed := fun writes _ answer => writesCommitted backed writes answer
  commitFailed := breaksOfCommit backed

end Committer

namespace Repairer

open Committer

variable (repairer : Repairer σ) (replica : σ → Replica)

/-- The records that were written for a report: none if the range was skipped. -/
def writtenFor (report : RangeReport) : List Record :=
  if report.outcome.isSkipped then [] else repairer.toWrite report.planned

/-- What a range that did not end the run leaves in the replica. -/
structure RangeWritten (report : RangeReport) (before after : Committer σ) : Prop where
  consistent : Consistent replica after
  inTransaction : after.inTransaction = true → before.inTransaction = true
  idle : (replica after.sink).working ≠ none → (replica before.sink).working ≠ none
  visible : (replica after.sink).visible =
    (replica before.sink).visible.writeAll report.planned.origin.replaces
      (repairer.writtenFor report)
  skipped : report.outcome.isSkipped = true →
    repairer.isPresent report.planned before.sink = .ok true
  repaired : ∀ emitted applied commits, report.outcome = .repaired emitted applied commits →
    repairer.verdict report.planned = .emitted emitted ∧
      ∀ record ∈ repairer.toWrite report.planned, record.isStorable = true
  failed : ∀ error, report.outcome = .failed error →
    repairer.verdict report.planned = .failed error ∨
      ∃ record ∈ repairer.toWrite report.planned, record.isStorable = false

variable {repairer replica} {planned : PlannedRange} {before after : Committer σ}

theorem consistentOfClosed (closed : after.inTransaction = false) : Consistent replica after :=
  fun busy => by simp [closed] at busy

theorem startWrites (planned : PlannedRange) (consistent : Consistent replica before) :
    Writes replica planned.origin.replaces planned.range (replica before.sink) [] []
      (startRange planned before) where
  update := rfl
  range := rfl
  visible := rfl
  working := consistent
  durable := fun quiet busy => absurd quiet (consistent busy)
  idle := fun _ busy => busy
  failed := ⟨fun _ => by simp, fun _ => rfl⟩

/-- A range that was filled has its records written. -/
theorem writtenOfEnds {last : Committer σ} {outcome : RangeOutcome}
    (writes : Writes replica planned.origin.replaces planned.range (replica before.sink)
      (repairer.toWrite planned) [] last)
    (ends : repairer.Ends planned before last outcome after) :
    repairer.RangeWritten replica ⟨planned, outcome⟩ before after := by
  have filled := attemptedOfEnds ends
  have visible := writes.visible
  rw [List.append_nil, ← ends.sink] at visible
  refine ⟨consistentOfClosed ends.inTransaction,
    fun busy => absurd busy (by simp [ends.inTransaction]), ?_, ?_, ?_, ?_, ?_⟩
  · rw [ends.sink]
    exact writes.idle ends.closed
  · rw [writtenFor, filled]
    exact visible
  · intro skipped
    rw [filled] at skipped
    cases skipped
  · intro emitted applied commits repaired
    obtain ⟨verdict, stats⟩ := ends.repaired emitted applied commits repaired
    refine ⟨verdict, ?_⟩
    have all := writes.failed.mp (by rw [stats])
    rwa [List.append_nil] at all
  · intro error failed
    refine (ends.failed error failed).imp_right fun refusals => ?_
    have refused := mt writes.failed.mpr refusals.2.1
    simpa using refused

/-- A range that did not end the run has its records written, unless it was skipped. -/
theorem rangeWritten (backed : repairer.store.Backed replica) {outcome : RangeOutcome}
    (consistent : Consistent replica before)
    (answer : repairer.repairRange planned before = (.ok outcome, after)) :
    repairer.RangeWritten replica ⟨planned, outcome⟩ before after := by
  unfold repairRange at answer
  cases present : repairer.isPresent planned before.sink with
  | error cause =>
      rw [present] at answer
      cases answer
  | ok there =>
      rw [present] at answer
      cases there with
      | true =>
          obtain ⟨same, rfl⟩ := Prod.mk.inj answer
          obtain rfl := Except.ok.inj same
          exact ⟨consistent, fun busy => busy, fun busy => busy, rfl, fun _ => present, by simp,
            by simp⟩
      | false =>
          dsimp only at answer
          have settles := repairer.fillSettles False
            (writesUpkeep backed planned.origin.replaces planned.range (replica before.sink))
            planned before (startWrites planned consistent) False.elim
          rw [answer] at settles
          obtain ⟨last, writes, ends⟩ := settles
          exact writtenOfEnds writes ends

/-- A range that ended the run could not be looked up, had a source that ended the run, or failed
to open or to commit a transaction when some of its records were not yet written for good. -/
theorem rangeBreaks (backed : repairer.store.Backed replica) {cause : RunError}
    (closed : before.inTransaction = false)
    (answer : repairer.repairRange planned before = (.error cause, after)) :
    (∃ fault, repairer.isPresent planned before.sink = .error fault) ∨
      repairer.isPresent planned before.sink = .ok false ∧
        (repairer.verdict planned = .ended cause ∨
          Losing True
            (Breaks repairer.store replica planned.origin.replaces planned.range
              (replica before.sink)) (repairer.toWrite planned) cause after) := by
  unfold repairRange at answer
  cases present : repairer.isPresent planned before.sink with
  | error fault => exact .inl ⟨fault, rfl⟩
  | ok there =>
      rw [present] at answer
      cases there with
      | true => cases answer
      | false =>
          dsimp only at answer
          have settles := repairer.fillSettles True
            (writesUpkeep backed planned.origin.replaces planned.range (replica before.sink))
            planned before (startWrites planned (consistentOfClosed closed)) fun _ => closed
          rw [answer] at settles
          exact .inr ⟨rfl, settles.symm⟩

/-- A range that is not there yet and is acquired does not end the run if the store can be relied
on. -/
theorem endedOfReliable (backed : repairer.store.Backed replica)
    (reliable : repairer.store.Reliable replica) (closed : before.inTransaction = false)
    (quiet : (replica before.sink).working = none)
    (absent : repairer.isPresent planned before.sink = .ok false) {emitted : Nat}
    (verdict : repairer.verdict planned = .emitted emitted) :
    ∃ outcome after, repairer.repairRange planned before = (.ok outcome, after) := by
  cases answer : repairer.repairRange planned before with
  | mk result after =>
      cases result with
      | ok outcome => exact ⟨outcome, after, rfl⟩
      | error cause =>
          rcases rangeBreaks backed closed answer with ⟨fault, present⟩ | ⟨_, ended | losing⟩
          · rw [absent] at present
            cases present
          · rw [verdict] at ended
            cases ended
          · obtain ⟨_, _, _, _, breaks⟩ := losing
            exact absurd reliable (breaks.left quiet).2

/-- A range is repaired if it is not there yet, all its records are handed on and can be stored, and
the store can be relied on. -/
theorem repairedOfEmitted (backed : repairer.store.Backed replica)
    (reliable : repairer.store.Reliable replica) (closed : before.inTransaction = false)
    (quiet : (replica before.sink).working = none)
    (absent : repairer.isPresent planned before.sink = .ok false) {emitted : Nat}
    (verdict : repairer.verdict planned = .emitted emitted)
    (storable : ∀ record ∈ repairer.toWrite planned, record.isStorable = true) :
    ∃ applied commits after, repairer.repairRange planned before =
      (.ok (.repaired emitted applied commits), after) := by
  obtain ⟨outcome, after, answer⟩ := endedOfReliable backed reliable closed quiet absent verdict
  have written := rangeWritten backed (consistentOfClosed closed) answer
  cases outcome with
  | repaired count applied commits =>
      obtain rfl := Acquired.emitted.inj
        (verdict.symm.trans (written.repaired count applied commits rfl).1)
      exact ⟨applied, commits, after, answer⟩
  | skipped height =>
      have present := written.skipped rfl
      rw [absent] at present
      cases present
  | failed error =>
      rcases written.failed error rfl with failed | ⟨record, member, refused⟩
      · rw [verdict] at failed
        cases failed
      · rw [storable record member] at refused
        cases refused

/-- A repairer that fetches the blank blocks of the heights below four. -/
def blanks : Repairer Replica where
  settings := .standard
  fetcher := .blanks 4
  log := none
  store := Replica.store
  schedule := .steady

/-- The plan for what is missing between the heights zero and three. -/
def gap (strategy : Strategy) : PlannedRange :=
  ⟨Tables.gap, strategy, .detected⟩

/-- The records that were written for reports, in order. -/
def writtenForAll (repairer : Repairer σ) (reports : List RangeReport) : List Record :=
  reports.flatMap repairer.writtenFor

theorem writtenForAllCons (repairer : Repairer σ) (report : RangeReport)
    (reports : List RangeReport) :
    repairer.writtenForAll (report :: reports) =
      repairer.writtenFor report ++ repairer.writtenForAll reports :=
  List.flatMap_cons

theorem writtenForAllAppend (repairer : Repairer σ) (first second : List RangeReport) :
    repairer.writtenForAll (first ++ second) =
      repairer.writtenForAll first ++ repairer.writtenForAll second :=
  List.flatMap_append

/-- What a trail of ranges that were found missing leaves in the replica, each after those before
it. -/
structure TrailWritten (repairer : Repairer σ) (replica : σ → Replica)
    (before : Committer σ) (reports : List RangeReport) (after : Committer σ) : Prop where
  inTransaction : after.inTransaction = true → before.inTransaction = true
  idle : (replica after.sink).working ≠ none → (replica before.sink).working ≠ none
  visible : (replica after.sink).visible =
    (replica before.sink).visible.writeAll false (repairer.writtenForAll reports)
  skipped : ∀ first report rest, reports = first ++ report :: rest →
    report.outcome.isSkipped = true →
      ((replica before.sink).visible.writeAll false (repairer.writtenForAll first)).holds
        (UInt64.ofNat report.planned.range.start) = .ok true
  repaired : ∀ report ∈ reports, ∀ emitted applied commits,
    report.outcome = .repaired emitted applied commits →
      repairer.verdict report.planned = .emitted emitted ∧
        ∀ record ∈ repairer.toWrite report.planned, record.isStorable = true
  failed : ∀ report ∈ reports, ∀ error, report.outcome = .failed error →
    repairer.verdict report.planned = .failed error ∨
      ∃ record ∈ repairer.toWrite report.planned, record.isStorable = false

/-- A store that keeps its records in a replica holds what can be asked of the replica. -/
theorem presentIff (backed : repairer.store.Backed replica) (state : σ)
    (detected : planned.origin = .detected) :
    repairer.isPresent planned state =
      (replica state).visible.holds (UInt64.ofNat planned.range.start) := by
  rw [isPresent, detected]
  dsimp only
  rw [backed.holds]
  rfl

/-- Ranges that were found missing are written one after another. -/
theorem trailWritten (backed : repairer.store.Backed replica) {plan : List PlannedRange}
    {reports : List RangeReport} (trail : repairer.Trail plan before reports after)
    (detected : ∀ planned ∈ plan, planned.origin = .detected)
    (consistent : Consistent replica before) :
    repairer.TrailWritten replica before reports after := by
  induction trail with
  | nil committer =>
      exact ⟨fun busy => busy, fun busy => busy, rfl, by simp, by simp, by simp⟩
  | @cons planned rest outcome reports before middle after answer _ inductionHypothesis =>
      have first := rangeWritten backed consistent answer
      have found := detected planned List.mem_cons_self
      have later := inductionHypothesis
        (fun other member => detected other (List.mem_cons_of_mem _ member)) first.consistent
      have visible := first.visible
      rw [found] at visible
      refine ⟨fun busy => first.inTransaction (later.inTransaction busy),
        fun busy => first.idle (later.idle busy), ?_, ?_, ?_, ?_⟩
      · rw [later.visible, visible, writtenForAllCons, Tables.writeAllAppend]
        rfl
      · intro before report after split skipped
        cases before with
        | nil =>
            obtain ⟨rfl, rfl⟩ := List.cons.inj split
            have present := first.skipped skipped
            rwa [presentIff backed _ found] at present
        | cons head before =>
            obtain ⟨rfl, others⟩ := List.cons.inj split
            have present := later.skipped before report after others skipped
            rw [visible] at present
            rw [writtenForAllCons, Tables.writeAllAppend]
            exact present
      · intro report member emitted applied commits repaired
        rcases List.mem_cons.mp member with rfl | inside
        · exact first.repaired emitted applied commits repaired
        · exact later.repaired report inside emitted applied commits repaired
      · intro report member error failed
        rcases List.mem_cons.mp member with rfl | inside
        · exact first.failed error failed
        · exact later.failed report inside error failed

end Repairer

end Backfill
