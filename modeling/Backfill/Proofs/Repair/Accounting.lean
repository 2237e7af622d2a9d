/-
This file accounts for the records of a repaired range: one record of each height is handed on,
taken and applied, and all of them are committed.
-/

import Backfill.Proofs.Repair.Durability
import Backfill.Proofs.Replica.Ledger

namespace Backfill

namespace Committer

variable {σ : Type}

/-- Every record that was written is counted as applied or as refused, and none is written for
good without a commit. -/
structure Counts (done sent : List Record) (committer : Committer σ) : Prop where
  written : committer.stats.applied + committer.stats.failed.length = done.length + sent.length
  commits : done ≠ [] → 0 < committer.stats.commits

/-- Every sink lets a committer keep count. -/
theorem countsUpkeep (sink : Sink σ) :
    Upkeep sink Counts (fun _ _ _ => True) where
  alike := fun counts alike => by
    constructor
    · rw [alike.stats]
      exact counts.written
    · rw [alike.stats]
      exact counts.commits
  alikeBad := fun _ _ => trivial
  begun := fun counts _ _ => ⟨counts.written, counts.commits⟩
  beginFailed := fun _ _ _ => trivial
  applied := fun counts _ _ => by
    refine ⟨?_, counts.commits⟩
    have total := counts.written
    simp only [Committer.written, List.length_append]
    omega
  batchRefused := fun counts _ _ => ⟨counts.written, counts.commits⟩
  refused := fun counts _ _ => by
    refine ⟨?_, counts.commits⟩
    have total := counts.written
    simp only [Committer.rejected, List.length_append, List.length_cons, List.length_nil]
    omega
  committed := fun counts _ _ => by
    refine ⟨?_, fun _ => Nat.succ_pos _⟩
    have total := counts.written
    simp only [Committer.settled, List.length_append, List.length_nil]
    omega
  commitFailed := fun _ _ _ => trivial

/-- As long as no record is refused, the ledger of the sink grows by what is written: in the first
transaction of a range also what waited before becomes durable. -/
structure Enters (before : Ledger) (done sent : List Record) (committer : Committer (Traced σ)) :
    Prop where
  uncommitted : committer.stats.commits = 0 →
    done = [] ∧ committer.sink.ledger = ⟨before.durable, before.pending ++ sent⟩
  committed : 0 < committer.stats.commits →
    committer.sink.ledger = ⟨before.records ++ done, sent⟩

/-- What a committer has entered depends on its statistics and on the ledger of its sink only. -/
theorem entersOfSame {before : Ledger} {done sent : List Record}
    {first second : Committer (Traced σ)} (enters : Enters before done sent first)
    (stats : second.stats = first.stats) (ledger : second.sink.ledger = first.sink.ledger) :
    Enters before done sent second where
  uncommitted := by
    rw [stats, ledger]
    exact enters.uncommitted
  committed := by
    rw [stats, ledger]
    exact enters.committed

section Enter

variable {sink : Sink σ} {outages : Outages} {before : Ledger} {done sent batch : List Record}
  {committer : Committer (Traced σ)} {next : Traced σ}

/-- A batch that is applied is entered as pending. -/
theorem entersApplied (enters : Enters before done sent committer)
    (answer : (sink.traced outages).apply committer.update batch committer.sink = (.ok (), next)) :
    Enters before done (sent ++ batch) (committer.written next batch.length) where
  uncommitted := by
    intro none
    obtain ⟨nothing, entered⟩ := enters.uncommitted none
    refine ⟨nothing, ?_⟩
    rw [Committer.written, Sink.ledgerOfApply answer, entered, List.append_assoc]
  committed := by
    intro some
    rw [Committer.written, Sink.ledgerOfApply answer, enters.committed some]

/-- A commit makes durable all that is pending. -/
theorem entersCommitted (enters : Enters before done sent committer)
    (answer : (sink.traced outages).commit committer.sink = (.ok (), next)) :
    Enters before (done ++ sent) [] (committer.settled next) where
  uncommitted := by
    intro none
    simp [Committer.settled] at none
  committed := by
    intro _
    rw [Committer.settled, Sink.ledgerOfCommit answer]
    rcases Nat.eq_zero_or_pos committer.stats.commits with none | some
    · obtain ⟨rfl, entered⟩ := enters.uncommitted none
      simp [entered, Ledger.records]
    · simp [enters.committed some, Ledger.records]

end Enter

/-- The calls to a traced sink are entered in its ledger. -/
theorem entersUpkeep (sink : Sink σ) (outages : Outages) (before : Ledger) :
    Upkeep (sink.traced outages)
      (fun done sent committer => committer.stats.failed = [] → Enters before done sent committer)
      (fun _ _ _ => True) where
  alike := fun enters alike clean =>
    entersOfSame (enters (alike.stats ▸ clean)) alike.stats (by rw [alike.sink])
  alikeBad := fun _ _ => trivial
  begun := fun enters _ answer clean =>
    entersOfSame (enters clean) rfl (Sink.ledgerOfBegin answer)
  beginFailed := fun _ _ _ => trivial
  applied := fun enters _ answer clean => entersApplied (enters clean) answer
  batchRefused := fun enters _ answer clean =>
    entersOfSame (enters clean) rfl (Sink.ledgerOfRefusal answer)
  refused := fun _ _ _ clean => by simp [Committer.rejected] at clean
  committed := fun enters _ answer clean => entersCommitted (enters clean) answer
  commitFailed := fun _ _ _ => trivial

end Committer

namespace Repairer

variable {σ : Type}

/-- The committer of a repaired range took one record of each height and applied every one of them
for good. -/
structure RepairedOnce (repairer : Repairer σ) (planned : PlannedRange)
    (before after : Committer σ) (emitted applied commits : Nat) : Prop where
  taken : ∃ last,
    repairer.consumer.follow (repairer.calls planned) (startRange planned before) = (.ok (), last) ∧
      repairer.acquire repairer.consumer planned (startRange planned before) =
        (.emitted emitted, last)
  heights : (Record.heights (repairer.handedOn planned)).Perm planned.range.heights
  emitted : emitted = planned.range.size
  applied : applied = planned.range.size
  commits : 1 ≤ commits
  buffer : after.buffer = []
  inTransaction : after.inTransaction = false

theorem repairedOnce {repairer : Repairer σ} {planned : PlannedRange}
    (honest : repairer.fetcher.Honest planned.range) {before after : Committer σ}
    {emitted applied commits : Nat}
    (repaired : repairer.repairRange planned before =
      (.ok (.repaired emitted applied commits), after)) :
    repairer.RepairedOnce planned before after emitted applied commits := by
  have settles := repairer.fillSettles False (Committer.countsUpkeep repairer.store.toSink) planned
    before ⟨rfl, fun some => absurd rfl some⟩ False.elim
  rw [fillOfEnded rfl repaired] at settles
  obtain ⟨last, counts, ends⟩ := settles
  obtain ⟨verdict, stats⟩ := ends.repaired emitted applied commits rfl
  have once := (repairer.acquires planned).once honest emitted verdict
  have length : (repairer.toWrite planned).length = planned.range.size := by
    rw [toWrite, List.length_map, ← Record.lengthHeights, once.length_eq,
      planned.range.lengthHeights]
  have some : repairer.toWrite planned ≠ [] := by
    rw [← List.length_pos_iff, length]
    exact planned.range.sizePositive
  refine ⟨?_, once, (repairer.acquires planned).whole emitted verdict, ?_, ?_, ends.buffer,
    ends.inTransaction⟩
  · have followed := ends.followed
    cases answer : repairer.consumer.follow (repairer.calls planned)
        (startRange planned before) with
    | mk result last =>
        rw [answer] at followed
        subst followed
        refine ⟨last, rfl, ?_⟩
        rw [repairer.acquireEq, Consumer.perform, answer, verdict]
  · have total := counts.written
    rw [stats, length] at total
    simpa using total
  · have committed := counts.commits some
    rwa [stats] at committed

/-- A repaired range is accounted for: whatever the store refuses and wherever the records come
from, the committer took one record of each height of the range and no other, each of them was
applied, and all of them were committed. -/
theorem repairedRangeAccounts (repairer : Repairer σ) (planned : PlannedRange)
    (honest : repairer.fetcher.Honest planned.range) (outages : Outages) :
    (∀ before after emitted applied commits,
      repairer.repairRange planned before = (.ok (.repaired emitted applied commits), after) →
        repairer.RepairedOnce planned before after emitted applied commits) ∧
      ∀ before after emitted applied commits,
        (repairer.traced outages).repairRange planned before =
            (.ok (.repaired emitted applied commits), after) →
          after.sink.ledger = ⟨before.sink.ledger.records ++ repairer.toWrite planned, []⟩ := by
  refine ⟨fun _ _ _ _ _ repaired => repairedOnce honest repaired, ?_⟩
  intro before after emitted applied commits repaired
  have start (_ : (startRange planned before).stats.failed = []) :
      Committer.Enters before.sink.ledger [] [] (startRange planned before) :=
    ⟨fun _ => ⟨rfl, by rw [List.append_nil]; rfl⟩, fun some => absurd some (Nat.lt_irrefl 0)⟩
  have settles := (repairer.traced outages).fillSettles False
    (Committer.entersUpkeep repairer.store.toSink outages before.sink.ledger) planned before start
    False.elim
  rw [fillOfEnded rfl repaired] at settles
  obtain ⟨last, enters, ends⟩ := settles
  obtain ⟨_, stats⟩ := ends.repaired emitted applied commits rfl
  have some : 0 < last.stats.commits := by
    rw [stats]
    exact (@repairedOnce _ (repairer.traced outages) _ honest _ _ _ _ _ repaired).commits
  rw [ends.sink, ← repairer.toWriteTraced outages]
  exact (enters (by rw [stats])).committed some

theorem gapAccounted : ∃ applied commits after,
    blanks.repairRange (gap .sequential) (.new (.ofTables .gapped)) =
        (.ok (.repaired 2 applied commits), after) ∧
      blanks.RepairedOnce (gap .sequential) (.new (.ofTables .gapped)) after 2 applied commits := by
  have upserts : blanks.fetcher.Upserts := Fetcher.blanksUpserts (by decide)
  have verdict : blanks.verdict (gap .sequential) = .emitted 2 := by decide +kernel
  obtain ⟨applied, commits, after, repaired⟩ := @repairedOfEmitted _ blanks id (gap .sequential)
    (.new (.ofTables .gapped)) Replica.storeBacked Replica.storeReliable rfl rfl
    (by decide +kernel) _ verdict (by decide +kernel)
  have accounts := repairedRangeAccounts blanks (gap .sequential)
    (Fetcher.honestOfUpserts upserts _) fun _ _ => none
  exact ⟨applied, commits, after, repaired, accounts.1 _ _ _ _ _ repaired⟩

end Repairer

end Backfill
