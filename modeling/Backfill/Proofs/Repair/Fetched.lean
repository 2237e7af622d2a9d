/-
This file shows what happens to a replica when missing heights are fetched and there is no log.
-/

import Backfill.Proofs.Repair.Heights

namespace Backfill.Repairer

open Committer

variable {σ : Type}

/-- What the fetcher has of missing heights are upserts of blocks of these heights, which are new to
the tables and have different hashes. -/
structure Fresh (repairer : Repairer σ) (tables : Tables) : Prop where
  upserts : ∀ height record, tables.Missing repairer.settings.fromGenesis height →
    repairer.fetcher.recordAt? height = some record →
      record.isBlock = true ∧ record.operation = .upsert ∧ record.height.toNat = height
  absent : ∀ height record, tables.Missing repairer.settings.fromGenesis height →
    repairer.fetcher.recordAt? height = some record → tables.blocks[record.keyText]? = none
  distinct : ∀ first second firstRecord secondRecord,
    tables.Missing repairer.settings.fromGenesis first →
    tables.Missing repairer.settings.fromGenesis second →
    repairer.fetcher.recordAt? first = some firstRecord →
    repairer.fetcher.recordAt? second = some secondRecord →
    firstRecord.keyText = secondRecord.keyText → first = second

/-- The heights that hashes stand for in tables and in the answers for missing heights. -/
inductive NamesMissing (repairer : Repairer σ) (tables : Tables) : String → Int → Prop
  | row {hash : String} {row : BlockRow} (found : tables.blocks[hash]? = some row) :
      NamesMissing repairer tables hash row.height
  | fetched {height : Nat} {record : Record}
      (missing : tables.Missing repairer.settings.fromGenesis height)
      (found : repairer.fetcher.recordAt? height = some record) :
      NamesMissing repairer tables record.keyText height

/-- Records that the fetcher has of missing heights. -/
def Fetches (repairer : Repairer σ) (tables : Tables) (records : List Record) : Prop :=
  ∀ record ∈ records, ∃ height, tables.Missing repairer.settings.fromGenesis height ∧
    repairer.fetcher.recordAt? height = some record

variable {repairer : Repairer σ} {tables : Tables} {records : List Record}

theorem unambiguousOfFresh (fresh : repairer.Fresh tables) :
    Unambiguous (repairer.NamesMissing tables) := by
  intro hash first second namesFirst namesSecond
  cases namesFirst with
  | row found =>
      rename_i row
      cases namesSecond with
      | row other =>
          rename_i otherRow
          obtain rfl := Option.some.inj (found.symm.trans other)
          rfl
      | fetched missing answer =>
          rw [fresh.absent _ _ missing answer] at found
          cases found
  | fetched missing answer =>
      rename_i height record
      generalize same : record.keyText = hash at namesSecond
      cases namesSecond with
      | row other =>
          rw [← same, fresh.absent _ _ missing answer] at other
          cases other
      | fetched otherMissing otherAnswer =>
          exact congrArg Nat.cast
            (fresh.distinct _ _ _ _ missing otherMissing answer otherAnswer same)

theorem tablesNamedMissing (repairer : Repairer σ) (tables : Tables) :
    tables.NamedBy (repairer.NamesMissing tables) :=
  fun _ _ found => .row found

theorem fetchesNamed (fresh : repairer.Fresh tables)
    (fetches : repairer.Fetches tables records) :
    ∀ record ∈ records, record.NamedBy (repairer.NamesMissing tables) := by
  intro record member
  obtain ⟨height, missing, found⟩ := fetches record member
  obtain ⟨block, _, same⟩ := fresh.upserts height record missing found
  refine ⟨block, ?_⟩
  rw [same]
  exact .fetched missing found

theorem fetchesKeep (fresh : repairer.Fresh tables)
    (fetches : repairer.Fetches tables records) :
    ∀ record ∈ records, record.operation ≠ .delete := by
  intro record member
  obtain ⟨height, missing, found⟩ := fetches record member
  obtain ⟨_, puts, _⟩ := fresh.upserts height record missing found
  simp [puts]

/-- Every row that was there stays when missing heights are fetched. -/
theorem withinOfFetches (fresh : repairer.Fresh tables)
    (fetches : repairer.Fetches tables records) : tables.Within (tables.writeAll false records) :=
  Tables.withinWriteAll (fetchesKeep fresh fetches)

/-- When missing heights are fetched, those are added whose blocks can be stored. -/
theorem populatedOfFetches (fresh : repairer.Fresh tables)
    (fetches : repairer.Fetches tables records) (height : Int) :
    (tables.writeAll false records).Populated height ↔
      tables.Populated height ∨
        ∃ record ∈ records, height = record.height.toNat ∧ record.isStorable = true :=
  Tables.populatedAllStored (unambiguousOfFresh fresh) (repairer.tablesNamedMissing tables)
    (fetchesNamed fresh fetches) (fetchesKeep fresh fetches)

theorem fillsOfFetches (fresh : repairer.Fresh tables)
    (fetches : repairer.Fetches tables records) :
    Tables.Fills repairer.settings.fromGenesis tables (tables.writeAll false records) where
  kept := fun height populated =>
    (populatedOfFetches fresh fetches height).mpr (.inl populated)
  added := fun height populated => by
    rcases (populatedOfFetches fresh fetches height).mp populated with
      old | ⟨record, member, rfl, _⟩
    · exact .inl old
    · obtain ⟨missing, lacks, found⟩ := fetches record member
      rw [(fresh.upserts missing record lacks found).2.2]
      exact .inr ⟨missing, rfl, lacks⟩

section Handed

variable {planned : PlannedRange}

/-- Without a log every record that is handed on for a missing range was fetched for one of its
heights. -/
theorem fetchedOfHandedOn (unlogged : repairer.log = none) (fresh : repairer.Fresh tables)
    (missing : ∀ height ∈ planned.range, tables.Missing repairer.settings.fromGenesis height)
    {record : Record} (handed : record ∈ repairer.handedOn planned) :
    record.height.toNat ∈ planned.range ∧
      repairer.fetcher.recordAt? record.height.toNat = some record := by
  rcases (repairer.acquires planned).origin record handed with ⟨height, inside, found⟩ | scanned
  · rw [(fresh.upserts height record (missing height inside) found).2.2]
    exact ⟨inside, found⟩
  · obtain ⟨_, reader, _, present, _⟩ := scanned
    rw [unlogged] at present
    cases present

/-- Without a log, what is handed on for a missing range is written as it is. -/
theorem toWriteUnlogged (unlogged : repairer.log = none) (fresh : repairer.Fresh tables)
    (missing : ∀ height ∈ planned.range, tables.Missing repairer.settings.fromGenesis height) :
    repairer.toWrite planned = repairer.handedOn planned := by
  rw [toWrite]
  refine (List.map_congr_left fun record handed => ?_).trans (List.map_id _)
  obtain ⟨inside, found⟩ := fetchedOfHandedOn unlogged fresh missing handed
  have puts := (fresh.upserts _ _ (missing _ inside) found).2.1
  exact repeatableOfNoInsert (by simp [puts])

/-- Without a log every record that is written for a missing range was fetched for one of its
heights. -/
theorem fetchedOfToWrite (unlogged : repairer.log = none) (fresh : repairer.Fresh tables)
    (missing : ∀ height ∈ planned.range, tables.Missing repairer.settings.fromGenesis height)
    {record : Record} (written : record ∈ repairer.toWrite planned) :
    record.height.toNat ∈ planned.range ∧
      repairer.fetcher.recordAt? record.height.toNat = some record := by
  rw [toWriteUnlogged unlogged fresh missing] at written
  exact fetchedOfHandedOn unlogged fresh missing written

end Handed

section Progress

variable {replica : σ → Replica} {before after : Committer σ} {reports others : List RangeReport}

theorem missingOfProgress (progress : repairer.Progress replica before reports after)
    {report : RangeReport} (listed : report ∈ reports) :
    ∀ height ∈ report.planned.range,
      (replica before.sink).visible.Missing repairer.settings.fromGenesis height :=
  fun _ inside => progress.missing _ ⟨_, List.mem_map_of_mem listed, inside⟩

/-- What is written for ranges that were missing was fetched for missing heights. -/
theorem fetchesOfProgress (unlogged : repairer.log = none)
    (fresh : repairer.Fresh (replica before.sink).visible)
    (progress : repairer.Progress replica before reports after) (among : others ⊆ reports) :
    repairer.Fetches (replica before.sink).visible (repairer.writtenForAll others) := by
  intro record member
  obtain ⟨report, listed, written⟩ := memWrittenForAll member
  have missing := missingOfProgress progress (among listed)
  obtain ⟨inside, found⟩ := fetchedOfToWrite unlogged fresh missing written
  exact ⟨_, missing _ inside, found⟩

theorem writesNamedOfProgress (unlogged : repairer.log = none)
    (fresh : repairer.Fresh (replica before.sink).visible)
    (progress : repairer.Progress replica before reports after) :
    repairer.WritesNamed (repairer.NamesMissing (replica before.sink).visible) reports := by
  intro report listed record written
  have missing := missingOfProgress progress listed
  obtain ⟨inside, found⟩ := fetchedOfToWrite unlogged fresh missing written
  have lacks := missing _ inside
  exact ⟨⟨(fresh.upserts _ _ lacks found).1, .fetched lacks found⟩, inside⟩

/-- No range is skipped: its first height is missing until the range is reached. -/
theorem attemptedOfProgress (unlogged : repairer.log = none)
    (fresh : repairer.Fresh (replica before.sink).visible)
    (fits : (replica before.sink).visible.Fits)
    (progress : repairer.Progress replica before reports after) {report : RangeReport}
    (listed : report ∈ reports) : report.outcome.isSkipped = false := by
  by_contra skipped
  obtain ⟨first, rest, rfl⟩ := List.append_of_mem listed
  have missing := missingOfProgress progress listed _ report.planned.range.startMem
  have small := Tables.missingFits fits missing
  have absent := absentBefore (unambiguousOfFresh fresh) (repairer.tablesNamedMissing _)
    (writesNamedOfProgress unlogged fresh progress) progress.separated
    report.planned.range.startMem missing.1
  have present := progress.written.skipped first report rest rfl (by simpa using skipped)
  obtain ⟨answer, held, same⟩ := Replica.storeHoldsIff
    (.ofTables ((replica before.sink).visible.writeAll false (repairer.writtenForAll first))) small
  obtain rfl := Except.ok.inj (held.symm.trans present)
  exact absent (same.mp rfl)

end Progress

end Backfill.Repairer
