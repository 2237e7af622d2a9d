/-
This file shows which heights have a block after missing ranges were repaired, provided that no hash
stands for two heights.
-/

import Backfill.Proofs.Repair.Durability
import Backfill.Proofs.Replica.Reachable
import Backfill.Proofs.Replica.Written

namespace Backfill

namespace Committer

theorem repeatableHeight (record : Record) : (repeatable record).height = record.height := by
  unfold repeatable
  split <;> rfl

theorem repeatableIsBlock (record : Record) : (repeatable record).isBlock = record.isBlock := by
  unfold repeatable
  split <;> rfl

theorem repeatableKeyText (record : Record) : (repeatable record).keyText = record.keyText := by
  unfold repeatable
  split <;> rfl

/-- A record that is no insert is written as it is. -/
theorem repeatableOfNoInsert {record : Record} (other : record.operation ≠ .insert) :
    repeatable record = record := by
  unfold repeatable
  split
  · rename_i inserts
    exact absurd inserts other
  · rfl

theorem repeatableDeletes (record : Record) :
    (repeatable record).operation = .delete ↔ record.operation = .delete := by
  unfold repeatable
  split
  · rename_i inserts
    simp [inserts]
  · rfl

end Committer

open Committer

/-- The first of separated ranges and the last ones hold no height of a range between them. -/
theorem separatedApart {first rest : List HeightRange} {range other : HeightRange} {height : Nat}
    (separated : Separated (first ++ range :: rest)) (inside : height ∈ range)
    (member : other ∈ first ++ rest) : height ∉ other := by
  obtain ⟨_, after, before⟩ := List.pairwise_append.mp separated
  obtain ⟨startLe, leStop⟩ := inside
  rintro ⟨otherStart, otherStop⟩
  rcases List.mem_append.mp member with earlier | later
  · have apart := before other earlier range List.mem_cons_self
    omega
  · have apart : range.stop + 1 < other.start := List.rel_of_pairwise_cons after later
    omega

namespace Repairer

variable {σ : Type} {repairer : Repairer σ} {planned : PlannedRange}

/-- The heights that hashes stand for in tables, in the log and in the answers of the fetcher. -/
inductive Names (repairer : Repairer σ) (tables : Tables) : String → Int → Prop
  | row {hash : String} {row : BlockRow} (found : tables.blocks[hash]? = some row) :
      Names repairer tables hash row.height
  | logged {reader : LogReader} {position : Nat} {record : Record}
      (present : repairer.log = some reader) (read : reader.read position = .ok record)
      (block : record.isBlock = true) : Names repairer tables record.keyText record.height.toNat
  | fetched {height : Nat} {record : Record}
      (found : repairer.fetcher.recordAt? height = some record) :
      Names repairer tables record.keyText record.height.toNat

theorem memToWrite {record : Record} (member : record ∈ repairer.toWrite planned) :
    ∃ handed ∈ repairer.handedOn planned, record = repeatable handed := by
  obtain ⟨handed, inside, same⟩ := List.mem_map.mp member
  exact ⟨handed, inside, same.symm⟩

theorem heightsToWrite (repairer : Repairer σ) (planned : PlannedRange) :
    Record.heights (repairer.toWrite planned) = Record.heights (repairer.handedOn planned) := by
  rw [toWrite, Record.heights, List.map_map]
  exact List.map_congr_left fun record _ => by simp [repeatableHeight]

/-- What is written for a planned range lies inside the range. -/
theorem toWriteInside (honest : repairer.fetcher.Honest planned.range) {record : Record}
    (member : record ∈ repairer.toWrite planned) : record.height.toNat ∈ planned.range := by
  obtain ⟨handed, inside, rfl⟩ := memToWrite member
  rw [repeatableHeight]
  exact repairer.handedOnInside honest inside

/-- Whatever is written is a block whose hash stands for its height. -/
theorem toWriteNamed (upserts : repairer.fetcher.Upserts) (tables : Tables) {record : Record}
    (member : record ∈ repairer.toWrite planned) :
    record.NamedBy (repairer.Names tables) := by
  obtain ⟨handed, inside, rfl⟩ := memToWrite member
  rw [Record.NamedBy, repeatableIsBlock, repeatableKeyText, repeatableHeight]
  rcases (repairer.acquires planned).origin handed inside with ⟨height, _, found⟩ | scanned
  · exact ⟨(upserts height handed found).1, .fetched found⟩
  · obtain ⟨wanted, reader, position, present, read⟩ := scanned
    have block := (LogReader.heightOfWanted wanted).1
    exact ⟨block, .logged present read block⟩

theorem tablesNamed (repairer : Repairer σ) (tables : Tables) :
    tables.NamedBy (repairer.Names tables) :=
  fun _ _ found => .row found

theorem planOfRanges (repairer : Repairer σ) (gaps : List HeightRange) :
    (repairer.planOf gaps).map PlannedRange.range = gaps := by
  rw [planOf, PlannedRange.ofRanges, List.map_map]
  exact List.map_id gaps

theorem planOfDetected (repairer : Repairer σ) {gaps : List HeightRange}
    (member : planned ∈ repairer.planOf gaps) : planned.origin = .detected := by
  obtain ⟨range, _, rfl⟩ := List.mem_map.mp member
  rfl

/-- A record that was written for a report is a record of its planned range. -/
theorem memWrittenFor {report : RangeReport} {record : Record}
    (member : record ∈ repairer.writtenFor report) :
    record ∈ repairer.toWrite report.planned := by
  unfold writtenFor at member
  split at member
  · cases member
  · exact member

theorem memWrittenForAll {reports : List RangeReport} {record : Record}
    (member : record ∈ repairer.writtenForAll reports) :
    ∃ report ∈ reports, record ∈ repairer.toWrite report.planned := by
  obtain ⟨report, inside, written⟩ := List.mem_flatMap.mp member
  exact ⟨report, inside, memWrittenFor written⟩

/-- What is written for reports are blocks of their ranges, whose hashes stand for their heights. -/
def WritesNamed (repairer : Repairer σ) (names : String → Int → Prop)
    (reports : List RangeReport) : Prop :=
  ∀ report ∈ reports, ∀ record ∈ repairer.toWrite report.planned,
    record.NamedBy names ∧ record.height.toNat ∈ report.planned.range

variable {names : String → Int → Prop} {tables : Tables} {first rest : List RangeReport}
  {report : RangeReport}

theorem writtenForAllNamed {reports others : List RangeReport}
    (writes : repairer.WritesNamed names reports) (among : others ⊆ reports) :
    ∀ record ∈ repairer.writtenForAll others, record.NamedBy names := by
  intro record member
  obtain ⟨report, inside, written⟩ := memWrittenForAll member
  exact (writes report (among inside) record written).1

/-- What was written for other reports is of other heights than those of a report's range. -/
theorem writtenApart {others : List RangeReport} {height : Nat}
    (writes : repairer.WritesNamed names (first ++ report :: rest))
    (separated : Separated ((first ++ report :: rest).map fun entry => entry.planned.range))
    (inside : height ∈ report.planned.range) (among : others ⊆ first ++ rest) :
    ∀ record ∈ repairer.writtenForAll others, (height : Int) ≠ record.height.toNat := by
  intro record member same
  obtain ⟨other, listed, written⟩ := memWrittenForAll member
  have some : other ∈ first ++ report :: rest := by
    have anywhere := among listed
    simp only [List.mem_append, List.mem_cons] at anywhere ⊢
    exact anywhere.imp_right .inr
  have there := (writes other some record written).2
  rw [← Int.ofNat_inj.mp same] at there
  rw [List.map_append, List.map_cons] at separated
  refine separatedApart separated inside ?_ there
  rw [← List.map_append]
  exact List.mem_map_of_mem (among listed)

/-- A height of a range is missing until the range is reached. -/
theorem absentBefore (unambiguous : Unambiguous names) (named : tables.NamedBy names)
    (writes : repairer.WritesNamed names (first ++ report :: rest))
    (separated : Separated ((first ++ report :: rest).map fun entry => entry.planned.range))
    {height : Nat} (inside : height ∈ report.planned.range) (absent : ¬tables.Populated height) :
    ¬(tables.writeAll false (repairer.writtenForAll first)).Populated height :=
  mt (Tables.populatedAllOther unambiguous named
    (writtenForAllNamed writes (List.subset_append_left _ _))
    (writtenApart writes separated inside (List.subset_append_left _ _))).mp absent

/-- A height that is missing before the ranges of a trail is populated after them if the record of
the height in its own range was stored. -/
theorem populatedByReport (unambiguous : Unambiguous names) (named : tables.NamedBy names)
    {reports : List RangeReport}
    (writes : repairer.WritesNamed names reports)
    (separated : Separated (reports.map fun entry => entry.planned.range))
    (member : report ∈ reports) {height : Nat} (inside : height ∈ report.planned.range)
    (once : (Record.heights (repairer.writtenFor report)).Nodup)
    (absent : ¬tables.Populated height) :
    (tables.writeAll false (repairer.writtenForAll reports)).Populated height ↔
      ∃ record ∈ repairer.writtenFor report, (height : Int) = record.height.toNat ∧
        record.operation ≠ .delete ∧ record.isStorable = true := by
  obtain ⟨first, rest, rfl⟩ := List.append_of_mem member
  have still := absentBefore unambiguous named writes separated inside absent
  have ownNamed : ∀ record ∈ repairer.writtenFor report, record.NamedBy names :=
    fun record written => (writes report member record (memWrittenFor written)).1
  have before := Tables.namedWriteAll named
    (writtenForAllNamed writes (List.subset_append_left first (report :: rest)))
  have after := writtenForAllNamed writes fun entry later =>
    List.mem_append_right first (List.mem_cons_of_mem report later)
  rw [writtenForAllAppend, writtenForAllCons, Tables.writeAllAppend, Tables.writeAllAppend,
    Tables.populatedAllOther unambiguous (Tables.namedWriteAll before ownNamed) after
      (writtenApart writes separated inside (List.subset_append_right _ _)),
    Tables.populatedAllOnce unambiguous before ownNamed once still]

/-- What became of ranges that were missing at the start, in a replica that has what was written for
them. -/
structure Progress (repairer : Repairer σ) (replica : σ → Replica) (before : Committer σ)
    (reports : List RangeReport) (after : Committer σ) : Prop where
  separated : Separated (reports.map fun entry => entry.planned.range)
  missing : ∀ height, Covers (reports.map fun entry => entry.planned.range) height →
    (replica before.sink).visible.Missing repairer.settings.fromGenesis height
  written : repairer.TrailWritten replica before reports after

/-- What a run that looked for missing ranges reports of: all that was missing. -/
structure Reports (repairer : Repairer σ) (replica : σ → Replica) (before : Committer σ)
    (reports : List RangeReport) (after : Committer σ) : Prop extends
    Progress repairer replica before reports after where
  natural : (replica before.sink).visible.Natural
  all : ∀ height, (replica before.sink).visible.Missing repairer.settings.fromGenesis height →
    Covers (reports.map fun entry => entry.planned.range) height

variable {replica : σ → Replica} {gaps : List HeightRange} {done later : List PlannedRange}
  {before after start last : Committer σ} {reports : List RangeReport}

/-- The ranges of a trail are the first of those that were planned. -/
theorem rangesOfTrail (split : repairer.planOf gaps = done ++ later)
    (trail : repairer.Trail done start reports last) :
    gaps = reports.map (fun entry => entry.planned.range) ++ later.map PlannedRange.range := by
  rw [← repairer.planOfRanges gaps, split, List.map_append, ← plannedOfTrail trail, List.map_map]
  rfl

/-- A trail through the first of the ranges that were detected makes progress. -/
theorem progressOfTrail (backed : repairer.store.Backed replica)
    (consistent : Consistent replica start)
    (detected : repairer.store.detectGaps repairer.settings.fromGenesis start.sink = .ok gaps)
    (split : repairer.planOf gaps = done ++ later)
    (trail : repairer.Trail done start reports last) :
    repairer.Progress replica start reports last := by
  rw [Store.detectGapsBacked backed] at detected
  obtain ⟨_, separated, missing⟩ := Replica.detectGapsIff.mp detected
  have ranges := rangesOfTrail split trail
  rw [ranges] at separated missing
  refine ⟨(List.pairwise_append.mp separated).1, fun height covers => ?_, ?_⟩
  · exact (missing height).mp ((coversAppend _ _ height).mpr (.inl covers))
  · refine trailWritten backed trail (fun planned member => ?_) consistent
    exact repairer.planOfDetected (split ▸ List.mem_append_left later member)

theorem progressAlike (alikeStart : Alike before start) (alikeLast : Alike last after)
    (progress : repairer.Progress replica start reports last) :
    repairer.Progress replica before reports after := by
  obtain ⟨separated, missing, inTransaction, idle, visible, skipped, repaired, failed⟩ := progress
  rw [alikeStart.sink] at missing skipped
  rw [alikeStart.inTransaction, ← alikeLast.inTransaction] at inTransaction
  rw [alikeStart.sink, ← alikeLast.sink] at idle visible
  exact ⟨separated, missing, inTransaction, idle, visible, skipped, repaired, failed⟩

theorem consistentAlike (alike : Alike before start) (consistent : Consistent replica before) :
    Consistent replica start := by
  intro busy
  rw [alike.inTransaction] at busy
  rw [alike.sink]
  exact consistent busy

theorem reportsOfRun (backed : repairer.store.Backed replica) {report : RepairReport}
    (consistent : Consistent replica before)
    (finished : repairer.run .missing before = (.ok report, after)) :
    repairer.Reports replica before report.ranges after := by
  have trails := repairer.runTrail before
  rw [finished] at trails
  obtain ⟨gaps, start, last, detected, alikeStart, trail, alikeLast⟩ := trails
  have split : repairer.planOf gaps = repairer.planOf gaps ++ [] := (List.append_nil _).symm
  have ranges := rangesOfTrail split trail
  rw [List.map_nil, List.append_nil] at ranges
  have progress := progressOfTrail backed (consistentAlike alikeStart consistent)
    (alikeStart.sink.symm ▸ detected) split trail
  rw [Store.detectGapsBacked backed] at detected
  obtain ⟨natural, _, missing⟩ := Replica.detectGapsIff.mp detected
  exact ⟨progressAlike alikeStart alikeLast progress, natural,
    fun height lacks => ranges ▸ (missing height).mpr lacks⟩

end Repairer

end Backfill
