/-
This file shows that the two layouts of an index are interchangeable: logs of the same records read,
cover and scan alike, although a scan of the extended layout passes over entries that it need not
decode.
-/

import Backfill.Log.Coverage
import Backfill.Proofs.Log.Density

namespace Backfill.LogReader

/-- The log that records make with a layout, opened as it was written. -/
def opened (settings : LogSettings) (layout : IndexLayout) (records : List Record) : LogReader :=
  ofLog { settings with layout } (ofRecords layout records)

section Congruence

variable {first second : LogReader} {κ : Type} {range : HeightRange}

/-- The second log shows a scan what the first one shows it, or passes over a record that the scan
does not look for. -/
def Spares (range : HeightRange) (first second : LogReader) : Prop :=
  ∀ position, second.visit range position = first.visit range position ∨
    second.visit range position = .ok none ∧
      ∃ record, first.visit range position = .ok (some record) ∧ isWanted range record = false

/-- Scans of such logs come to the same result and do the same to their consumer. -/
theorem scanFromSpared (spares : Spares range first second)
    (bound : second.settings.lastPosition range = first.settings.lastPosition range)
    (limit : second.settings.maxDecodeErrors = first.settings.maxDecodeErrors)
    (consumer : Consumer κ) (left : Nat) (progress : ScanProgress) (state : κ) :
    second.scanFrom consumer range left progress state =
      first.scanFrom consumer range left progress state := by
  induction left generalizing progress state with
  | zero => simp only [scanFrom]
  | succ left inductionHypothesis =>
      unfold scanFrom
      simp only [bound, limit, inductionHypothesis]
      rcases spares (range.start + progress.visited) with same | ⟨passed, record, read, unwanted⟩
      · rw [same]
      · rw [passed, read]
        simp only [unwanted, Bool.not_false, if_true]

/-- Scans of such logs with as many entries are the same. -/
theorem scanSpared (spares : Spares range first second)
    (bound : second.settings.lastPosition range = first.settings.lastPosition range)
    (limit : second.settings.maxDecodeErrors = first.settings.maxDecodeErrors)
    (entries : second.entries = first.entries) (consumer : Consumer κ) (state : κ) :
    second.scan consumer range state = first.scan consumer range state := by
  simp only [scan, entries, scanFromSpared spares bound limit]

/-- Logs that read alike are tallied alike. -/
theorem tallyFromCongr (entries : second.entries = first.entries)
    (same : ∀ position, second.read position = first.read position) (left position : Nat)
    (tally : LogTally) (events : List Event) :
    second.tallyFrom left position tally events = first.tallyFrom left position tally events := by
  induction left generalizing position tally events with
  | zero => rfl
  | succ left inductionHypothesis =>
      simp only [tallyFrom, tallyEntry, tallyProgress, entries, same, inductionHypothesis]

theorem coverageCongr (entries : second.entries = first.entries)
    (same : ∀ position, second.read position = first.read position) :
    second.coverage = first.coverage := by
  simp only [coverage, entries, tallyFromCongr entries same]

end Congruence

/-- The data of a log do not depend on the layout of its index. -/
theorem dataSizeEq (first second : IndexLayout) (records : List Record) :
    (ofRecords first records).data.size = (ofRecords second records).data.size := by
  rw [← Array.length_toList, ← Array.length_toList, dataEq, dataEq]

section Opened

variable {settings : LogSettings} {records : List Record} (layout : IndexLayout)
  (short : ∀ record ∈ records,
    (Text.Utf8.encode record.encode).length ≤ settings.maxRecordBytes.toNat)
  (fits : (ofRecords layout records).data.size ≤ maxSigned)

include short fits

theorem listsOfOpened : (opened settings layout records).Lists records :=
  listsOfRecords { settings with layout } records short fits

/-- What is located at a position is told by the records alone. -/
theorem locateOfOpened (position : Nat) :
    (opened settings layout records).locate position =
      match records[position]? with
      | some record => .ok ⟨position, frameStart records position, record⟩
      | none => .error (.notFound position) := by
  cases found : records[position]? with
  | some record => exact locateOfRecords { settings with layout } short fits found
  | none =>
      have behind := (listsOfOpened layout short fits).entryBehind
        (List.getElem?_eq_none_iff.mp found)
      rw [LogReader.locate, behind]
      rfl

/-- A scan reads every record, except that the extended layout lets it pass over the records whose
heights lie outside its range. -/
theorem visitOfOpened (range : HeightRange) (position : Nat) :
    (opened settings layout records).visit range position =
      match records[position]? with
      | none => .error (.notFound position)
      | some record =>
          match layout with
          | .offsets => .ok (some record)
          | .extended => .ok (if range.contains record.height.toNat then some record else none) := by
  cases found : records[position]? with
  | none =>
      have behind := (listsOfOpened layout short fits).entryBehind
        (List.getElem?_eq_none_iff.mp found)
      rw [visit, behind]
      rfl
  | some record =>
      have entered : (opened settings layout records).entry position = _ :=
        entryOfRecords { settings with layout } fits found
      have read : (opened settings layout records).read position = .ok record :=
        readOfRecords { settings with layout } short fits found
      rw [visitEq, isPassed, entered, read]
      cases layout with
      | offsets => rfl
      | extended =>
          by_cases inside : range.contains record.height.toNat
          · simp [entryOf, inside, Except.map]
          · simp [entryOf, inside]

end Opened

/-- The same records in a log of either layout are located alike, cover the same heights and are
scanned alike. -/
theorem layoutsInterchangeable (settings : LogSettings) (records : List Record)
    (short : ∀ record ∈ records,
      (Text.Utf8.encode record.encode).length ≤ settings.maxRecordBytes.toNat)
    (fits : (ofRecords .offsets records).data.size ≤ maxSigned) :
    let plain := opened settings .offsets records
    let extended := opened settings .extended records
    (∀ position, extended.locate position = plain.locate position) ∧
      extended.coverage = plain.coverage ∧
      (∀ (range : HeightRange) {κ : Type} (consumer : Consumer κ) (state : κ),
        extended.scan consumer range state = plain.scan consumer range state) ∧
      ∀ position record, records[position]? = some record →
        plain.locate position = .ok ⟨position, frameStart records position, record⟩ ∧
          ∀ range : HeightRange, plain.visit range position = .ok (some record) ∧
            extended.visit range position =
              .ok (if range.contains record.height.toNat then some record else none) := by
  intro plain extended
  have fitsExtended := dataSizeEq .offsets .extended records ▸ fits
  have entries : extended.entries = plain.entries :=
    (listsOfOpened .extended short fitsExtended).entries.trans
      (listsOfOpened .offsets short fits).entries.symm
  have located (position : Nat) : extended.locate position = plain.locate position := by
    rw [locateOfOpened .offsets short fits, locateOfOpened .extended short fitsExtended]
  have spares (range : HeightRange) : Spares range plain extended := by
    intro position
    rw [visitOfOpened .offsets short fits, visitOfOpened .extended short fitsExtended]
    cases records[position]? with
    | none => exact .inl rfl
    | some record =>
        cases inside : range.contains record.height.toNat with
        | true => exact .inl (by simp [inside])
        | false => exact .inr ⟨by simp [inside], record, rfl, by simp [isWanted, inside]⟩
  refine ⟨located, coverageCongr entries fun position => ?_, ?_, ?_⟩
  · rw [readOfLocate, readOfLocate, located]
  · intro range κ consumer state
    exact scanSpared (spares range) rfl rfl entries consumer state
  · intro position record found
    rw [locateOfOpened .offsets short fits, found]
    refine ⟨rfl, fun range => ?_⟩
    rw [visitOfOpened .offsets short fits, visitOfOpened .extended short fitsExtended, found]
    exact ⟨rfl, rfl⟩

/-- The blocks and transactions of four heights are scanned alike for height one, though only the
plain layout reads the block of height zero. -/
theorem layoutsInterchangeableDrifting :
    (∀ record ∈ drifting.flatten,
      (Text.Utf8.encode record.encode).length ≤ tight.maxRecordBytes.toNat) ∧
      (ofRecords .offsets drifting.flatten).data.size ≤ maxSigned ∧
      let plain := opened tight .offsets drifting.flatten
      let extended := opened tight .extended drifting.flatten
      extended.locate 7 = plain.locate 7 ∧ extended.coverage = plain.coverage ∧
        extended.scan .observer (.single 1) [] = plain.scan .observer (.single 1) [] ∧
        plain.visit (.single 1) 0 = .ok (some (.blank 0)) ∧
        extended.visit (.single 1) 0 = .ok none := by
  refine ⟨driftingShort, driftingFits, ?_⟩
  intro plain extended
  obtain ⟨located, coverage, scans, shows⟩ :=
    layoutsInterchangeable tight drifting.flatten driftingShort driftingFits
  obtain ⟨_, visits⟩ := shows 0 (.blank 0) rfl
  exact ⟨located 7, coverage, scans (.single 1) .observer [], visits (.single 1)⟩

end Backfill.LogReader
