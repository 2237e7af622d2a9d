/-
This file shows that a log that was saved is the log that is opened, and that cutting its files loses no
more than what is cut.
-/

import Backfill.Log.Files
import Backfill.Proofs.File.Tree
import Backfill.Proofs.Log.RoundTrip

namespace Backfill

namespace Host

variable {tree next last : FileTree} {values : String → Option String} {path : String}
  {content : Array UInt8}

/-- Actions in order succeed if each of them does. -/
theorem inOrderOk {action : StateM FileTree (Except FileFault Unit)}
    {rest : List (StateM FileTree (Except FileFault Unit))}
    (done : inOrder (action :: rest) tree = (.ok (), last)) :
    ∃ next, action tree = (.ok (), next) ∧ inOrder rest next = (.ok (), last) := by
  cases ran : action tree with
  | mk result next =>
      simp only [inOrder, bind, StateT.bind, ran] at done
      cases result with
      | error fault => cases done
      | ok => exact ⟨next, rfl, done⟩

theorem readOfTree : (Host.ofTree values).read path tree = (tree.read path, tree) :=
  rfl

theorem modifyOfWrite
    (done : (Host.ofTree values).write path content tree = (.ok (), next)) :
    tree.modify path (fun _ => content) = .ok next := by
  simp only [ofTree, replace] at done
  split at done
  · rename_i same
    rw [same, (Prod.mk.inj done).2]
  · cases (Prod.mk.inj done).1

/-- Content is put over the front of what a file held. -/
theorem modifyOfOverlay (done : (Host.ofTree values).overlay path content tree = (.ok (), next)) :
    ∃ old, tree.read path = .ok old ∧
      tree.modify path (fun _ => content ++ old.extract content.size old.size) = .ok next := by
  simp only [overlay, bind, StateT.bind, readOfTree] at done
  cases found : tree.read path with
  | error fault =>
      rw [found] at done
      cases (Prod.mk.inj done).1
  | ok old =>
      rw [found] at done
      exact ⟨old, rfl, modifyOfWrite done⟩

/-- Content that is put over an empty file is all of it. -/
theorem modifyOfEmpty (empty : tree.read path = .ok #[])
    (done : (Host.ofTree values).overlay path content tree = (.ok (), next)) :
    tree.modify path (fun _ => content) = .ok next := by
  obtain ⟨old, read, modified⟩ := modifyOfOverlay done
  obtain rfl := Except.ok.inj (read.symm.trans empty)
  simpa using modified

end Host

variable {tree saved : FileTree} {values : String → Option String} {settings : LogSettings}
  {log : LogWriter} {index data : String}

/-- A log that was saved stands in its two files, if these are two. -/
theorem LogWriter.savedHas (indexPath : settings.indexPath? = some index)
    (dataPath : settings.dataPath? = some data) (apart : saved.place index ≠ saved.place data)
    (done : log.save settings (Host.ofTree values) tree = (.ok (), saved)) :
    saved.read index = .ok log.index ∧ saved.read data = .ok log.data := by
  obtain ⟨directory, directoryPath, _⟩ := Option.map_eq_some_iff.mp indexPath
  simp only [save, directoryPath, indexPath, dataPath, bind, StateT.bind] at done
  cases ran : Host.inOrder [(Host.ofTree values).makeDirectories directory,
      (Host.ofTree values).write index #[], (Host.ofTree values).write data #[],
      (Host.ofTree values).overlay data log.data,
      (Host.ofTree values).overlay index log.index] tree with
  | mk result last =>
      rw [ran] at done
      cases result with
      | error fault => cases (Prod.mk.inj done).1
      | ok =>
          obtain rfl : last = saved := (Prod.mk.inj done).2
          obtain ⟨made, _, ran⟩ := Host.inOrderOk ran
          obtain ⟨first, clearsIndex, ran⟩ := Host.inOrderOk ran
          obtain ⟨second, clearsData, ran⟩ := Host.inOrderOk ran
          obtain ⟨third, writesData, ran⟩ := Host.inOrderOk ran
          obtain ⟨fourth, writesIndex, ended⟩ := Host.inOrderOk ran
          obtain rfl : fourth = last := (Prod.mk.inj ended).2
          have clearedIndex := Host.modifyOfWrite clearsIndex
          have clearedData := Host.modifyOfWrite clearsData
          obtain ⟨indexPlace, _, indexEmpty⟩ := FileTree.hasOfModify clearedIndex
          obtain ⟨dataPlace, dataLeads, dataEmpty⟩ := FileTree.hasOfModify clearedData
          have writtenData := Host.modifyOfEmpty (FileTree.readOfHas dataEmpty) writesData
          obtain ⟨_, overlaid⟩ := Host.modifyOfOverlay writesIndex
          -- The paths lead where they led before, so that the index is another file than the data.
          have other : dataPlace ≠ indexPlace := by
            rintro rfl
            have indexLeads := FileTree.placeOfModify overlaid.2 (FileTree.placeOfModify writtenData
              (FileTree.placeOfModify clearedData indexEmpty.1))
            have sameLeads := FileTree.placeOfModify overlaid.2
              (FileTree.placeOfModify writtenData dataEmpty.1)
            exact apart (indexLeads.trans sameLeads.symm)
          have indexKept := FileTree.hasOfModifyOther clearedData indexEmpty
            (by rw [dataLeads]; simpa using other)
          have indexStill := FileTree.hasOfModifyOther writtenData indexKept
            (by rw [dataEmpty.1]; simpa using other)
          have writtenIndex := Host.modifyOfEmpty (FileTree.readOfHas indexStill) writesIndex
          obtain ⟨_, _, indexHolds⟩ := FileTree.hasOfModify writtenIndex
          obtain ⟨place, dataPlaced, dataHolds⟩ := FileTree.hasOfModify writtenData
          obtain rfl := Except.ok.inj (dataPlaced.symm.trans dataEmpty.1)
          have dataKept := FileTree.hasOfModifyOther writtenIndex dataHolds
            (by rw [indexStill.1]; simpa using other.symm)
          exact ⟨FileTree.readOfHas indexHolds, FileTree.readOfHas dataKept⟩

/-- The log that a host holds is opened with what is left of its files. -/
theorem LogReader.openedOfHost {indexLeft dataLeft : Array UInt8}
    (indexPath : settings.indexPath? = some index) (dataPath : settings.dataPath? = some data)
    (indexRead : tree.read index = .ok indexLeft) (dataRead : tree.read data = .ok dataLeft) :
    LogReader.ofHost settings (Host.ofTree values) tree =
      (.ok (.ofFiles settings (.file indexLeft) (.file dataLeft)), tree) := by
  have opened {path : String} {content : Array UInt8} (read : tree.read path = .ok content) :
      (Host.ofTree values).openBody path tree = (.ok (.file content), tree) := by
    simp only [Host.openBody, bind, StateT.bind, Host.readOfTree, read]
    rfl
  simp only [ofHost, indexPath, dataPath, bind, StateT.bind, opened indexRead, opened dataRead]
  rfl

namespace LogReader

open LogWriter

/-- A log reads back what was written to it, and a cut of its files loses only what it cuts. -/
theorem cutReadsBack (settings : LogSettings) (entries : List (Bytes × UInt64))
    (indexKept dataKept : Nat)
    (short : ∀ entry ∈ entries, entry.1.length ≤ settings.maxRecordBytes.toNat)
    (fits : (ofPayloads settings.layout entries).data.size ≤ maxSigned) :
    let reader := (ofPayloads settings.layout entries).cut settings indexKept dataKept
    (ofPayloads settings.layout entries).entries = entries.length ∧
      reader.entries = min entries.length (indexKept / settings.layout.width) ∧
      (∀ position payload height, position < reader.entries →
        entries[position]? = some (payload, height) →
          (written settings.layout entries (position + 1) ≤ dataKept → reader.locate position =
            located position (written settings.layout entries position) payload) ∧
          (dataKept < written settings.layout entries (position + 1) →
            ∃ cause, reader.locate position = .error (.truncated position cause))) ∧
      (∀ position, reader.entries ≤ position →
        reader.locate position = .error (.notFound position)) ∧
      ∀ values tree saved left index data, settings.indexPath? = some index →
        settings.dataPath? = some data → saved.place index ≠ saved.place data →
          (ofPayloads settings.layout entries).save settings (Host.ofTree values) tree =
            (.ok (), saved) →
          left.read index = (saved.read index).map (·.take indexKept) →
          left.read data = (saved.read data).map (·.take dataKept) →
            LogReader.ofHost settings (Host.ofTree values) left = (.ok reader, left) := by
  intro reader
  refine ⟨(holds settings.layout entries).count, entriesOfCut .., ?_, ?_, ?_⟩
  · intro position payload height left found
    exact locateOfCut indexKept dataKept fits found (short _ (List.mem_of_getElem? found)) left
  · intro position past
    have nothing : reader.entry position = .error (.notFound position) := if_pos past
    rw [locate, nothing]
    rfl
  · intro values tree saved left index data indexPath dataPath apart done indexLeft dataLeft
    obtain ⟨indexSaved, dataSaved⟩ := savedHas indexPath dataPath apart done
    rw [indexSaved] at indexLeft
    rw [dataSaved] at dataLeft
    exact openedOfHost indexPath dataPath indexLeft dataLeft

/-- Of two payloads the data keep the first one and a byte of the second one. -/
theorem cutReadsBackFirst :
    let entries : List (Bytes × UInt64) := [([0x7b], 7), ([0x5b, 0x5d], 8)]
    let reader := (ofPayloads .offsets entries).cut .standard 17 3
    (∀ entry ∈ entries, entry.1.length ≤ LogSettings.standard.maxRecordBytes.toNat) ∧
      (ofPayloads .offsets entries).data.size = 5 ∧ reader.entries = 2 ∧
      reader.locate 0 = located 0 0 [0x7b] ∧
      (∃ cause, reader.locate 1 = .error (.truncated 1 cause)) ∧
      reader.locate 2 = .error (.notFound 2) := by
  intro entries reader
  have short : ∀ entry ∈ entries, entry.1.length ≤ LogSettings.standard.maxRecordBytes.toNat := by
    decide
  have frames : (LogWriter.frame [0x7b]).length = 2 ∧ (LogWriter.frame [0x5b, 0x5d]).length = 3 := by
    constructor <;> cbv
  have middle : written .offsets entries 1 = 2 := by
    rw [writtenSucc (rfl : entries[0]? = some ([0x7b], 7)), frames.1]
    rfl
  have size : written .offsets entries 2 = 5 := by
    rw [writtenSucc (rfl : entries[1]? = some ([0x5b, 0x5d], 8)), middle, frames.2]
  obtain ⟨_, count, found, past, _⟩ := cutReadsBack .standard entries 17 3 short
    (le_of_eq_of_le size (by decide))
  have first := (found 0 [0x7b] 7 (count ▸ by decide) rfl).1
    (le_of_eq_of_le middle (by decide))
  have second := (found 1 [0x5b, 0x5d] 8 (count ▸ by decide) rfl).2
    (lt_of_lt_of_eq (by decide) size.symm)
  exact ⟨short, size, count, first, second, past 2 (count ▸ by decide)⟩

end LogReader

end Backfill
