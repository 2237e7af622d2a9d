/-
This file shows that a log gives back what was written to it, and that a cut of its files loses no
more than what it cuts.
-/

import Backfill.Log.Reader
import Backfill.Log.Writer
import Backfill.Proofs.Record.RoundTrip
import Mathlib.Data.List.Induction

namespace Backfill

namespace Length

/-- Every length takes a byte. -/
theorem writePositive (length : Nat) : 0 < (write length).length := by
  rw [write]
  split <;> simp

/-- One group of a length is read, and the next one if it has a mark. -/
theorem readFromCons (before after : List UInt8) {byte : UInt8} {shift : Nat} (known : Nat)
    (fits : shift = lastShift → byte.toNat ≤ 1) :
    readFrom (before ++ byte :: after).toArray shift known before.length =
      if byte.toNat < 128 then
        .length (known + byte.toNat % 128 * Nat.pow 2 shift) (before ++ [byte]).length
      else
        readFrom (before ++ [byte] ++ after).toArray (shift + 7)
          (known + byte.toNat % 128 * Nat.pow 2 shift) (before ++ [byte]).length := by
  have within : ¬(shift = lastShift ∧ 1 < byte.toNat) :=
    fun ⟨last, large⟩ => Nat.not_lt.mpr (fits last) large
  rw [readFrom]
  simp [within]

/-- A length is read back, also behind bits that are known already, unless a cut leaves only a part
of its bytes. -/
theorem readFromWrite (before after : List UInt8) {length shift known : Nat} (kept : Nat)
    (fits : known + length * Nat.pow 2 shift ≤ maxWord) :
    readFrom (before ++ (write length ++ after).take kept).toArray shift known before.length =
      if (write length).length ≤ kept then
        .length (known + length * Nat.pow 2 shift) (before.length + (write length).length)
      else .cutOff := by
  induction length using Nat.strongRecOn generalizing before shift known kept with
  | ind length inductionHypothesis =>
      cases kept with
      | zero =>
          have positive := writePositive length
          rw [readFrom]
          simp [Nat.ne_of_gt positive]
      | succ kept =>
          -- The tenth group has a single bit, since a word has no room for more.
          have last : shift = lastShift → length ≤ 1 := by
            rintro rfl
            simp only [lastShift, maxWord, Nat.pow_eq] at fits
            omega
          by_cases small : length < 128
          · have byte : (UInt8.ofNat length).toNat = length := by
              rw [UInt8.toNat_ofNat']
              omega
            have written : write length = [UInt8.ofNat length] := by
              rw [write, if_pos small]
            rw [written, List.cons_append, List.nil_append, List.take_succ_cons,
              readFromCons _ _ _ (by rwa [byte]), byte, if_pos small, Nat.mod_eq_of_lt small]
            simp
          · have byte : (UInt8.ofNat (length % 128 + 128)).toNat = length % 128 + 128 := by
              rw [UInt8.toNat_ofNat']
              omega
            have written : write length =
                UInt8.ofNat (length % 128 + 128) :: write (length / 128) := by
              rw [write, if_neg small]
            have groups : length % 128 * Nat.pow 2 shift + length / 128 * Nat.pow 2 (shift + 7) =
                length * Nat.pow 2 shift := by
              rw [Nat.pow_eq, Nat.pow_eq, Nat.pow_add, Nat.mul_comm (2 ^ shift), ← Nat.mul_assoc,
                ← Nat.add_mul]
              congr 1
              omega
            rw [written, List.cons_append, List.take_succ_cons,
              readFromCons _ _ _ (by omega), byte, if_neg (by omega), Nat.add_mod_right,
              Nat.mod_mod, inductionHypothesis (length / 128) (by omega) _ _ (by omega),
              Nat.add_assoc, groups]
            simp [Nat.add_assoc, Nat.add_comm 1]

end Length

/-- The bytes of a word, the lowest first, make up the word. -/
theorem wordOfBytes (count word : Nat) :
    ((List.range count).map fun position =>
      UInt8.ofNat (word / Nat.pow 256 position % 256)).foldr
        (fun byte value => byte.toNat + 256 * value) 0 = word % Nat.pow 256 count := by
  induction count generalizing word with
  | zero => simp [Nat.mod_one]
  | succ count inductionHypothesis =>
      have lowest : (UInt8.ofNat (word / Nat.pow 256 0 % 256)).toNat = word % 256 := by
        rw [UInt8.toNat_ofNat']
        simp
      have higher : (List.range count).map
          ((fun position => UInt8.ofNat (word / Nat.pow 256 position % 256)) ∘ Nat.succ) =
            (List.range count).map fun position =>
              UInt8.ofNat (word / 256 / Nat.pow 256 position % 256) := by
        refine List.map_congr_left fun position _ => ?_
        simp only [Function.comp_apply, Nat.pow_eq, Nat.div_div_eq_div_mul, Nat.pow_succ,
          Nat.mul_comm 256]
      rw [List.range_succ_eq_map, List.map_cons, List.foldr_cons, List.map_map, higher,
        inductionHypothesis, lowest, Nat.pow_eq, Nat.pow_eq, Nat.pow_succ', Nat.mod_mul]

theorem wordBytesLength (word : Nat) : (wordBytes word).length = 8 := by
  simp [wordBytes]

/-- The bytes between others are found where they stand. -/
theorem extractBetween (before bytes after : List UInt8) :
    (before ++ bytes ++ after).toArray.extract before.length (before.length + bytes.length) =
      bytes.toArray := by
  rw [List.extract_toArray, List.extract_eq_take_drop, List.append_assoc, List.drop_left,
    Nat.add_sub_cancel_left, List.take_left]

/-- A word is read where its bytes stand. -/
theorem wordAtBytes (before after : List UInt8) {word : Nat} (fits : word ≤ maxWord) :
    wordAt (before ++ wordBytes word ++ after).toArray before.length = word := by
  rw [wordAt, ← wordBytesLength word, extractBetween, List.foldr_toArray]
  exact (wordOfBytes 8 word).trans (Nat.mod_eq_of_lt (Nat.lt_of_le_pred (by decide) fits))

namespace LogWriter

/-- The log of payloads that were appended one after the other, each with its height. -/
def ofPayloads (layout : IndexLayout) (entries : List (Bytes × UInt64)) : LogWriter :=
  entries.foldl (fun log entry => log.appendRaw entry.1 entry.2.toNat) (.empty layout)

/-- The bytes that a payload takes: its length stands before it. -/
def frame (payload : Bytes) : List UInt8 :=
  Length.write payload.length ++ payload

/-- The size of the data when so many payloads are appended. -/
def written (layout : IndexLayout) (entries : List (Bytes × UInt64)) (count : Nat) : Nat :=
  (ofPayloads layout (entries.take count)).data.size

/-- A log of which the first bytes of both files are left. -/
def cut (log : LogWriter) (settings : LogSettings) (indexKept dataKept : Nat) : LogReader :=
  .ofFiles settings (.file (log.index.take indexKept)) (.file (log.data.take dataKept))

variable {layout : IndexLayout}

theorem entryBytesLength (layout : IndexLayout) (offset length height : Nat) :
    (entryBytes layout offset length height).length = layout.width := by
  cases layout <;> simp [entryBytes, wordBytesLength, IndexLayout.width]

theorem ofPayloadsAppend (entries : List (Bytes × UInt64)) (payload : Bytes) (height : UInt64) :
    ofPayloads layout (entries ++ [(payload, height)]) =
      (ofPayloads layout entries).appendRaw payload height.toNat := by
  simp [ofPayloads]

theorem appendRawIndex (log : LogWriter) (payload : Bytes) (height : Nat) :
    (log.appendRaw payload height).index.toList =
      log.index.toList ++ entryBytes log.layout log.data.size payload.length height :=
  Array.toList_appendList

theorem appendRawData (log : LogWriter) (payload : Bytes) (height : Nat) :
    (log.appendRaw payload height).data.toList = log.data.toList ++ frame payload := by
  simp only [appendRaw, Array.toList_appendList, List.append_assoc, frame]

theorem writtenAppend (layout : IndexLayout) (entries more : List (Bytes × UInt64)) {count : Nat}
    (within : count ≤ entries.length) :
    written layout (entries ++ more) count = written layout entries count := by
  rw [written, List.take_append_of_le_length within, written]

theorem writtenAll (layout : IndexLayout) (entries : List (Bytes × UInt64)) :
    written layout entries entries.length = (ofPayloads layout entries).data.toList.length := by
  rw [written, List.take_length, Array.length_toList]

/-- The data of a log are the frames of its payloads. -/
theorem framesEq (layout : IndexLayout) (entries : List (Bytes × UInt64)) :
    (ofPayloads layout entries).data.toList = entries.flatMap fun entry => frame entry.1 := by
  induction entries using List.reverseRecOn with
  | nil => rfl
  | append_singleton before entry inductionHypothesis =>
      rw [ofPayloadsAppend, appendRawData, inductionHypothesis, List.flatMap_append,
        List.flatMap_singleton]

theorem writtenEq (layout : IndexLayout) (entries : List (Bytes × UInt64)) (count : Nat) :
    written layout entries count =
      ((entries.take count).flatMap fun entry => frame entry.1).length := by
  rw [written, ← Array.length_toList, framesEq]

/-- A payload adds its frame to the data. -/
theorem writtenSucc {entries : List (Bytes × UInt64)} {position : Nat} {payload : Bytes}
    {height : UInt64} (found : entries[position]? = some (payload, height)) :
    written layout entries (position + 1) =
      written layout entries position + (frame payload).length := by
  rw [written, List.take_add_one, found, Option.toList_some, ofPayloadsAppend,
    ← Array.length_toList, appendRawData, List.length_append, Array.length_toList, written]

/-- What the files of a log hold: at each position the index has an entry and the data have a frame,
and the entry tells where the frame starts. -/
structure Holds (layout : IndexLayout) (entries : List (Bytes × UInt64)) : Prop where
  arranged : (ofPayloads layout entries).layout = layout
  count : (ofPayloads layout entries).entries = entries.length
  indexLength : (ofPayloads layout entries).index.toList.length = entries.length * layout.width
  entry : ∀ position payload height, entries[position]? = some (payload, height) →
    ∃ before after, before.length = position * layout.width ∧
      (ofPayloads layout entries).index.toList = before ++
        (entryBytes layout (written layout entries position) payload.length height.toNat ++ after)
  frame : ∀ position payload height, entries[position]? = some (payload, height) →
    ∃ before after, before.length = written layout entries position ∧
      (ofPayloads layout entries).data.toList = before ++ (frame payload ++ after)

/-- A position of a list with one more entry is an earlier one, or the new one. -/
theorem placesOfAppend {entries : List (Bytes × UInt64)} {entry other : Bytes × UInt64}
    {position : Nat} (found : (entries ++ [entry])[position]? = some other) :
    position ≤ entries.length ∧
      (entries[position]? = some other ∨ position = entries.length ∧ other = entry) := by
  rw [List.getElem?_append] at found
  split at found
  · exact ⟨Nat.le_of_lt ‹_›, .inl found⟩
  · rw [List.getElem?_singleton] at found
    split at found
    · exact ⟨by omega, .inr ⟨by omega, (Option.some.inj found).symm⟩⟩
    · cases found

/-- Appending a payload keeps what the files hold, and adds an entry and a frame at their ends. -/
theorem Holds.append {entries : List (Bytes × UInt64)} (holds : Holds layout entries)
    (payload : Bytes) (height : UInt64) : Holds layout (entries ++ [(payload, height)]) := by
  obtain ⟨arranged, count, indexLength, entry, frames⟩ := holds
  have index : (ofPayloads layout (entries ++ [(payload, height)])).index.toList =
      (ofPayloads layout entries).index.toList ++ entryBytes layout
        (written layout entries entries.length) payload.length height.toNat := by
    rw [ofPayloadsAppend, appendRawIndex, arranged, writtenAll]
    rfl
  have data : (ofPayloads layout (entries ++ [(payload, height)])).data.toList =
      (ofPayloads layout entries).data.toList ++ LogWriter.frame payload := by
    rw [ofPayloadsAppend, appendRawData]
  refine ⟨?_, ?_, ?_, ?_, ?_⟩
  · rw [ofPayloadsAppend]
    exact arranged
  · rw [ofPayloadsAppend]
    simp [appendRaw, count]
  · rw [index, List.length_append, indexLength, entryBytesLength, List.length_append,
      List.length_singleton, Nat.add_mul, Nat.one_mul]
  · intro position other place found
    obtain ⟨within, earlier | ⟨rfl, ⟨⟩⟩⟩ := placesOfAppend found
    · obtain ⟨before, after, length, bytes⟩ := entry position other place earlier
      refine ⟨before, after ++ entryBytes layout (written layout entries entries.length)
        payload.length height.toNat, length, ?_⟩
      rw [index, bytes, writtenAppend _ _ _ within, List.append_assoc, List.append_assoc]
    · refine ⟨_, [], indexLength, ?_⟩
      rw [index, writtenAppend _ _ _ within, List.append_nil]
  · intro position other place found
    obtain ⟨within, earlier | ⟨rfl, ⟨⟩⟩⟩ := placesOfAppend found
    · obtain ⟨before, after, length, bytes⟩ := frames position other place earlier
      refine ⟨before, after ++ LogWriter.frame payload,
        length.trans (writtenAppend _ _ _ within).symm, ?_⟩
      rw [data, bytes, List.append_assoc, List.append_assoc]
    · refine ⟨_, [], (writtenAll _ _).symm.trans (writtenAppend _ _ _ within).symm, ?_⟩
      rw [data, List.append_nil]

/-- What the files of a log hold after all payloads were appended. -/
theorem holds (layout : IndexLayout) (entries : List (Bytes × UInt64)) : Holds layout entries := by
  induction entries using List.reverseRecOn with
  | nil => exact ⟨rfl, rfl, by simp [ofPayloads, empty], by simp, by simp⟩
  | append_singleton entries entry inductionHypothesis =>
      exact inductionHypothesis.append entry.1 entry.2

/-- The frames lie in the data. -/
theorem writtenLe (layout : IndexLayout) {entries : List (Bytes × UInt64)} {position : Nat}
    {payload : Bytes} {height : UInt64} (found : entries[position]? = some (payload, height)) :
    written layout entries position + (frame payload).length ≤
      (ofPayloads layout entries).data.size := by
  obtain ⟨before, after, length, data⟩ := (holds layout entries).frame position payload height found
  rw [← Array.length_toList, data, List.length_append, List.length_append, length]
  omega

end LogWriter

namespace LogReader

open LogWriter

/-- A reader of a file that was cut reads what is left of its bytes. -/
theorem takeToArray (content : Array UInt8) (kept : Nat) :
    content.take kept = (content.toList.take kept).toArray :=
  List.take_toArray

/-- The entries of a log whose index was cut are those that are left as a whole. -/
theorem entriesOfCut (settings : LogSettings) (entries : List (Bytes × UInt64))
    (indexKept dataKept : Nat) :
    ((ofPayloads settings.layout entries).cut settings indexKept dataKept).entries =
      min entries.length (indexKept / settings.layout.width) := by
  have size : ((ofPayloads settings.layout entries).index.take indexKept).size =
      min indexKept (entries.length * settings.layout.width) := by
    rw [takeToArray, List.size_toArray, List.length_take, (holds settings.layout entries).indexLength]
  have positive := settings.layout.widthPositive
  change ((ofPayloads settings.layout entries).index.take indexKept).size / _ = _
  rcases Nat.le_total indexKept (entries.length * settings.layout.width) with less | more
  · rw [size, Nat.min_eq_left less, Nat.min_eq_right]
    exact Nat.div_le_of_le_mul (Nat.mul_comm _ _ ▸ less)
  · rw [size, Nat.min_eq_right more, Nat.mul_div_cancel _ positive, Nat.min_eq_left]
    exact (Nat.le_div_iff_mul_le positive).mpr more

/-- The entry that the layout gives a frame. -/
def entryOf (layout : IndexLayout) (offset length height : Nat) : IndexEntry :=
  match layout with
  | .offsets => ⟨offset, none, none⟩
  | .extended => ⟨offset, some length, some height⟩

/-- An entry is read where its bytes stand. -/
theorem entryAtBytes (layout : IndexLayout) (before after : List UInt8) {offset length height : Nat}
    (offsetFits : offset ≤ maxWord) (lengthFits : length ≤ maxWord) (heightFits : height ≤ maxWord) :
    entryAt layout (before ++ (entryBytes layout offset length height ++ after)).toArray
      before.length = entryOf layout offset length height := by
  cases layout with
  | offsets =>
      simp only [entryAt, entryBytes, entryOf, ← List.append_assoc]
      rw [wordAtBytes before after offsetFits]
  | extended =>
      have first := wordAtBytes before (wordBytes length ++ wordBytes height ++ after) offsetFits
      have second := wordAtBytes (before ++ wordBytes offset) (wordBytes height ++ after) lengthFits
      have third := wordAtBytes (before ++ wordBytes offset ++ wordBytes length) after heightFits
      simp only [List.length_append, wordBytesLength, ← List.append_assoc] at first second third
      simp only [entryAt, entryBytes, entryOf, ← List.append_assoc, first, second, third]

/-- An entry is read if the index has all of its bytes. -/
theorem entryOfBytes {reader : LogReader} {content : Array UInt8} (before after : List UInt8)
    {position offset length height : Nat} (file : reader.index = .file content)
    (bytes : content =
      (before ++ (entryBytes reader.settings.layout offset length height ++ after)).toArray)
    (place : before.length = position * reader.settings.layout.width)
    (left : position < reader.entries) (offsetFits : offset ≤ maxWord) (lengthFits : length ≤ maxWord)
    (heightFits : height ≤ maxWord) :
    reader.entry position = .ok (entryOf reader.settings.layout offset length height) := by
  have whole : position * reader.settings.layout.width + reader.settings.layout.width ≤
      content.size := by
    rw [bytes, List.size_toArray, List.length_append, List.length_append, entryBytesLength, place]
    omega
  rw [LogReader.entry, if_neg (Nat.not_le.mpr left), file]
  dsimp only
  rw [if_pos whole, bytes, ← place, entryAtBytes _ _ _ offsetFits lengthFits heightFits]

/-- The payload of a frame is read back when the frame is left as a whole, and is truncated
otherwise. -/
theorem payloadOfFrame (reader : LogReader) {entry : IndexEntry} {content : Array UInt8}
    (before after : List UInt8) {payload : Bytes} (position kept : Nat)
    (file : reader.data = .file content) (size : reader.dataLength = content.size)
    (bytes : content = (before ++ (LogWriter.frame payload ++ after).take kept).toArray)
    (start : entry.offset = before.length)
    (agrees : entry.length.filter (· ≠ payload.length) = none)
    (fits : payload.length ≤ maxWord) (short : payload.length ≤ reader.settings.maxRecordBytes.toNat) :
    if (LogWriter.frame payload).length ≤ kept then reader.payload position entry = .ok payload
    else ∃ cause, reader.payload position entry = .error (.truncated position cause) := by
  have positive := Length.writePositive payload.length
  have frameLength : (LogWriter.frame payload).length =
      (Length.write payload.length).length + payload.length := List.length_append
  have contentSize : content.size =
      before.length + min kept ((LogWriter.frame payload).length + after.length) := by
    rw [bytes, List.size_toArray, List.length_append, List.length_take, List.length_append]
  have read : Length.read content entry.offset =
      if (Length.write payload.length).length ≤ kept then
        .length payload.length (before.length + (Length.write payload.length).length)
      else .cutOff := by
    have known := Length.readFromWrite before (payload ++ after) kept
      (show 0 + payload.length * Nat.pow 2 0 ≤ maxWord by simpa using fits)
    rw [← List.append_assoc, Nat.zero_add, Nat.pow_eq, Nat.pow_zero, Nat.mul_one] at known
    rw [Length.read, start, bytes]
    exact known
  by_cases lost : kept = 0
  · rw [if_neg (by omega)]
    refine ⟨.startsPastEnd entry.offset reader.dataLength, ?_⟩
    rw [LogReader.payload, if_pos (by omega)]
  · have reaches : ¬reader.dataLength ≤ entry.offset := by omega
    unfold LogReader.payload
    rw [if_neg reaches, file]
    dsimp only
    rw [read]
    by_cases counted : (Length.write payload.length).length ≤ kept
    · rw [if_pos counted]
      dsimp only
      rw [agrees]
      dsimp only [payloadAt]
      rw [if_neg (Nat.not_lt.mpr short)]
      by_cases whole : (LogWriter.frame payload).length ≤ kept
      · have left : before ++ (LogWriter.frame payload ++ after).take kept =
            before ++ Length.write payload.length ++ payload ++
              after.take (kept - (LogWriter.frame payload).length) := by
          rw [List.take_append, List.take_of_length_le whole]
          simp only [LogWriter.frame, List.append_assoc]
        have stored := extractBetween (before ++ Length.write payload.length) payload
          (after.take (kept - (LogWriter.frame payload).length))
        rw [if_pos whole, if_neg (by omega), if_neg (by omega), bytes, left,
          ← List.length_append, stored]
      · rw [if_neg whole, if_pos (by omega)]
        exact ⟨_, rfl⟩
    · rw [if_neg counted, if_neg (by omega)]
      exact ⟨_, rfl⟩

variable {settings : LogSettings} {entries : List (Bytes × UInt64)} {indexKept dataKept position : Nat}
  {payload : Bytes} {height : UInt64}

/-- An entry that a cut of the index leaves tells where its frame starts. -/
theorem entryOfCut (fits : (ofPayloads settings.layout entries).data.size ≤ maxSigned)
    (found : entries[position]? = some (payload, height))
    (left : position <
      ((ofPayloads settings.layout entries).cut settings indexKept dataKept).entries) :
    ((ofPayloads settings.layout entries).cut settings indexKept dataKept).entry position =
      .ok (entryOf settings.layout (written settings.layout entries position) payload.length
        height.toNat) := by
  obtain ⟨before, after, length, index⟩ :=
    (holds settings.layout entries).entry position payload height found
  have bound := writtenLe settings.layout found
  have inside : position * settings.layout.width + settings.layout.width ≤ indexKept := by
    rw [entriesOfCut, Nat.lt_min] at left
    have whole := (Nat.le_div_iff_mul_le settings.layout.widthPositive).mp left.2
    rwa [Nat.succ_mul] at whole
  have content : (ofPayloads settings.layout entries).index.take indexKept =
      (before ++ (entryBytes settings.layout (written settings.layout entries position)
        payload.length height.toNat ++ after.take (indexKept - (position * settings.layout.width +
          settings.layout.width)))).toArray := by
    rw [takeToArray, index, List.take_append, List.take_of_length_le (by omega), List.take_append,
      entryBytesLength, List.take_of_length_le (by rw [entryBytesLength]; omega), length,
      Nat.sub_sub]
  have words := maxSignedLe
  refine entryOfBytes before _ rfl content length left ?_ ?_ (wordLe height)
  · omega
  · rw [LogWriter.frame, List.length_append] at bound
    omega

/-- The payload at a position is read back if the cut of the data leaves its frame. -/
theorem payloadOfCut (indexKept dataKept : Nat)
    (fits : (ofPayloads settings.layout entries).data.size ≤ maxSigned)
    (found : entries[position]? = some (payload, height))
    (short : payload.length ≤ settings.maxRecordBytes.toNat) :
    if written settings.layout entries (position + 1) ≤ dataKept then
      ((ofPayloads settings.layout entries).cut settings indexKept dataKept).payload position
        (entryOf settings.layout (written settings.layout entries position) payload.length
          height.toNat) = .ok payload
    else
      ∃ cause, ((ofPayloads settings.layout entries).cut settings indexKept dataKept).payload position
        (entryOf settings.layout (written settings.layout entries position) payload.length
          height.toNat) = .error (.truncated position cause) := by
  obtain ⟨before, after, length, data⟩ :=
    (holds settings.layout entries).frame position payload height found
  have bound := writtenLe settings.layout found
  have frameLength : (LogWriter.frame payload).length =
      (Length.write payload.length).length + payload.length := List.length_append
  have positive := Length.writePositive payload.length
  have start : (entryOf settings.layout before.length payload.length height.toNat).offset =
      before.length := by
    cases settings.layout <;> rfl
  have agrees : (entryOf settings.layout before.length payload.length height.toNat).length.filter
      (· ≠ payload.length) = none := by
    cases settings.layout <;> simp [entryOf]
  rw [writtenSucc found]
  rw [← length] at bound ⊢
  by_cases reaches : before.length ≤ dataKept
  · have content : (ofPayloads settings.layout entries).data.take dataKept =
        (before ++ (LogWriter.frame payload ++ after).take (dataKept - before.length)).toArray := by
      rw [takeToArray, data, List.take_append, List.take_of_length_le reaches]
    have words := maxSignedLe
    have read := payloadOfFrame
      ((ofPayloads settings.layout entries).cut settings indexKept dataKept) before after position
      (dataKept - before.length) rfl rfl content start agrees (by omega) short
    simpa only [Nat.le_sub_iff_add_le' reaches] using read
  · have lost : ((ofPayloads settings.layout entries).cut settings indexKept dataKept).dataLength ≤
        (entryOf settings.layout before.length payload.length height.toNat).offset := by
      rw [start]
      refine Nat.le_trans ?_ (Nat.le_of_not_le reaches)
      change ((ofPayloads settings.layout entries).data.take dataKept).size ≤ dataKept
      rw [takeToArray, List.size_toArray, List.length_take]
      exact Nat.min_le_left _ _
    rw [if_neg (by omega)]
    exact ⟨.startsPastEnd _ _, if_pos lost⟩

/-- The record that a payload holds, as it is located in a log. -/
def located (position offset : Nat) (payload : Bytes) : Except LogError LogRecord :=
  match Record.decode payload with
  | .ok record => .ok ⟨position, offset, record⟩
  | .error fault => .error (.undecodable position (.badRecord fault.message))

theorem locateOfPayload {reader : LogReader} {entry : IndexEntry} {payload : Bytes} (position : Nat)
    (read : reader.entry position = .ok entry)
    (stored : reader.payload position entry = .ok payload) :
    reader.locate position = located position entry.offset payload := by
  unfold locate recordAt located
  rw [read]
  change ((reader.payload position entry >>= _) >>= _) = _
  rw [stored]
  change ((match Record.decode payload with | .ok record => _ | .error fault => _) >>= _) = _
  cases Record.decode payload <;> rfl

theorem locateOfError {reader : LogReader} {entry : IndexEntry} {error : LogError} (position : Nat)
    (read : reader.entry position = .ok entry)
    (failed : reader.payload position entry = .error error) :
    reader.locate position = .error error := by
  unfold locate recordAt
  rw [read]
  change ((reader.payload position entry >>= _) >>= _) = _
  rw [failed]
  rfl

/-- The record at a position that the index still has is the one that the payload holds, unless the
frame is cut. -/
theorem locateOfCut (indexKept dataKept : Nat)
    (fits : (ofPayloads settings.layout entries).data.size ≤ maxSigned)
    (found : entries[position]? = some (payload, height))
    (short : payload.length ≤ settings.maxRecordBytes.toNat)
    (left : position <
      ((ofPayloads settings.layout entries).cut settings indexKept dataKept).entries) :
    (written settings.layout entries (position + 1) ≤ dataKept →
      ((ofPayloads settings.layout entries).cut settings indexKept dataKept).locate position =
        located position (written settings.layout entries position) payload) ∧
      (dataKept < written settings.layout entries (position + 1) →
        ∃ cause, ((ofPayloads settings.layout entries).cut settings indexKept dataKept).locate
          position = .error (.truncated position cause)) := by
  have read := entryOfCut fits found left
  have offset : (entryOf settings.layout (written settings.layout entries position)
      payload.length height.toNat).offset = written settings.layout entries position := by
    cases settings.layout <;> rfl
  have stored := payloadOfCut indexKept dataKept fits found short
  refine ⟨fun whole => ?_, fun lost => ?_⟩
  · rw [if_pos whole] at stored
    rw [locateOfPayload position read stored, offset]
  · rw [if_neg (Nat.not_le.mpr lost)] at stored
    obtain ⟨cause, truncated⟩ := stored
    exact ⟨cause, locateOfError position read truncated⟩

/-- The log that records make. -/
def ofRecords (layout : IndexLayout) (records : List Record) : LogWriter :=
  records.foldl LogWriter.append (.empty layout)

theorem ofRecordsEq (layout : IndexLayout) (records : List Record) :
    ofRecords layout records =
      ofPayloads layout (records.map fun record => (Text.Utf8.encode record.encode, record.height)) := by
  rw [ofRecords, ofPayloads, List.foldl_map]
  rfl

theorem cutNothing (log : LogWriter) (settings : LogSettings) :
    log.cut settings log.index.size log.data.size =
      .ofFiles settings (.file log.index) (.file log.data) := by
  have whole (content : Array UInt8) : content.take content.size = content := by
    rw [takeToArray, ← Array.length_toList, List.take_length]
  rw [LogWriter.cut, whole, whole]

/-- The offset at which the frame of the record at a position starts. -/
def frameStart (records : List Record) (position : Nat) : Nat :=
  ((records.take position).flatMap fun record =>
    LogWriter.frame (Text.Utf8.encode record.encode)).length

theorem frameStartEq (layout : IndexLayout) (records : List Record) (position : Nat) :
    written layout (records.map fun record => (Text.Utf8.encode record.encode, record.height))
      position = frameStart records position := by
  rw [writtenEq, frameStart, ← List.map_take, List.flatMap_map]

/-- A log that was not cut has all its entries. -/
theorem entriesOfWhole (settings : LogSettings) (entries : List (Bytes × UInt64)) :
    ((ofPayloads settings.layout entries).cut settings (ofPayloads settings.layout entries).index.size
      (ofPayloads settings.layout entries).data.size).entries = entries.length := by
  rw [entriesOfCut, ← Array.length_toList, (holds settings.layout entries).indexLength,
    Nat.mul_div_cancel _ settings.layout.widthPositive, Nat.min_self]

section Records

variable {records : List Record} {record : Record}

theorem payloadOfRecord (found : records[position]? = some record) :
    (records.map fun record => (Text.Utf8.encode record.encode, record.height))[position]? =
      some (Text.Utf8.encode record.encode, record.height) := by
  rw [List.getElem?_map, found, Option.map_some]

/-- The index of a log of records tells where the frame of each record starts. -/
theorem entryOfRecords (settings : LogSettings)
    (fits : (ofRecords settings.layout records).data.size ≤ maxSigned)
    (found : records[position]? = some record) :
    (LogReader.ofFiles settings (.file (ofRecords settings.layout records).index)
      (.file (ofRecords settings.layout records).data)).entry position =
        .ok (entryOf settings.layout (frameStart records position)
          (Text.Utf8.encode record.encode).length record.height.toNat) := by
  have listed := payloadOfRecord found
  rw [← frameStartEq settings.layout]
  rw [ofRecordsEq] at fits ⊢
  rw [← cutNothing]
  have left := (List.getElem?_eq_some_iff.mp listed).1
  rw [← entriesOfWhole settings] at left
  exact entryOfCut fits listed left

/-- A log of records locates them, each at its position and where its frame starts. -/
theorem locateOfRecords (settings : LogSettings) (short : ∀ record ∈ records,
      (Text.Utf8.encode record.encode).length ≤ settings.maxRecordBytes.toNat)
    (fits : (ofRecords settings.layout records).data.size ≤ maxSigned)
    (found : records[position]? = some record) :
    (LogReader.ofFiles settings (.file (ofRecords settings.layout records).index)
      (.file (ofRecords settings.layout records).data)).locate position =
        .ok ⟨position, frameStart records position, record⟩ := by
  have listed := payloadOfRecord found
  have small := short record (List.mem_of_getElem? found)
  rw [← frameStartEq settings.layout]
  rw [ofRecordsEq] at fits ⊢
  rw [← cutNothing]
  have left := (List.getElem?_eq_some_iff.mp listed).1
  rw [← entriesOfWhole settings] at left
  have whole := writtenLe settings.layout listed
  rw [← writtenSucc listed] at whole
  rw [(locateOfCut _ _ fits listed small left).1 whole, located, Record.decodeOfEncode]

/-- A log of records reads them back, each at its position. -/
theorem readOfRecords (settings : LogSettings) (short : ∀ record ∈ records,
      (Text.Utf8.encode record.encode).length ≤ settings.maxRecordBytes.toNat)
    (fits : (ofRecords settings.layout records).data.size ≤ maxSigned)
    (found : records[position]? = some record) :
    (LogReader.ofFiles settings (.file (ofRecords settings.layout records).index)
      (.file (ofRecords settings.layout records).data)).read position = .ok record := by
  rw [readOfLocate, locateOfRecords settings short fits found]
  rfl

end Records

end LogReader

end Backfill
