/-
This file reads a log as a machine does, whose words have an end and which stands somewhere in both
files. Whatever bytes the files hold, the machine comes to no step that it cannot do, and reads what
the log says.
-/

import Backfill.Log.Coverage
import Backfill.Proofs.Log.Files
import Backfill.Proofs.Log.Scan
import Backfill.Proofs.Word

namespace Backfill

/-- A machine stands at an offset of either file of a log. -/
structure LogPlace where
  index : Nat
  data : Nat
deriving DecidableEq, Repr

/-- The places that lie in the files of a log. -/
def LogPlace.Inside (place : LogPlace) (index data : Array UInt8) : Prop :=
  place.index ≤ index.size ∧ place.data ≤ data.size

/-- A log is asked for the record at a position, by a read or by the scan of a range. -/
structure LogRequest where
  position : Nat
  scanned : Option HeightRange
deriving DecidableEq, Repr

/-- The record at a position, unless a scan passes over it. -/
def LogReader.answer (reader : LogReader) (request : LogRequest) :
    Except LogError (Option Record) :=
  match request.scanned with
  | none => (reader.read request.position).map some
  | some range => reader.visit range request.position

namespace Machine

/-- A number that a word holds. -/
def word (value : Nat) : Except MachineFault Nat :=
  if value ≤ maxWord then .ok value else .error .overflow

/-- A number that a signed word holds. -/
def signed (value : Int) : Except MachineFault Int :=
  if -(maxSigned + 1) ≤ value ∧ value ≤ maxSigned then .ok value else .error .overflow

/-- Goes to a target in a file of a given size, by its signed distance from where the machine stands
unless that is the target. -/
def move (size current target : Nat) : Except MachineFault Nat :=
  if current = target then .ok target
  else do
    let source ← signed current
    let goal ← signed target
    let distance ← signed (goal - source)
    if 0 ≤ source + distance ∧ source + distance ≤ size then .ok (source + distance).toNat
    else .error .outside

/-- Goes past so many bytes of a file of a given size. -/
def pass (size start count : Nat) : Except MachineFault Nat :=
  if start + count ≤ size then .ok (start + count) else .error .outside

/-- A buffer of so many bytes, which may be no larger than a limit and than what is left of a file.
-/
def buffer (limit left count : Nat) : Except MachineFault Nat :=
  if count ≤ limit ∧ count ≤ left then .ok count else .error .oversized

/-- The offset behind the group whose bits are not read. -/
def skipped (data : Array UInt8) (offset : Nat) : Nat :=
  if inside : offset < data.size then
    if data[offset].toNat < 128 then offset + 1 else skipped data (offset + 1)
  else data.size
termination_by data.size - offset

/-- Seven bits in their place, which have to fit a word and must not be moved by more than it has.
-/
def group (bits shift : Nat) : Except MachineFault Nat :=
  if shift ≤ Length.lastShift then word (bits * Nat.pow 2 shift) else .error .overflow

/-- The length at an offset, of which the bits below `shift` are known, and where the machine stands
then. -/
def length (data : Array UInt8) (shift known offset : Nat) :
    Except MachineFault (Length.Found × Nat) :=
  if inside : offset < data.size then
    let byte := data[offset].toNat
    if shift = Length.lastShift ∧ 1 < byte then
      .ok (Length.skip data offset, skipped data offset)
    else do
      let value ← word (known + (← group (byte % 128) shift))
      if byte < 128 then .ok (.length value (offset + 1), offset + 1)
      else length data (shift + 7) value (offset + 1)
  else .ok (.cutOff, data.size)
termination_by data.size - offset

section Reads

variable (settings : LogSettings) (index data : Array UInt8)

/-- The index entry at a position. -/
def entry (place position : Nat) : Except MachineFault (Except LogError IndexEntry × Nat) :=
  let width := settings.layout.width
  if index.size / width ≤ position then .ok (.error (.notFound position), place)
  else do
    let start ← move index.size place (← word (position * width))
    let next ← pass index.size start width
    return (.ok (LogReader.entryAt settings.layout index start), next)

/-- The payload of a given length that starts where the machine stands. -/
def payloadAt (position length start : Nat) :
    Except MachineFault (Except LogError Bytes × Nat) :=
  let limit := settings.maxRecordBytes.toNat
  if limit < length then .ok (.error (.undecodable position (.tooLong length limit)), start)
  -- Of all sums this one alone is cut to the largest word where it does not fit.
  else if data.size < min (start + length) maxWord then
    .ok (.error (.truncated position (.runsPastEnd length)), start)
  else do
    let count ← buffer limit (data.size - start) length
    let stop ← pass data.size start count
    return (.ok (data.extract start stop).toList, stop)

/-- The payload that an index entry points to. -/
def payload (place position : Nat) (pointer : IndexEntry) :
    Except MachineFault (Except LogError Bytes × Nat) :=
  if data.size ≤ pointer.offset then
    .ok (.error (.truncated position (.startsPastEnd pointer.offset data.size)), place)
  else do
    let (found, start) ← length data 0 0 (← move data.size place pointer.offset)
    match found with
    | .cutOff => return (.error (.truncated position .endOfData), start)
    | .overflow => return (.error (.undecodable position .lengthOverflow), start)
    | .length length _ =>
        match pointer.length.filter (· ≠ length) with
        | some stored =>
            return (.error (.undecodable position (.lengthMismatch stored length)), start)
        | none => payloadAt settings data position length start

/-- The record that a payload holds. -/
def decoded (position : Nat) (bytes : Bytes) : Except LogError Record :=
  match Record.decode bytes with
  | .ok record => .ok record
  | .error fault => .error (.undecodable position (.badRecord fault.message))

/-- The answer to a request, and where the machine stands then. -/
def answer (place : LogPlace) (request : LogRequest) :
    Except MachineFault (Except LogError (Option Record) × LogPlace) := do
  let (entry, indexPlace) ← entry settings index place.index request.position
  match entry with
  | .error cause => return (.error cause, ⟨indexPlace, place.data⟩)
  | .ok entry =>
      if request.scanned.any fun range => entry.height.any fun height => !range.contains height then
        return (.ok none, ⟨indexPlace, place.data⟩)
      else
        let (payload, dataPlace) ← payload settings data place.data request.position entry
        return ((payload.bind (decoded request.position)).map some, ⟨indexPlace, dataPlace⟩)

/-- The answers to requests one after the other, and where the machine stands then. -/
def answers : LogPlace → List LogRequest →
    Except MachineFault (List (Except LogError (Option Record)) × LogPlace)
  | place, [] => .ok ([], place)
  | place, request :: rest => do
      let (first, place) ← answer settings index data place request
      let (others, place) ← answers place rest
      return (first :: others, place)

end Reads

theorem wordOk {value : Nat} (fits : value ≤ maxWord) : word value = .ok value :=
  if_pos fits

theorem signedOk {value : Int} (least : -(maxSigned + 1) ≤ value) (most : value ≤ maxSigned) :
    signed value = .ok value :=
  if_pos ⟨least, most⟩

theorem passOk {size start count : Nat} (inside : start + count ≤ size) :
    pass size start count = .ok (start + count) :=
  if_pos inside

/-- Between two places in a file there is a signed distance. -/
theorem moveOk {size current target : Nat} (fits : size ≤ maxSigned) (source : current ≤ size)
    (goal : target ≤ size) : move size current target = .ok target := by
  unfold move
  split
  · rfl
  · rw [signedOk (by omega) (by omega), signedOk (by omega) (by omega)]
    simp only [bind, Except.bind]
    rw [signedOk (by omega) (by omega)]
    simp only
    rw [if_pos (by omega)]
    congr 1
    omega

theorem skippedLe (data : Array UInt8) (offset : Nat) : skipped data offset ≤ data.size := by
  fun_induction skipped data offset with
  | case1 offset inside last => exact inside
  | case2 offset inside more inductionHypothesis => exact inductionHypothesis
  | case3 offset outside => exact Nat.le_refl _

/-- The bits that are known are below the shift, which is a whole number of groups. -/
structure Reading (shift known : Nat) : Prop where
  groups : shift % 7 = 0
  within : shift ≤ Length.lastShift
  below : known < Nat.pow 2 shift

namespace Reading

variable {shift known byte : Nat}

/-- The bits of a group fit the word that holds the known ones, unless it is the tenth group and has
more than one. -/
theorem fits (reading : Reading shift known) (single : ¬(shift = Length.lastShift ∧ 1 < byte)) :
    known + byte % 128 * Nat.pow 2 shift ≤ maxWord := by
  obtain ⟨groups, within, below⟩ := reading
  simp only [Length.lastShift] at within single
  by_cases last : shift = 63
  · subst last
    have few : byte % 128 ≤ 1 := by omega
    simp only [Nat.pow_eq, maxWord] at below ⊢
    omega
  · have small : Nat.pow 2 shift ≤ Nat.pow 2 56 := Nat.pow_le_pow_right (by decide) (by omega)
    have bits : byte % 128 * Nat.pow 2 shift ≤ 127 * Nat.pow 2 56 :=
      Nat.mul_le_mul (by omega) small
    simp only [Nat.pow_eq, maxWord] at below small bits ⊢
    omega

/-- With a group that has a mark, the bits below the next shift are known. -/
theorem next (reading : Reading shift known) (single : ¬(shift = Length.lastShift ∧ 1 < byte))
    (marked : ¬byte < 128) : Reading (shift + 7) (known + byte % 128 * Nat.pow 2 shift) := by
  obtain ⟨groups, within, below⟩ := reading
  simp only [Length.lastShift] at within single
  refine ⟨by omega, by simp only [Length.lastShift]; omega, ?_⟩
  have bits : byte % 128 * Nat.pow 2 shift ≤ 127 * Nat.pow 2 shift :=
    Nat.mul_le_mul_right _ (by omega)
  have power : Nat.pow 2 (shift + 7) = Nat.pow 2 shift * 128 := Nat.pow_add 2 shift 7
  omega

theorem groupOk (reading : Reading shift known)
    (single : ¬(shift = Length.lastShift ∧ 1 < byte)) :
    group (byte % 128) shift = .ok (byte % 128 * Nat.pow 2 shift) := by
  rw [group, if_pos reading.within,
    wordOk (Nat.le_trans (Nat.le_add_left _ _) (reading.fits single))]

end Reading

/-- Bits that are not read make up no length. -/
theorem skipFindsNone (data : Array UInt8) (offset value behind : Nat) :
    Length.skip data offset ≠ .length value behind := by
  fun_induction Length.skip data offset with
  | case1 offset inside last => exact nofun
  | case2 offset inside more inductionHypothesis => exact inductionHypothesis
  | case3 offset outside => exact nofun

/-- The machine reads a group of bits, and the next one if it has a mark. -/
theorem lengthOfGroup {data : Array UInt8} {shift known offset : Nat}
    (reading : Reading shift known) (inside : offset < data.size)
    (single : ¬(shift = Length.lastShift ∧ 1 < data[offset].toNat)) :
    length data shift known offset =
      if data[offset].toNat < 128 then
        .ok (.length (known + data[offset].toNat % 128 * Nat.pow 2 shift) (offset + 1), offset + 1)
      else
        length data (shift + 7) (known + data[offset].toNat % 128 * Nat.pow 2 shift)
          (offset + 1) := by
  rw [length, dif_pos inside]
  simp only [if_neg single, reading.groupOk single, bind, Except.bind, wordOk (reading.fits single)]

/-- The machine reads the length that stands at an offset, and stands behind it then if it found
one. -/
theorem lengthOk (data : Array UInt8) {shift known : Nat} (offset : Nat)
    (reading : Reading shift known) :
    ∃ next ≤ data.size,
      length data shift known offset = .ok (Length.readFrom data shift known offset, next) ∧
        ∀ value behind, Length.readFrom data shift known offset = .length value behind →
          next = behind := by
  fun_induction Length.readFrom data shift known offset with
  | case1 shift known offset inside byte large =>
      refine ⟨skipped data offset, skippedLe data offset, ?_, fun value behind found => ?_⟩
      · rw [length, dif_pos inside]
        exact if_pos large
      · exact absurd found (skipFindsNone data offset value behind)
  | case2 shift known offset inside byte single value last =>
      refine ⟨offset + 1, inside, ?_, fun _ _ found => (Length.Found.length.inj found).2⟩
      rw [lengthOfGroup reading inside single]
      exact if_pos last
  | case3 shift known offset inside byte single value marked inductionHypothesis =>
      obtain ⟨next, within, read, behind⟩ := inductionHypothesis (reading.next single marked)
      refine ⟨next, within, ?_, behind⟩
      rw [lengthOfGroup reading inside single]
      exact (if_neg marked).trans read
  | case4 shift known offset outside =>
      exact ⟨data.size, Nat.le_refl _, by rw [length, dif_neg outside], nofun⟩

variable (settings : LogSettings) {index data : Array UInt8}

/-- The machine reads the index entry at a position, whole if there is one. -/
theorem entryOk (body : FileBody) (fits : index.size ≤ maxSigned) {place : Nat}
    (inside : place ≤ index.size) (position : Nat) :
    ∃ next ≤ index.size, entry settings index place position =
      .ok ((LogReader.ofFiles settings (.file index) body).entry position, next) := by
  have words := maxSignedLe
  unfold entry LogReader.entry LogReader.ofFiles
  simp only [FileBody.length]
  by_cases beyond : index.size / settings.layout.width ≤ position
  · exact ⟨place, inside, by simp only [if_pos beyond]⟩
  · have whole : position * settings.layout.width + settings.layout.width ≤ index.size := by
      rw [← Nat.succ_mul]
      exact (Nat.le_div_iff_mul_le settings.layout.widthPositive).mp (Nat.lt_of_not_le beyond)
    have start : word (position * settings.layout.width) =
        .ok (position * settings.layout.width) := wordOk (by omega)
    have goal : move index.size place (position * settings.layout.width) =
        .ok (position * settings.layout.width) := moveOk fits inside (by omega)
    refine ⟨position * settings.layout.width + settings.layout.width, whole, ?_⟩
    simp only [if_neg beyond, start, goal, passOk whole, if_pos whole, bind, Except.bind]
    rfl

/-- Nothing is known before a length is read. -/
theorem readingBlank : Reading 0 0 :=
  ⟨rfl, Nat.zero_le _, Nat.one_pos⟩

/-- The machine reads a payload where it stands, since no sum is so large that its saturation
matters. -/
theorem payloadAtOk (body : FileBody) (fits : data.size ≤ maxSigned) (position length : Nat)
    {start : Nat} (inside : start ≤ data.size) :
    ∃ next ≤ data.size, payloadAt settings data position length start =
      .ok ((LogReader.ofFiles settings body (.file data)).payloadAt data position length start,
        next) := by
  have saturated : data.size < min (start + length) maxWord ↔ data.size < start + length := by
    simp only [maxWord, maxSigned, Nat.pow_eq] at fits ⊢
    omega
  unfold payloadAt LogReader.payloadAt LogReader.ofFiles
  simp only [FileBody.length, saturated]
  by_cases large : settings.maxRecordBytes.toNat < length
  · exact ⟨start, inside, by simp only [large, if_true]⟩
  · by_cases long : data.size < start + length
    · exact ⟨start, inside, by simp only [large, long, if_true, if_false]⟩
    · have within := Nat.le_of_not_lt long
      have room : buffer settings.maxRecordBytes.toNat (data.size - start) length = .ok length :=
        if_pos (by omega)
      refine ⟨start + length, within, ?_⟩
      simp only [large, long, if_false, room, passOk within, bind, Except.bind]
      rfl

/-- The machine reads the payload that an index entry points to, whatever the entry is. -/
theorem payloadOk (body : FileBody) (fits : data.size ≤ maxSigned) {place : Nat}
    (inside : place ≤ data.size) (position : Nat) (pointer : IndexEntry) :
    ∃ next ≤ data.size, payload settings data place position pointer =
      .ok ((LogReader.ofFiles settings body (.file data)).payload position pointer, next) := by
  have opened : (LogReader.ofFiles settings body (.file data)).dataLength = data.size := rfl
  have stored : (LogReader.ofFiles settings body (.file data)).data = .file data := rfl
  unfold payload LogReader.payload
  simp only [opened, stored]
  by_cases beyond : data.size ≤ pointer.offset
  · exact ⟨place, inside, by simp only [beyond, if_true]⟩
  · have goal : move data.size place pointer.offset = .ok pointer.offset :=
      moveOk fits inside (Nat.le_of_not_le beyond)
    obtain ⟨start, within, read, behind⟩ := lengthOk data pointer.offset readingBlank
    rw [← Length.read] at read behind
    simp only [beyond, if_false, goal, read, bind, Except.bind]
    cases found : Length.read data pointer.offset with
    | cutOff => exact ⟨start, within, rfl⟩
    | overflow => exact ⟨start, within, rfl⟩
    | length length next =>
        obtain rfl := behind length next found
        simp only
        cases pointer.length.filter (· ≠ length) with
        | some other => exact ⟨start, within, rfl⟩
        | none => exact payloadAtOk settings body fits position length within

/-- The record that an entry points to is the one that its payload holds. -/
theorem recordAtEq (reader : LogReader) (position : Nat) (pointer : IndexEntry) :
    reader.recordAt position pointer =
      (reader.payload position pointer).bind (decoded position) := by
  unfold LogReader.recordAt decoded
  cases reader.payload position pointer with
  | error cause => rfl
  | ok bytes =>
      simp only [bind, Except.bind]
      cases Record.decode bytes <;> rfl

/-- The answer to a request, read by read and scan. -/
theorem answerEq (reader : LogReader) (request : LogRequest) :
    reader.answer request =
      if request.scanned.any fun range => reader.isPassed range request.position then .ok none
      else (reader.read request.position).map some := by
  obtain ⟨position, scanned⟩ := request
  cases scanned with
  | none => rfl
  | some range => exact LogReader.visitEq range position

section Runs

variable (indexFits : index.size ≤ maxSigned) (dataFits : data.size ≤ maxSigned)

include indexFits dataFits

/-- The machine answers a request as the log does, and stays in its files. -/
theorem answerOk {place : LogPlace} (inside : place.Inside index data) (request : LogRequest) :
    ∃ next : LogPlace, next.Inside index data ∧
      answer settings index data place request =
        .ok ((LogReader.ofFiles settings (.file index) (.file data)).answer request, next) := by
  obtain ⟨position, scanned⟩ := request
  obtain ⟨indexPlace, indexInside, entered⟩ :=
    entryOk settings (.file data) indexFits inside.1 position
  cases found : (LogReader.ofFiles settings (.file index) (.file data)).entry position with
  | error cause =>
      refine ⟨⟨indexPlace, place.data⟩, ⟨indexInside, inside.2⟩, ?_⟩
      simp only [answer, answerEq, LogReader.isPassed, LogReader.read, entered, found, bind,
        Except.bind]
      cases scanned <;> rfl
  | ok pointer =>
      simp only [answer, answerEq, LogReader.isPassed, LogReader.read, entered, found, bind,
        Except.bind]
      split
      · exact ⟨⟨indexPlace, place.data⟩, ⟨indexInside, inside.2⟩, rfl⟩
      · obtain ⟨dataPlace, dataInside, read⟩ :=
          payloadOk settings (.file index) dataFits inside.2 position pointer
        refine ⟨⟨indexPlace, dataPlace⟩, ⟨indexInside, dataInside⟩, ?_⟩
        rw [recordAtEq, read]
        rfl

/-- The machine answers any requests one after the other as the log does, and stays in its files. -/
theorem answersOk (requests : List LogRequest) {place : LogPlace}
    (inside : place.Inside index data) :
    ∃ last : LogPlace, last.Inside index data ∧
      answers settings index data place requests =
        .ok (requests.map (LogReader.ofFiles settings (.file index) (.file data)).answer, last) := by
  induction requests generalizing place with
  | nil => exact ⟨place, inside, rfl⟩
  | cons request rest inductionHypothesis =>
      obtain ⟨next, nextInside, first⟩ := answerOk settings indexFits dataFits inside request
      obtain ⟨last, lastInside, others⟩ := inductionHypothesis nextInside
      refine ⟨last, lastInside, ?_⟩
      simp only [answers, first, others, bind, Except.bind]
      rfl

end Runs

end Machine

namespace LogReader

variable {reader : LogReader} {index data : Array UInt8}

section Files

variable (indexed : reader.index = .file index) (stored : reader.data = .file data)

include indexed stored

/-- What cannot be located at the position of an entry is damage to that entry. -/
theorem damageOfLocate {position : Nat} (inside : position < reader.entries) {cause : LogError}
    (failed : reader.locate position = .error cause) : cause.IsDamage position := by
  refine damageOfRead indexed stored inside ?_
  rw [readOfLocate, failed]
  rfl

/-- A tally of entries goes on where one of them is damaged, and so to its end. -/
theorem tallyFromOk (left position : Nat) (within : position + left ≤ reader.entries)
    (tally : LogTally) (events : List Event) :
    ∃ total, (reader.tallyFrom left position tally events).1 = .ok total := by
  induction left generalizing position tally events with
  | zero => exact ⟨tally, rfl⟩
  | succ left inductionHypothesis =>
      have tallied : ∃ next, reader.tallyEntry tally position = .ok next := by
        unfold tallyEntry
        cases read : reader.read position with
        | ok record =>
            simp only
            split <;> exact ⟨_, rfl⟩
        | error cause =>
            have damage := damageOfRead indexed stored (by omega) read
            exact ⟨_, if_pos (LogError.skippableOfDamage damage)⟩
      obtain ⟨⟨next, more⟩, tallied⟩ := tallied
      rw [tallyFrom, tallied]
      exact inductionHypothesis (position + 1) (by omega) next _

/-- What a log of files covers can always be told. -/
theorem coverageOk : ∃ coverage, reader.coverage.1 = .ok coverage := by
  obtain ⟨total, tallied⟩ := tallyFromOk indexed stored reader.entries 0 (by omega) .blank []
  refine ⟨LogCoverage.ofTally reader.entries total, ?_⟩
  unfold coverage
  simp only [tallied, Except.map]

/-- A scan of files that hands its records to one who takes them stops, and visits entries only. -/
theorem scanOk (range : HeightRange) {κ : Type} {consumer : Consumer κ} (takes : consumer.Takes)
    (state : κ) :
    ∃ stop, (reader.scan consumer range state).1.ending = .stopped stop ∧
      ∀ earlier < (reader.scan consumer range state).1.progress.visited,
        range.start + earlier < reader.entries := by
  obtain ⟨count, stop, result, calls, told, runs⟩ := referenceOfFiles indexed stored range
  obtain ⟨next, followed, scanned⟩ := runs consumer takes state
  rw [scanned]
  refine ⟨stop, told.ending, fun earlier less => ?_⟩
  exact (allowedOfGoesOn (told.goesOn earlier (told.visited ▸ less))).1

end Files

/-- Whatever bytes its files hold, a log answers every request, and a machine comes to the same
without leaving its words or the files. -/
theorem anyBytesHarmless (settings : LogSettings) (index data : Array UInt8)
    (indexFits : index.size ≤ maxSigned) (dataFits : data.size ≤ maxSigned) :
    let reader := LogReader.ofFiles settings (.file index) (.file data)
    (∀ values tree indexPath dataPath, settings.indexPath? = some indexPath →
      settings.dataPath? = some dataPath → tree.read indexPath = .ok index →
      tree.read dataPath = .ok data →
        LogReader.ofHost settings (Host.ofTree values) tree = (.ok reader, tree)) ∧
      (∀ position < reader.entries,
        (∃ record, reader.locate position = .ok record) ∨
          (∃ cause, reader.locate position = .error (.truncated position cause)) ∨
          ∃ cause, reader.locate position = .error (.undecodable position cause)) ∧
      (∀ (place : LogPlace) (requests : List LogRequest), place.Inside index data →
        ∃ last : LogPlace, last.Inside index data ∧
          Machine.answers settings index data place requests =
            .ok (requests.map reader.answer, last)) ∧
      (∃ coverage, reader.coverage.1 = .ok coverage) ∧
      ∀ (range : HeightRange) {κ : Type} (consumer : Consumer κ), consumer.Takes → ∀ state : κ,
        ∃ stop, (reader.scan consumer range state).1.ending = .stopped stop ∧
          ∀ earlier < (reader.scan consumer range state).1.progress.visited,
            range.start + earlier < reader.entries := by
  intro reader
  refine ⟨?_, fun position inside => ?_, ?_, coverageOk rfl rfl, ?_⟩
  · intro values tree indexPath dataPath indexNamed dataNamed indexRead dataRead
    exact openedOfHost indexNamed dataNamed indexRead dataRead
  · cases located : reader.locate position with
    | ok record => exact .inl ⟨record, rfl⟩
    | error cause =>
        rcases damageOfLocate rfl rfl inside located with ⟨reason, rfl⟩ | ⟨reason, rfl⟩
        · exact .inr (.inl ⟨reason, rfl⟩)
        · exact .inr (.inr ⟨reason, rfl⟩)
  · intro place requests inside
    exact Machine.answersOk settings indexFits dataFits requests inside
  · intro range κ consumer takes state
    exact scanOk rfl rfl range takes state

/-- An entry that points beyond all files and one that points to a length without a payload are both
truncated, also for a machine at the ends of the files. -/
theorem anyBytesHarmlessTruncated :
    let index : Array UInt8 :=
      #[0xff, 0xff, 0xff, 0xff, 0xff, 0xff, 0xff, 0xff, 0, 0, 0, 0, 0, 0, 0, 0]
    let data : Array UInt8 := #[0xff, 0x7f]
    let reader := LogReader.ofFiles .standard (.file index) (.file data)
    index.size ≤ maxSigned ∧ data.size ≤ maxSigned ∧ LogPlace.Inside ⟨16, 2⟩ index data ∧
      reader.entries = 2 ∧ (∃ coverage, reader.coverage.1 = .ok coverage) ∧
      (∃ stop, (reader.scan .observer (.single 0) []).1.ending = .stopped stop) ∧
      ∃ last : LogPlace, last.Inside index data ∧
        Machine.answers .standard index data ⟨16, 2⟩ [⟨0, none⟩, ⟨1, some (.single 0)⟩] =
          .ok ([.error (.truncated 0 (.startsPastEnd maxWord 2)),
            .error (.truncated 1 (.runsPastEnd 16383))], last) := by
  intro index data reader
  have indexFits : index.size ≤ maxSigned := by decide
  have dataFits : data.size ≤ maxSigned := by decide
  have inside : LogPlace.Inside ⟨16, 2⟩ index data := ⟨by decide, by decide⟩
  have takes : Consumer.observer.Takes := fun _ _ => rfl
  obtain ⟨_, _, answers, covered, scans⟩ :=
    anyBytesHarmless .standard index data indexFits dataFits
  obtain ⟨stop, ended, _⟩ := scans (.single 0) .observer takes []
  obtain ⟨last, within, answered⟩ := answers ⟨16, 2⟩ [⟨0, none⟩, ⟨1, some (.single 0)⟩] inside
  have told : [⟨0, none⟩, ⟨1, some (.single 0)⟩].map reader.answer =
      [.error (.truncated 0 (.startsPastEnd maxWord 2)),
        .error (.truncated 1 (.runsPastEnd 16383))] := by
    decide +kernel
  rw [told] at answered
  exact ⟨indexFits, dataFits, inside, by decide, covered, ⟨stop, ended⟩, last, within, answered⟩

end LogReader

end Backfill
