/-
This file shows that a listing of heights becomes the ranges that hold exactly the heights of its
lines, and that a listing with an irregular line is refused with the number of the first such line.
-/

import Backfill.Height.Listing
import Backfill.Proofs.Height.Complement
import Backfill.Proofs.Text.Decimal
import Backfill.Proofs.Text.Utf8

namespace Backfill.Listing

section Lines

variable {line : List Char} {lines before after : List (List Char)} {number height : Nat}

/-- A line names nothing if it is blank or a comment. -/
def IsPassed (line : List Char) : Prop :=
  Text.trimChars line = [] ∨ ∃ comment, Text.trimChars line = '#' :: comment

/-- A line names a height if it holds a numeral of it between blanks, and a word holds the height. -/
def Names (line : List Char) (height : Nat) : Prop :=
  Text.Numeral (Text.trimChars line) height ∧ height < Nat.pow 2 64

/-- A line is regular if it names a height or nothing. -/
def IsRegular (line : List Char) : Prop :=
  IsPassed line ∨ ∃ height, Names line height

theorem namesIff :
    Names line height ↔ Text.readNat maxWord (Text.trimChars line) = .ok height := by
  have word : height ≤ maxWord ↔ height < Nat.pow 2 64 :=
    Nat.le_sub_one_iff_lt (Nat.pow_pos (by decide))
  rw [Text.readNatIff, Names, word]

/-- A numeral does not look like a comment. -/
theorem notNamesComment {comment : List Char} (marked : Text.trimChars line = '#' :: comment) :
    ¬Names line height := by
  have digit : ¬Text.IsDigit '#' := fun digit => absurd digit.1 (by decide)
  rintro ⟨⟨digits, same | same, _, each, _⟩, _⟩
  · exact digit (each '#' (same ▸ marked ▸ List.mem_cons_self))
  · exact absurd (marked.symm.trans same) (by simp)

theorem notNamesBlank (blank : Text.trimChars line = []) : ¬Names line height := by
  rw [namesIff, blank]
  exact nofun

theorem readPassed (number : Nat) (passed : IsPassed line) : readLine number line = .ok none := by
  unfold readLine
  rcases passed with blank | ⟨comment, marked⟩
  · rw [blank]
  · rw [marked]
    rfl

theorem notNamesPassed (passed : IsPassed line) : ¬Names line height := by
  rcases passed with blank | ⟨comment, marked⟩
  · exact notNamesBlank blank
  · exact notNamesComment marked

/-- What is read of a line that is neither blank nor a comment. -/
theorem readOther (number : Nat) (other : ¬IsPassed line) :
    readLine number line =
      match Text.readNat maxWord (Text.trimChars line) with
      | .ok height => .ok (some height)
      | .error cause => .error (.badLine number (String.ofList (Text.trimChars line)) cause) := by
  unfold readLine
  split
  · rename_i blank
    exact absurd (.inl blank) other
  · rename_i comment marked
    exact absurd (.inr ⟨comment, marked⟩) other
  · rfl

theorem readNamed (number : Nat) (names : Names line height) :
    readLine number line = .ok (some height) := by
  rw [readOther number fun passed => notNamesPassed passed names, namesIff.mp names]

/-- An irregular line is refused with its number and with why it is no numeral. -/
theorem readIrregular (number : Nat) (irregular : ¬IsRegular line) :
    ∃ cause, Text.readNat maxWord (Text.trimChars line) = .error cause ∧
      readLine number line =
        .error (.badLine number (String.ofList (Text.trimChars line)) cause) := by
  rw [readOther number fun passed => irregular (.inl passed)]
  cases read : Text.readNat maxWord (Text.trimChars line) with
  | ok height => exact absurd (.inr ⟨height, namesIff.mpr read⟩) irregular
  | error cause => exact ⟨cause, rfl, rfl⟩

/-- A regular line gives the height that it names, if it names one. -/
theorem readRegular (number : Nat) (regular : IsRegular line) :
    ∃ found, readLine number line = .ok found ∧
      ∀ height, height ∈ found.toList ↔ Names line height := by
  rcases regular with passed | ⟨named, names⟩
  · exact ⟨none, readPassed number passed, fun height =>
      ⟨nofun, fun names => absurd names (notNamesPassed passed)⟩⟩
  · refine ⟨some named, readNamed number names, fun height => ?_⟩
    rw [Option.toList_some, List.mem_singleton]
    constructor
    · rintro rfl
      exact names
    · intro other
      have same := (namesIff.mp other).symm.trans (namesIff.mp names)
      exact Except.ok.inj same

/-- Regular lines give the heights that they name. -/
theorem readLinesRegular (regular : ∀ line ∈ lines, IsRegular line) :
    ∃ found, readLines number lines = .ok found ∧
      ∀ height, height ∈ found ↔ ∃ line ∈ lines, Names line height := by
  induction lines generalizing number with
  | nil => exact ⟨[], rfl, by simp⟩
  | cons line rest inductionHypothesis =>
      obtain ⟨first, others⟩ := List.forall_mem_cons.mp regular
      obtain ⟨here, readHere, namedHere⟩ := readRegular number first
      obtain ⟨later, readLater, namedLater⟩ := @inductionHypothesis (number + 1) others
      refine ⟨here.toList ++ later, ?_, fun height => ?_⟩
      · rw [readLines, readHere]
        change (readLines (number + 1) rest >>= _) = _
        rw [readLater]
        rfl
      · rw [List.mem_append, namedHere, namedLater, List.exists_mem_cons_iff]

/-- The first irregular line decides, whatever comes after it. -/
theorem readLinesIrregular (regular : ∀ line ∈ before, IsRegular line)
    (irregular : ¬IsRegular line) :
    ∃ cause, Text.readNat maxWord (Text.trimChars line) = .error cause ∧
      readLines number (before ++ line :: after) = .error
        (.badLine (number + before.length) (String.ofList (Text.trimChars line)) cause) := by
  induction before generalizing number with
  | nil =>
      obtain ⟨cause, unread, refused⟩ := readIrregular number irregular
      refine ⟨cause, unread, ?_⟩
      rw [List.nil_append, readLines, refused]
      rfl
  | cons first rest inductionHypothesis =>
      obtain ⟨here, others⟩ := List.forall_mem_cons.mp regular
      obtain ⟨found, readHere, _⟩ := readRegular number here
      obtain ⟨cause, unread, refused⟩ := @inductionHypothesis (number + 1) others
      refine ⟨cause, unread, ?_⟩
      rw [List.cons_append, readLines, readHere]
      change (readLines (number + 1) _ >>= _) = _
      rw [refused, List.length_cons, Nat.add_right_comm, Nat.add_assoc]
      rfl

/-- Some line is the first of the irregular ones. -/
theorem firstIrregular (some : ∃ line ∈ lines, ¬IsRegular line) :
    ∃ before line after, lines = before ++ line :: after ∧
      (∀ line ∈ before, IsRegular line) ∧ ¬IsRegular line := by
  induction lines with
  | nil => simp at some
  | cons first rest inductionHypothesis =>
      by_cases regular : IsRegular first
      · have later : ∃ line ∈ rest, ¬IsRegular line := by
          rcases (List.exists_mem_cons_iff _ _ _).mp some with irregular | later
          · exact absurd regular irregular
          · exact later
        obtain ⟨before, line, after, rfl, each, irregular⟩ := inductionHypothesis later
        exact ⟨first :: before, line, after, rfl, List.forall_mem_cons.mpr ⟨regular, each⟩,
          irregular⟩
      · exact ⟨[], first, rest, rfl, nofun, regular⟩

end Lines

/-- The ranges of a listing whose text is read. -/
theorem rangesOfText (text : String) :
    ranges (.ok (Text.Utf8.encode text)) =
      match heights text.toList with
      | .error fault => .error fault
      | .ok [] => .error .noHeights
      | .ok (height :: rest) => .ok (collapse (height :: rest)) := by
  have read := Text.Utf8.textEncode text
  rw [Text.Utf8.text?, Option.map_eq_some_iff] at read
  obtain ⟨characters, decoded, same⟩ := read
  obtain rfl : characters = text.toList := by
    rw [← same, String.toList_ofList]
  unfold ranges
  simp only [Except.mapError, bind, Except.bind, decoded]
  cases heights text.toList with
  | error fault => rfl
  | ok listed => cases listed <;> rfl

section Texts

variable {text : String}

theorem rangesOfHeights {listed : List Nat} (read : heights text.toList = .ok listed)
    (some : listed ≠ []) : ranges (.ok (Text.Utf8.encode text)) = .ok (collapse listed) := by
  rw [rangesOfText, read]
  cases listed with
  | nil => exact absurd rfl some
  | cons height rest => rfl

theorem rangesOfNone (read : heights text.toList = .ok []) :
    ranges (.ok (Text.Utf8.encode text)) = .error .noHeights := by
  rw [rangesOfText, read]

theorem rangesOfFault {fault : ListingFault} (read : heights text.toList = .error fault) :
    ranges (.ok (Text.Utf8.encode text)) = .error fault := by
  rw [rangesOfText, read]

/-- Ranges are collapsed from the heights of regular lines only. -/
theorem regularOfRanges {found : List HeightRange}
    (loaded : ranges (.ok (Text.Utf8.encode text)) = .ok found) :
    ∃ listed, listed ≠ [] ∧ found = collapse listed ∧
      (∀ line ∈ Text.lines text.toList, IsRegular line) ∧
      ∀ height, height ∈ listed ↔ ∃ line ∈ Text.lines text.toList, Names line height := by
  by_cases regular : ∀ line ∈ Text.lines text.toList, IsRegular line
  · obtain ⟨listed, read, named⟩ := @readLinesRegular _ 1 regular
    rw [← heights] at read
    cases listed with
    | nil =>
        rw [rangesOfNone read] at loaded
        cases loaded
    | cons height rest =>
        rw [rangesOfHeights read (List.cons_ne_nil _ _)] at loaded
        cases loaded
        exact ⟨height :: rest, List.cons_ne_nil _ _, rfl, regular, named⟩
  · obtain ⟨before, line, after, cut, each, irregular⟩ := firstIrregular (by simpa using regular)
    obtain ⟨cause, _, refused⟩ := @readLinesIrregular line before after 1 each irregular
    rw [← cut, ← heights] at refused
    rw [rangesOfFault refused] at loaded
    cases loaded

/-- Regular lines become the ranges of the heights that they name, whichever list of these heights
is collapsed. -/
theorem rangesOfRegular {listed : List Nat} (some : listed ≠ [])
    (regular : ∀ line ∈ Text.lines text.toList, IsRegular line)
    (named : ∀ height, height ∈ listed ↔ ∃ line ∈ Text.lines text.toList, Names line height) :
    ranges (.ok (Text.Utf8.encode text)) = .ok (collapse listed) := by
  obtain ⟨found, read, foundNamed⟩ := @readLinesRegular _ 1 regular
  have alike : ∀ height, height ∈ found ↔ height ∈ listed := fun height =>
    (foundNamed height).trans (named height).symm
  have filled : found ≠ [] := by
    rintro rfl
    exact some (List.eq_nil_iff_forall_not_mem.mpr fun height member =>
      List.not_mem_nil ((alike height).mpr member))
  rw [rangesOfHeights read filled, collapse, collapse, sortedHeightsCongr alike]

end Texts

/-- Separated ranges are collapsed from their heights. -/
theorem collapseOfSeparated {ranges : List HeightRange} (separated : Separated ranges) :
    collapse (ranges.flatMap HeightRange.heights) = ranges :=
  separatedUnique (separatedCollapse _) separated fun height => by
    rw [coversCollapse, memFlatHeights]

/-- A listing of which every line is blank, a comment or a numeral becomes the only separated ranges
that hold the listed heights. -/
theorem listingNamesRanges (path text : String) :
    let lines := Text.lines text.toList
    let listed := fun height => ∃ line ∈ lines, Names line height
    let outcome := (ranges (.ok (Text.Utf8.encode text))).mapError (ListingFault.toConfigError path)
    ((∃ found, outcome = .ok found) ↔
      (∀ line ∈ lines, IsRegular line) ∧ ∃ height, listed height) ∧
    (∀ found, outcome = .ok found →
      (found.Pairwise fun first second =>
        ∃ height, ¬listed height ∧ first.stop < height ∧ height < second.start) ∧
      (∀ height, Covers found height ↔ listed height) ∧
      collapse (found.flatMap HeightRange.heights) = found ∧
      (∀ others, Separated others → (∀ height, Covers others height ↔ listed height) →
        others = found) ∧
      ∀ other : String, (∀ line, line ∈ Text.lines other.toList ↔ line ∈ lines) →
        ranges (.ok (Text.Utf8.encode other)) = .ok found) ∧
    ((∃ line ∈ lines, ¬IsRegular line) →
      ∃ before line after cause, lines = before ++ line :: after ∧
        (∀ line ∈ before, IsRegular line) ∧ ¬IsRegular line ∧
        Text.readNat maxWord (Text.trimChars line) = .error cause ∧
        let shown := Text.quote (String.ofList (Text.trimChars line))
        outcome = .error (.validation
          s!"heights file line {before.length + 1}: {shown} is not a height ({cause.message})")) ∧
    ((∀ line ∈ lines, IsRegular line) → (∀ height, ¬listed height) →
      outcome = .error (.validation s!"heights file {path} contains no heights")) := by
  intro lines listed outcome
  have loaded {found : List HeightRange} (succeeded : outcome = .ok found) :
      ranges (.ok (Text.Utf8.encode text)) = .ok found := by
    cases result : ranges (.ok (Text.Utf8.encode text)) with
    | error fault => simp [outcome, result, Except.mapError] at succeeded
    | ok others => simpa [outcome, result, Except.mapError] using succeeded
  refine ⟨⟨?_, ?_⟩, fun found succeeded => ?_, fun irregular => ?_, fun regular none => ?_⟩
  · rintro ⟨found, succeeded⟩
    obtain ⟨heights, some, _, regular, named⟩ := regularOfRanges (loaded succeeded)
    obtain ⟨height, member⟩ := List.exists_mem_of_ne_nil heights some
    exact ⟨regular, height, (named height).mp member⟩
  · rintro ⟨regular, height, listedHere⟩
    obtain ⟨found, read, named⟩ := @readLinesRegular lines 1 regular
    have some : found ≠ [] := List.ne_nil_of_mem ((named height).mpr listedHere)
    exact ⟨collapse found, by simp only [outcome, rangesOfHeights read some, Except.mapError]⟩
  · obtain ⟨heights, some, rfl, regular, named⟩ := regularOfRanges (loaded succeeded)
    have separated := separatedCollapse heights
    have covers : ∀ height, Covers (collapse heights) height ↔ listed height := fun height =>
      (coversCollapse heights height).trans (named height)
    refine ⟨separated.imp_of_mem fun {first second} member _ apart => ?_, covers,
      collapseOfSeparated separated, fun others apart same => ?_, fun other same => ?_⟩
    · refine ⟨first.stop + 1, fun present => ?_, Nat.lt_succ_self _, apart⟩
      exact notCoversBehind separated member ((covers _).mpr present)
    · exact separatedUnique apart separated fun height => (same height).trans (covers height).symm
    · refine rangesOfRegular some (fun line member => regular line ((same line).mp member)) ?_
      intro height
      simp only [named, same, lines]
  · obtain ⟨before, line, after, cut, each, irregular⟩ := firstIrregular irregular
    obtain ⟨cause, unread, refused⟩ := @readLinesIrregular line before after 1 each irregular
    rw [← cut, Nat.add_comm] at refused
    refine ⟨before, line, after, cause, cut, each, irregular, unread, ?_⟩
    simp only [outcome, rangesOfFault refused, Except.mapError, ListingFault.toConfigError]
  · obtain ⟨found, read, named⟩ := @readLinesRegular lines 1 regular
    obtain rfl : found = [] := List.eq_nil_iff_forall_not_mem.mpr fun height member =>
      none height ((named height).mp member)
    simp only [outcome, rangesOfNone read, Except.mapError, ListingFault.toConfigError]

end Backfill.Listing
