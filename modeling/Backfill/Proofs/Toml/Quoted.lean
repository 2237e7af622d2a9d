/-
This file shows that a text is read back from the value that it is written as, whatever characters
it has and whichever notation is chosen for it.
-/

import Backfill.Toml.Scalar
import Backfill.Toml.Text

namespace Backfill.Toml

variable {character mark quote first second : Char} {long : Bool} {row : Nat}
  {text rest tail : List Char}

section Characters

theorem eqOfCode {code : Nat} (same : character.toNat = code) : character = Char.ofNat code := by
  rw [← same, Char.ofNat_toNat]

/-- A character that needs no escape is plain, if it is no line feed. -/
theorem plainOfNeeds (free : needsCode character = false) (line : character ≠ '\n') :
    isPlain character = true := by
  simp only [needsCode, Bool.or_eq_false_iff, Bool.and_eq_false_iff, decide_eq_false_iff_not,
    ne_eq, decide_not, Bool.not_eq_eq_eq_not, Bool.not_false, decide_eq_true_eq] at free
  simp only [isPlain, Bool.or_eq_true, Bool.and_eq_true, decide_eq_true_eq]
  rcases free with ⟨(large | tab) | feed, delete⟩
  · exact .inr ⟨Nat.le_of_not_lt large, delete⟩
  · exact .inl tab
  · exact absurd feed line

/-- The code of a character of one byte stands for the character. -/
theorem codeOfSmall (small : character.toNat < 0x80) :
    ∃ a b c d, codeEscape character = ['\\', 'u', a, b, c, d] ∧
      codeChar? [a, b, c, d] = some character := by
  have codes : ∀ code < 0x80,
      let digit := fun place => (codeEscape (Char.ofNat code)).getD place '0'
      codeEscape (Char.ofNat code) = ['\\', 'u', digit 2, digit 3, digit 4, digit 5] ∧
        codeChar? [digit 2, digit 3, digit 4, digit 5] = some (Char.ofNat code) := by
    decide +kernel
  have written := codes character.toNat small
  rw [Char.ofNat_toNat] at written
  exact ⟨_, _, _, _, written⟩

/-- A character other than a quote is written as a short escape, as a code or as itself. -/
inductive Escaped (long : Bool) (character : Char) : List Char → Prop
  | short (mark : Char) (stands : shortEscape? mark = some character)
      (unit : mark ≠ 'u') (wide : mark ≠ 'U') (black : mark ∉ [' ', '\t', '\r', '\n']) :
      Escaped long character ['\\', mark]
  | code (a b c d : Char) (stands : codeChar? [a, b, c, d] = some character) :
      Escaped long character ['\\', 'u', a, b, c, d]
  | line (breaks : long = true) (feed : character = '\n') : Escaped long character ['\n']
  | plain (free : isPlain character = true) (backslash : character ≠ '\\')
      (feed : character ≠ '\n') : Escaped long character [character]

theorem escapedOfChar (long : Bool) (character : Char) :
    Escaped long character (escapeChar long character) := by
  have black {mark : Char} (listed : mark ∈ ['b', 't', 'n', 'f', 'r', '\\']) :
      mark ≠ 'u' ∧ mark ≠ 'U' ∧ mark ∉ [' ', '\t', '\r', '\n'] := by
    simp only [List.mem_cons, List.not_mem_nil, or_false] at listed
    rcases listed with rfl | rfl | rfl | rfl | rfl | rfl <;> decide
  have short {mark : Char} (listed : mark ∈ ['b', 't', 'n', 'f', 'r', '\\'])
      (stands : shortEscape? mark = some character) : Escaped long character ['\\', mark] :=
    .short mark stands (black listed).1 (black listed).2.1 (black listed).2.2
  unfold escapeChar
  split
  · rename_i backspace
    exact short (by decide) (by rw [eqOfCode backspace]; rfl)
  split
  · rename_i tab
    exact short (by decide) (by rw [tab]; rfl)
  split
  · rename_i feed
    cases long with
    | true => exact .line rfl feed
    | false => exact short (by decide) (by rw [feed]; rfl)
  split
  · rename_i page
    exact short (by decide) (by rw [eqOfCode page]; rfl)
  split
  · rename_i home
    exact short (by decide) (by rw [home]; rfl)
  split
  · rename_i backslash
    exact short (by decide) (by rw [backslash]; rfl)
  split
  · rename_i coded
    have small : character.toNat < 0x80 := by
      simp only [needsCode, Bool.or_eq_true, Bool.and_eq_true, decide_eq_true_eq] at coded
      omega
    obtain ⟨a, b, c, d, written, stands⟩ := codeOfSmall small
    rw [written]
    exact .code a b c d stands
  · rename_i _ feed _ _ backslash free
    exact .plain (plainOfNeeds (Bool.not_eq_true _ ▸ free) feed) backslash feed

/-- What an escaped character begins with. -/
theorem Escaped.head {written : List Char} (escaped : Escaped long character written) :
    ∃ more, written = '\\' :: more ∨
      written = character :: more ∧ (isPlain character = true ∨ character = '\n') := by
  cases escaped with
  | short mark => exact ⟨[mark], .inl rfl⟩
  | code a b c d => exact ⟨['u', a, b, c, d], .inl rfl⟩
  | line _ feed => exact ⟨[], .inr ⟨by rw [feed], .inr feed⟩⟩
  | plain free => exact ⟨[], .inr ⟨rfl, .inl free⟩⟩

/-- How many quotes may stand in a row. -/
def allowed (long : Bool) : Nat :=
  if long then 2 else 0

theorem escapeQuote (within : row + 1 ≤ allowed long) :
    escapeChars long row ('"' :: text) = '"' :: escapeChars long (row + 1) text := by
  rw [escapeChars, if_pos rfl]
  exact if_pos within

theorem escapeFurtherQuote (beyond : allowed long < row + 1) :
    escapeChars long row ('"' :: text) = '\\' :: '"' :: escapeChars long 0 text := by
  rw [escapeChars, if_pos rfl]
  exact if_neg (Nat.not_le.mpr beyond)

theorem escapeOther (other : character ≠ '"') :
    escapeChars long row (character :: text) =
      escapeChar long character ++ escapeChars long 0 text := by
  rw [escapeChars, if_neg other]

/-- What escaped characters begin with, unless it is a quote that may stand. -/
theorem headOfEscaped (text : List Char) (apart : ¬(character = '"' ∧ row + 1 ≤ allowed long)) :
    ∃ first more, escapeChars long row (character :: text) = first :: more ∧ first ≠ '"' ∧
      (first = '\\' ∨ first = character ∧ (isPlain character = true ∨ character = '\n')) := by
  by_cases isQuote : character = '"'
  · subst isQuote
    have beyond : allowed long < row + 1 := Nat.lt_of_not_le fun within => apart ⟨rfl, within⟩
    exact ⟨'\\', _, escapeFurtherQuote beyond, by decide, .inl rfl⟩
  · rw [escapeOther isQuote]
    obtain ⟨more, written | ⟨written, kind⟩⟩ := (escapedOfChar long character).head
    · exact ⟨'\\', more ++ escapeChars long 0 text, by rw [written]; rfl, by decide, .inl rfl⟩
    · exact ⟨character, more ++ escapeChars long 0 text, by rw [written]; rfl, isQuote,
        .inr ⟨rfl, kind⟩⟩

end Characters

section OneLine

theorem readBasicPlain (isQuote : character ≠ '"') (backslash : character ≠ '\\')
    (plain : isPlain character = true) :
    readBasic (character :: rest) = (readBasic rest).cons (some character) := by
  rw [readBasic.eq_def]
  split <;> simp_all

theorem readBasicShort (unit : mark ≠ 'u') (wide : mark ≠ 'U') :
    readBasic ('\\' :: mark :: rest) = (readBasic rest).cons (shortEscape? mark) := by
  rw [readBasic]
  · exact fun _ _ _ _ _ same => absurd same unit
  · exact fun _ _ _ _ _ _ _ _ _ same => absurd same wide

/-- A character other than a quote is read back between quotes. -/
theorem readBasicEscaped (isQuote : character ≠ '"') :
    readBasic (escapeChar false character ++ rest) = (readBasic rest).cons (some character) := by
  have escaped := escapedOfChar false character
  generalize escapeChar false character = written at escaped ⊢
  cases escaped with
  | short mark stands unit wide =>
      rw [List.cons_append, List.singleton_append, readBasicShort unit wide, stands]
  | code a b c d stands =>
      simp only [List.cons_append, List.nil_append]
      rw [readBasic, stands]
  | line breaks => cases breaks
  | plain free backslash feed =>
      rw [List.singleton_append, readBasicPlain isQuote backslash free]

/-- A text is read back from its escaped characters up to the closing quote. -/
theorem readBasicBody (row : Nat) (text rest : List Char) :
    readBasic (escapeChars false row text ++ '"' :: rest) = some (text, rest) := by
  induction text generalizing row with
  | nil => rfl
  | cons character tail inductionHypothesis =>
      by_cases isQuote : character = '"'
      · subst isQuote
        rw [escapeFurtherQuote (Nat.succ_pos row), List.cons_append, List.cons_append,
          readBasicShort (by decide) (by decide), inductionHypothesis]
        rfl
      · rw [escapeOther isQuote, List.append_assoc, readBasicEscaped isQuote, inductionHypothesis]
        rfl

/-- A text of plain characters without a single quote is read back up to one. -/
theorem readLiteralBody (plain : ∀ character ∈ text, isPlain character = true)
    (unquoted : '\'' ∉ text) (rest : List Char) :
    readLiteral (text ++ '\'' :: rest) = some (text, rest) := by
  induction text with
  | nil => rfl
  | cons character tail inductionHypothesis =>
      obtain ⟨here, later⟩ := List.forall_mem_cons.mp plain
      rw [List.mem_cons, not_or] at unquoted
      have read : readLiteral (character :: (tail ++ '\'' :: rest)) =
          (readLiteral (tail ++ '\'' :: rest)).cons (some character) := by
        rw [readLiteral.eq_def]
        split <;> simp_all
      rw [List.cons_append, read, inductionHypothesis later unquoted.2]
      rfl

end OneLine

section Closing

theorem closeNone (apart : rest.head? ≠ some quote) : closeLong quote rest = some ([], rest) := by
  unfold closeLong
  split <;> simp_all

theorem closeOne (apart : rest.head? ≠ some quote) :
    closeLong quote (quote :: rest) = some ([quote], rest) := by
  unfold closeLong
  split <;> simp_all

theorem closeTwo (quote : Char) (rest : List Char) :
    closeLong quote (quote :: quote :: rest) = some ([quote, quote], rest) := by
  unfold closeLong
  simp

/-- Characters that do not begin with two of a quote. -/
def Unpaired (quote : Char) (text : List Char) : Prop :=
  ∀ more, text ≠ quote :: quote :: more

theorem unpairedOfHead (other : first ≠ quote) : Unpaired quote (first :: text) := by
  intro more same
  exact other (List.cons.inj same).1

theorem unpairedOfSecond (other : second ≠ quote) : Unpaired quote (first :: second :: text) := by
  intro more same
  exact other (List.cons.inj (List.cons.inj same).2).1

end Closing

section SeveralLines

theorem readLongPlain (isQuote : character ≠ '"') (backslash : character ≠ '\\')
    (feed : character ≠ '\n') (plain : isPlain character = true) :
    readLongBasic false (character :: rest) =
      (readLongBasic false rest).cons (some character) := by
  have home : character ≠ '\r' := by
    rintro rfl
    exact absurd plain (by decide)
  rw [readLongBasic.eq_def]
  split <;> simp_all

theorem readLongLine :
    readLongBasic false ('\n' :: rest) = (readLongBasic false rest).cons (some '\n') := by
  rw [readLongBasic, if_neg Bool.false_ne_true]

/-- A quote that is followed by fewer than two others belongs to the text. -/
theorem readLongQuote (unpaired : Unpaired '"' rest) :
    readLongBasic false ('"' :: rest) = (readLongBasic false rest).cons (some '"') := by
  rw [readLongBasic]
  case x_2 => exact fun more _ same => unpaired more same
  all_goals simp [isPlain]

theorem readLongShort (unit : mark ≠ 'u') (wide : mark ≠ 'U')
    (black : mark ∉ [' ', '\t', '\r', '\n']) :
    readLongBasic false ('\\' :: mark :: rest) =
      (readLongBasic false rest).cons (shortEscape? mark) := by
  have stays : swallowsBreak (mark :: rest) = false := by
    simp only [List.mem_cons, List.not_mem_nil, or_false, not_or] at black
    obtain ⟨blank, tab, home, feed⟩ := black
    have gap : isGap mark = false := by simp [isGap, blank, tab]
    unfold swallowsBreak dropGaps
    rw [List.dropWhile_cons_of_neg (by simp [gap]), lineBreak?.eq_def]
    split <;> simp_all
  rw [readLongBasic, stays, if_neg Bool.false_ne_true]
  · exact fun _ _ _ _ _ same => absurd same unit
  · exact fun _ _ _ _ _ _ _ _ _ same => absurd same wide

/-- A character other than a quote is read back between three quotes. -/
theorem readLongEscaped (isQuote : character ≠ '"') :
    readLongBasic false (escapeChar true character ++ rest) =
      (readLongBasic false rest).cons (some character) := by
  have escaped := escapedOfChar true character
  generalize escapeChar true character = written at escaped ⊢
  cases escaped with
  | short mark stands unit wide black =>
      rw [List.cons_append, List.singleton_append, readLongShort unit wide black, stands]
  | code a b c d stands =>
      simp only [List.cons_append, List.nil_append]
      rw [readLongBasic, stands]
  | line _ feed => rw [List.singleton_append, readLongLine, feed]
  | plain free backslash feed =>
      rw [List.singleton_append, readLongPlain isQuote backslash feed free]

/-- What follows a quote that stands begins with two others only at the end of the text. -/
theorem endsOrUnpaired (positive : 0 < row) (text rest : List Char) :
    text = [] ∨ (text = ['"'] ∧ row + 1 ≤ allowed true) ∨
      Unpaired '"' (escapeChars true row text ++ '"' :: '"' :: '"' :: rest) := by
  cases text with
  | nil => exact .inl rfl
  | cons second tail =>
      refine .inr ?_
      by_cases again : second = '"' ∧ row + 1 ≤ allowed true
      · obtain ⟨rfl, room⟩ := again
        cases tail with
        | nil => exact .inl ⟨rfl, room⟩
        | cons third tail =>
            -- A third quote in a row is escaped, and anything else is no quote.
            have full : ¬(third = '"' ∧ row + 1 + 1 ≤ allowed true) := by
              simp only [allowed, if_true]
              omega
            obtain ⟨first, more, written, other, _⟩ := headOfEscaped tail full
            refine .inr ?_
            rw [escapeQuote room, written]
            exact unpairedOfSecond other
      · obtain ⟨first, more, written, other, _⟩ := headOfEscaped tail again
        refine .inr ?_
        rw [written]
        exact unpairedOfHead other

/-- A text is read back from its escaped characters up to three closing quotes, which are told from
quotes before them by what comes after. -/
theorem readLongBody (row : Nat) (text : List Char) (apart : rest.head? ≠ some '"') :
    readLongBasic false (escapeChars true row text ++ '"' :: '"' :: '"' :: rest) =
      some (text, rest) := by
  induction text generalizing row with
  | nil =>
      rw [escapeChars, List.nil_append, readLongBasic]
      exact closeNone apart
  | cons character tail inductionHypothesis =>
      by_cases isQuote : character = '"'
      · subst isQuote
        by_cases within : row + 1 ≤ allowed true
        · rcases endsOrUnpaired (Nat.succ_pos row) tail rest with rfl | ⟨rfl, room⟩ | unpaired
          · rw [escapeQuote within, escapeChars, List.singleton_append, readLongBasic]
            exact closeOne apart
          · rw [escapeQuote within, escapeQuote room, escapeChars, List.cons_append,
              List.singleton_append, readLongBasic]
            exact closeTwo '"' rest
          · rw [escapeQuote within, List.cons_append, readLongQuote unpaired, inductionHypothesis]
            rfl
        · rw [escapeFurtherQuote (Nat.lt_of_not_le within), List.cons_append, List.cons_append,
            readLongShort (by decide) (by decide) (by decide), inductionHypothesis]
          rfl
      · rw [escapeOther isQuote, List.append_assoc, readLongEscaped isQuote, inductionHypothesis]
        rfl

theorem readLongLiteralPlain (isQuote : character ≠ '\'')
    (kind : isPlain character = true ∨ character = '\n') :
    readLongLiteral (character :: rest) = (readLongLiteral rest).cons (some character) := by
  have home : character ≠ '\r' := by
    rintro rfl
    exact absurd kind (by decide)
  rw [readLongLiteral.eq_def]
  split <;> simp_all

theorem readLongLiteralQuote (unpaired : Unpaired '\'' rest) :
    readLongLiteral ('\'' :: rest) = (readLongLiteral rest).cons (some '\'') := by
  rw [readLongLiteral]
  case x_1 => exact fun more _ same => unpaired more same
  all_goals simp [isPlain]

/-- A text of plain characters and line feeds, without three single quotes in a row, is read back up
to three of them. -/
theorem readLongLiteralBody
    (plain : ∀ character ∈ text, isPlain character = true ∨ character = '\n') (runs : ¬['\'', '\'', '\''] <:+: text) (apart : rest.head? ≠ some '\'') :
    readLongLiteral (text ++ '\'' :: '\'' :: '\'' :: rest) = some (text, rest) := by
  induction text with
  | nil =>
      rw [List.nil_append, readLongLiteral]
      exact closeNone apart
  | cons character tail inductionHypothesis =>
      obtain ⟨here, later⟩ := List.forall_mem_cons.mp plain
      have others := inductionHypothesis later fun inside =>
        runs (inside.trans (List.suffix_cons character tail).isInfix)
      by_cases isQuote : character = '\''
      · subst isQuote
        have goOn (unpaired : Unpaired '\'' (tail ++ '\'' :: '\'' :: '\'' :: rest)) :
            readLongLiteral ('\'' :: tail ++ '\'' :: '\'' :: '\'' :: rest) =
              some ('\'' :: tail, rest) := by
          rw [List.cons_append, readLongLiteralQuote unpaired, others]
          rfl
        cases tail with
        | nil =>
            rw [List.singleton_append, readLongLiteral]
            exact closeOne apart
        | cons second tail =>
            by_cases again : second = '\''
            · subst again
              cases tail with
              | nil =>
                  rw [List.cons_append, List.singleton_append, readLongLiteral]
                  exact closeTwo '\'' rest
              | cons third tail =>
                  refine goOn (unpairedOfSecond ?_)
                  rintro rfl
                  exact runs ⟨[], tail, rfl⟩
            · exact goOn (unpairedOfHead again)
      · rw [List.cons_append, readLongLiteralPlain isQuote here, others]
        rfl

end SeveralLines

section Notations

/-- The run and the longest run of a character behind some characters. -/
def runStep (mark : Char) (runs : Nat × Nat) (character : Char) : Nat × Nat :=
  if character = mark then (runs.1 + 1, max runs.2 (runs.1 + 1)) else (0, runs.2)

theorem longestRunEq (mark : Char) (text : List Char) :
    longestRun mark text = (text.foldl (runStep mark) (0, 0)).2 :=
  rfl

theorem longestGrows (mark : Char) (text : List Char) (runs : Nat × Nat) :
    runs.2 ≤ (text.foldl (runStep mark) runs).2 := by
  induction text generalizing runs with
  | nil => exact Nat.le_refl _
  | cons character rest inductionHypothesis =>
      refine Nat.le_trans ?_ (inductionHypothesis _)
      unfold runStep
      split
      · exact Nat.le_max_left _ _
      · exact Nat.le_refl _

/-- A run is no longer than the longest one. -/
theorem runLe {count : Nat} (inside : List.replicate count mark <:+: text) :
    count ≤ longestRun mark text := by
  have run (count : Nat) (runs : Nat × Nat) :
      runs.1 + count ≤ ((List.replicate count mark).foldl (runStep mark) runs).2 ∨ count = 0 := by
    induction count generalizing runs with
    | zero => exact .inr rfl
    | succ count inductionHypothesis =>
        rw [List.replicate_succ, List.foldl_cons]
        have grows := longestGrows mark (List.replicate count mark) (runStep mark runs mark)
        have longer := inductionHypothesis (runStep mark runs mark)
        simp only [runStep, if_true] at grows longer ⊢
        omega
  obtain ⟨before, after, rfl⟩ := inside
  rw [longestRunEq, List.foldl_append, List.foldl_append]
  have grows := longestGrows mark after
    ((List.replicate count mark).foldl (runStep mark) (before.foldl (runStep mark) (0, 0)))
  have longer := run count (before.foldl (runStep mark) (0, 0))
  omega

theorem literalNeeds {needs : Needs} (chosen : needs.quoting = .literal) :
    needs.codes = false ∧ needs.singleQuotes = 0 ∧ needs.lines = false := by
  unfold Needs.quoting at chosen
  split at chosen <;> simp_all
  grind

theorem longLiteralNeeds {needs : Needs} (chosen : needs.quoting = .longLiteral) :
    needs.codes = false ∧ needs.singleQuotes ≤ 2 := by
  unfold Needs.quoting at chosen
  split at chosen <;> simp_all
  grind

/-- A text that needs no escape has plain characters and line feeds. -/
theorem plainOrLine (free : (Needs.of text).codes = false) :
    ∀ character ∈ text, isPlain character = true ∨ character = '\n' := by
  intro character listed
  by_cases feed : character = '\n'
  · exact .inr feed
  · have uncoded : needsCode character = false :=
      Bool.eq_false_iff.mpr (List.any_eq_false.mp free character listed)
    exact .inl (plainOfNeeds uncoded feed)

theorem noLine (single : (Needs.of text).lines = false) : '\n' ∉ text := by
  intro listed
  have several : (Needs.of text).lines = true := List.contains_iff_mem.mpr listed
  exact absurd (several.symm.trans single) (by decide)

theorem noSingle (none : (Needs.of text).singleQuotes = 0) : '\'' ∉ text := by
  intro listed
  obtain ⟨before, after, rfl⟩ := List.append_of_mem listed
  have run : 1 ≤ longestRun '\'' (before ++ '\'' :: after) :=
    runLe ⟨before, after, by rw [List.append_assoc]; rfl⟩
  exact absurd none (Nat.ne_of_gt run)

theorem noTriple (few : (Needs.of text).singleQuotes ≤ 2) :
    ¬['\'', '\'', '\''] <:+: text := by
  intro inside
  have run : 3 ≤ longestRun '\'' text := runLe inside
  exact absurd (Nat.le_trans run few) (by decide)

end Notations

section Values

/-- Characters that do not begin with a line break. -/
def Opens (text : List Char) : Prop :=
  text.head? ≠ some '\n' ∧ text.head? ≠ some '\r'

theorem dropBreakKeeps (opens : Opens text) : dropBreak text = text := by
  obtain ⟨feed, home⟩ := opens
  unfold dropBreak lineBreak?
  split <;> simp_all

theorem opensOf (feed : first ≠ '\n') (home : first ≠ '\r') : Opens (first :: text) :=
  ⟨by simpa using feed, by simpa using home⟩

theorem opensOfPlain (plain : isPlain first = true) : Opens (first :: text) := by
  refine opensOf ?_ ?_ <;> rintro rfl <;> exact absurd plain (by decide)

/-- The break after the opening mark is all that is dropped. -/
theorem dropBreakOpening {lines : Bool} (opens : lines = false → Opens text) :
    dropBreak ((if lines then ['\n'] else []) ++ text) = text := by
  cases lines with
  | true => rfl
  | false => exact dropBreakKeeps (opens rfl)

theorem opensLongBasic (single : '\n' ∉ text) :
    Opens (escapeChars true 0 text ++ '"' :: rest) := by
  cases text with
  | nil => exact opensOf (by decide) (by decide)
  | cons character tail =>
      by_cases isQuote : character = '"' ∧ 0 + 1 ≤ allowed true
      · obtain ⟨rfl, within⟩ := isQuote
        rw [escapeQuote within]
        exact opensOf (by decide) (by decide)
      · obtain ⟨first, more, written, _, kind⟩ := headOfEscaped tail isQuote
        rw [written]
        rcases kind with rfl | ⟨rfl, plain | rfl⟩
        · exact opensOf (by decide) (by decide)
        · exact opensOfPlain plain
        · exact absurd List.mem_cons_self single

theorem opensLongLiteral (plain : ∀ character ∈ text, isPlain character = true ∨ character = '\n')
    (single : '\n' ∉ text) : Opens (text ++ '\'' :: rest) := by
  cases text with
  | nil => exact opensOf (by decide) (by decide)
  | cons character tail =>
      rcases plain character List.mem_cons_self with plain | rfl
      · exact opensOfPlain plain
      · exact absurd List.mem_cons_self single

/-- Characters after which a text has ended, whichever its notation is. -/
def Ended (rest : List Char) : Prop :=
  rest.head? ≠ some '"' ∧ rest.head? ≠ some '\''

theorem unpairedOfClosing (apart : rest.head? ≠ some quote) : Unpaired quote (quote :: rest) := by
  intro more same
  rw [(List.cons.inj same).2] at apart
  exact apart rfl

theorem readTextBasic (unpaired : Unpaired '"' text) :
    readText? ('"' :: text) = some (readBasic text) := by
  rw [readText?]
  exact fun more same => unpaired more same

theorem readTextLiteral (unpaired : Unpaired '\'' text) :
    readText? ('\'' :: text) = some (readLiteral text) := by
  rw [readText?]
  exact fun more same => unpaired more same

theorem quotedCharacters (text : String) (rest : List Char) :
    let needs := Needs.of text.toList
    let mark := needs.quoting.mark.toList
    (quoted text).toList ++ rest =
      mark ++ ((if needs.quoting.isLong && needs.lines then ['\n'] else []) ++
        (needs.quoting.body text.toList ++ (mark ++ rest))) := by
  simp only [quoted, String.toList_append, String.toList_ofList, List.append_assoc]
  split <;> rfl

/-- A text is read back from the value that it is written as. -/
theorem readTextQuoted (text : String) (ended : Ended rest) :
    readText? ((quoted text).toList ++ rest) = some (some (text.toList, rest)) := by
  rw [quotedCharacters]
  generalize text.toList = text
  cases chosen : (Needs.of text).quoting with
  | basic =>
      have unpaired : Unpaired '"' (escapeChars false 0 text ++ '"' :: rest) := by
        cases text with
        | nil => exact unpairedOfClosing ended.1
        | cons character tail =>
            have apart : ¬(character = '"' ∧ 0 + 1 ≤ allowed false) := fun within =>
              absurd within.2 (by decide)
            obtain ⟨first, more, written, other, _⟩ := headOfEscaped tail apart
            rw [written]
            exact unpairedOfHead other
      exact (readTextBasic unpaired).trans (congrArg some (readBasicBody 0 text rest))
  | literal =>
      obtain ⟨codes, singles, lines⟩ := literalNeeds chosen
      have unquoted := noSingle singles
      have plain : ∀ character ∈ text, isPlain character = true := fun character listed =>
        (plainOrLine codes character listed).resolve_right fun feed =>
          noLine lines (feed ▸ listed)
      have unpaired : Unpaired '\'' (text ++ '\'' :: rest) := by
        cases text with
        | nil => exact unpairedOfClosing ended.2
        | cons character tail =>
            exact unpairedOfHead fun same => unquoted (same ▸ List.mem_cons_self)
      exact (readTextLiteral unpaired).trans (congrArg some (readLiteralBody plain unquoted rest))
  | longBasic =>
      have opens (single : (Needs.of text).lines = false) :
          Opens (escapeChars true 0 text ++ '"' :: '"' :: '"' :: rest) :=
        opensLongBasic (noLine single)
      refine congrArg some (Eq.trans (congrArg (readLongBasic false) ?_)
        (readLongBody 0 text ended.1))
      exact dropBreakOpening opens
  | longLiteral =>
      obtain ⟨codes, singles⟩ := longLiteralNeeds chosen
      have plain := plainOrLine codes
      have opens (single : (Needs.of text).lines = false) :
          Opens (text ++ '\'' :: '\'' :: '\'' :: rest) :=
        opensLongLiteral plain (noLine single)
      refine congrArg some (Eq.trans (congrArg readLongLiteral ?_)
        (readLongLiteralBody plain (noTriple singles) ended.2))
      exact dropBreakOpening opens

end Values

end Backfill.Toml
