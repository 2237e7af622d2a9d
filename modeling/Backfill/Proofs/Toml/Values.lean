/-
This file shows that a natural number that fits a signed word, a text and a truth value are read
back at the end of a line.
-/

import Backfill.Proofs.Json.Tokens
import Backfill.Proofs.Toml.Quoted
import Backfill.Toml.Reader

namespace Backfill.Toml

open Json (DigitsOf digitsOfNat natOfDigits)

variable {digits : List Nat} {rest text after : List Char} {number value count fuel depth : Nat}
  {mark : Char}

section Digits

/-- Decimal digits before a line break. -/
structure DigitLine (digits : List Nat) (text : List Char) : Prop where
  small : ∀ digit ∈ digits, digit < 10
  written : ∃ rest, text = digits.map Nat.digitChar ++ '\n' :: rest

/-- What a digit is as a character. -/
theorem digitFacts {digit : Nat} (small : digit < 10) :
    digitBelow 10 (Nat.digitChar digit) = some digit ∧ isDigit (Nat.digitChar digit) = true := by
  have facts : ∀ digit < 10, digitBelow 10 (Nat.digitChar digit) = some digit ∧
      isDigit (Nat.digitChar digit) = true := by
    decide
  exact facts digit small

/-- A digit is no other character. -/
theorem digitApart {digit : Nat} (small : digit < 10) (other : isDigit mark = false) :
    Nat.digitChar digit ≠ mark := by
  rintro rfl
  exact absurd ((digitFacts small).2.symm.trans other) (by decide)

/-- What is left of digits after some of them is again digits before a line break. -/
theorem readFixedLine (line : DigitLine digits text)
    (read : readFixed count value text = some (number, after)) :
    ∃ digits, DigitLine digits after := by
  induction count generalizing value digits text with
  | zero =>
      obtain ⟨_, rfl⟩ := Prod.mk.inj (Option.some.inj read)
      exact ⟨digits, line⟩
  | succ count inductionHypothesis =>
      obtain ⟨rest, rfl⟩ := line.written
      cases digits with
      | nil => cases read
      | cons digit others =>
          obtain ⟨first, small⟩ := List.forall_mem_cons.mp line.small
          rw [List.map_cons, List.cons_append, readFixed, if_pos (digitFacts first).2] at read
          exact inductionHypothesis ⟨small, rest, rfl⟩ read

/-- No mark of a date or a time follows digits. -/
theorem expectNone (mark : Char) (line : DigitLine digits text) (other : isDigit mark = false)
    (feed : mark ≠ '\n') : expect mark text = none := by
  obtain ⟨rest, rfl⟩ := line.written
  cases digits with
  | nil => exact if_neg feed.symm
  | cons digit others =>
      exact if_neg (digitApart (line.small digit List.mem_cons_self) other)

/-- Digits are neither a date nor a time. -/
theorem readMomentNone (line : DigitLine digits text) : readMoment text = none := by
  have date : readDate text = none := by
    unfold readDate
    cases read : readFixed 4 0 text with
    | none => rfl
    | some year =>
        obtain ⟨_, next⟩ := readFixedLine line read
        simp only [Option.bind_eq_bind, Option.bind_some, Option.bind_none,
          expectNone '-' next (by decide) (by decide)]
  have time : readTime text = none := by
    unfold readTime
    cases read : readFixed 2 0 text with
    | none => rfl
    | some hour =>
        obtain ⟨_, next⟩ := readFixedLine line read
        simp only [Option.bind_eq_bind, Option.bind_some, Option.bind_none,
          expectNone ':' next (by decide) (by decide)]
  rw [readMoment, date]
  exact time

theorem readMoreDigitsLine (small : ∀ digit ∈ digits, digit < 10) :
    readMoreDigits (digitBelow 10) (digits.map Nat.digitChar ++ '\n' :: rest) =
      (digits, '\n' :: rest) := by
  induction digits with
  | nil => rfl
  | cons digit others inductionHypothesis =>
      obtain ⟨first, later⟩ := List.forall_mem_cons.mp small
      rw [List.map_cons, List.cons_append, readMoreDigits, (digitFacts first).1]
      · dsimp only
        rw [inductionHypothesis later]
      · exact fun _ _ underscore => absurd underscore (digitApart first (by decide))

/-- The digits of a number are read up to the end of the line. -/
theorem readWholeLine (writes : DigitsOf digits number) :
    readWhole (digits.map Nat.digitChar ++ '\n' :: rest) = some (digits, '\n' :: rest) := by
  obtain ⟨first, others, rfl⟩ := List.exists_cons_of_ne_nil writes.nonempty
  obtain ⟨small, later⟩ := List.forall_mem_cons.mp writes.small
  by_cases zero : first = 0
  · subst zero
    obtain ⟨_, rfl⟩ := List.cons.inj (writes.lead rfl)
    rfl
  · have lead : ∀ digit < 10, digit ≠ 0 → Nat.digitChar digit ≠ '0' := by decide
    rw [List.map_cons, List.cons_append, readWhole]
    · rw [readRun, (digitFacts small).1]
      simp only [Option.bind_eq_bind, Option.bind_some, readMoreDigitsLine later]
      rfl
    · exact fun _ same => absurd (List.cons.inj same).1 (lead first small zero)

end Digits

section Numbers

/-- The text of a number has its digits. -/
theorem naturalCharacters (writes : DigitsOf digits number) :
    (toString number).toList = digits.map Nat.digitChar := by
  rw [Nat.toString_eq_ofList_toDigits, String.toList_ofList, writes.written]

theorem readSignLine (writes : DigitsOf digits number) :
    readSign (digits.map Nat.digitChar ++ rest) = (false, digits.map Nat.digitChar ++ rest) := by
  obtain ⟨first, others, rfl⟩ := List.exists_cons_of_ne_nil writes.nonempty
  have small := writes.small first List.mem_cons_self
  rw [List.map_cons, List.cons_append, readSign]
  · exact fun _ same => absurd (List.cons.inj same).1 (digitApart small (by decide))
  · exact fun _ same => absurd (List.cons.inj same).1 (digitApart small (by decide))

/-- A whole number has neither a point nor an exponent. -/
theorem readFloatNone (writes : DigitsOf digits number) :
    readFloat (digits.map Nat.digitChar ++ '\n' :: rest) = none := by
  unfold readFloat
  rw [readSignLine writes]
  dsimp only
  rw [readWholeLine writes]
  rfl

theorem readNamedNone (writes : DigitsOf digits number) :
    readNamed (digits.map Nat.digitChar ++ rest) = none := by
  unfold readNamed
  rw [readSignLine writes]
  obtain ⟨first, others, rfl⟩ := List.exists_cons_of_ne_nil writes.nonempty
  have small := writes.small first List.mem_cons_self
  dsimp only
  split
  · rename_i same
    exact absurd (List.cons.inj same).1 (digitApart small (by decide))
  · rename_i same
    exact absurd (List.cons.inj same).1 (digitApart small (by decide))
  · rfl

/-- No letter of a base follows the first digit of a number. -/
theorem secondCharacter {first : Char} (writes : DigitsOf digits number)
    (same : digits.map Nat.digitChar ++ '\n' :: rest = first :: mark :: after) :
    isDigit mark = true ∨ mark = '\n' := by
  obtain ⟨_, others, rfl⟩ := List.exists_cons_of_ne_nil writes.nonempty
  cases others with
  | nil => exact .inr (List.cons.inj (List.cons.inj same).2).1.symm
  | cons second others =>
      have small := writes.small second (List.mem_cons_of_mem _ List.mem_cons_self)
      exact .inl ((List.cons.inj (List.cons.inj same).2).1 ▸ (digitFacts small).2)

theorem readIntegerLine (writes : DigitsOf digits number) (fits : number ≤ maxSigned) :
    readInteger (digits.map Nat.digitChar ++ '\n' :: rest) =
      some ((number : Int), '\n' :: rest) := by
  have value : ofDigits 10 digits = number := writes.value
  rw [readInteger]
  · rw [readSignLine writes]
    simp only [readWholeLine writes, Option.bind_eq_bind, Option.bind_some, value, if_pos fits]
    rfl
  all_goals
    intro after same
    exact absurd (secondCharacter writes same) (by decide)

/-- A number that fits a signed word is read up to the end of the line. -/
theorem readNumericNatural (rest : List Char) (fits : number ≤ maxSigned) :
    readNumeric ((toString number).toList ++ '\n' :: rest) =
      some (.number (.integer number), '\n' :: rest) := by
  obtain ⟨digits, writes⟩ := digitsOfNat number
  rw [naturalCharacters writes, readNumeric, readMomentNone ⟨writes.small, rest, rfl⟩]
  dsimp only
  rw [readFloatNone writes, readNamedNone writes]
  dsimp only [Option.orElse]
  rw [readIntegerLine writes fits]
  rfl

end Numbers

section Values

/-- A number is read as a value. -/
theorem readValueNatural (fits : number ≤ maxSigned) :
    readValue (fuel + 1) depth ((toString number).toList ++ '\n' :: rest) =
      some (.number (.integer number), '\n' :: rest) := by
  have numeric := readNumericNatural rest fits
  obtain ⟨digits, writes⟩ := digitsOfNat number
  rw [naturalCharacters writes] at numeric ⊢
  obtain ⟨first, others, rfl⟩ := List.exists_cons_of_ne_nil writes.nonempty
  have small := writes.small first List.mem_cons_self
  rw [List.map_cons, List.cons_append] at numeric ⊢
  have apart {mark : Char} (other : isDigit mark = false) : Nat.digitChar first ≠ mark :=
    digitApart small other
  have noText : readText? (Nat.digitChar first :: (others.map Nat.digitChar ++ '\n' :: rest)) =
      none := by
    have double : Nat.digitChar first ≠ '"' := apart (by decide)
    have single : Nat.digitChar first ≠ '\'' := apart (by decide)
    unfold readText?
    split <;> simp_all
  rw [readValue, noText]
  · exact numeric
  all_goals exact fun _ same => absurd (List.cons.inj same).1 (apart (by decide))

/-- A text is read as a value. -/
theorem readValueQuoted (text : String) :
    readValue (fuel + 1) depth ((quoted text).toList ++ '\n' :: rest) =
      some (.text (some text), '\n' :: rest) := by
  have ended : Ended ('\n' :: rest) := ⟨by simp, by simp⟩
  unfold readValue
  rw [readTextQuoted text ended]
  dsimp only [Option.map_some]
  rw [String.ofList_toList]

/-- A truth value is read as a value. -/
theorem readValueBoolean (flag : Bool) :
    readValue (fuel + 1) depth ((if flag then "true" else "false").toList ++ '\n' :: rest) =
      some (.boolean flag, '\n' :: rest) := by
  cases flag <;> rfl

end Values

end Backfill.Toml
