/-
This file shows that a number is read back from its decimal digits, and that exactly the decimal
numerals up to the limit are read.
-/

import Backfill.Proofs.Json.Tokens
import Backfill.Text.Decimal
import Mathlib.Data.Nat.Digits.Defs

namespace Backfill.Text

theorem digitValueChar {digit : Nat} (small : digit < 10) :
    digitValue? (Nat.digitChar digit) = some digit := by
  have values : ∀ digit < 10, digitValue? (Nat.digitChar digit) = some digit := by decide
  exact values digit small

/-- Digits are read as the number that they go on to write, if that is within the limit. -/
theorem readDigitsOf {limit value : Nat} {digits : List Nat} (small : ∀ digit ∈ digits, digit < 10)
    (within : digits.foldl (fun value digit => value * 10 + digit) value ≤ limit) :
    readDigits limit value (digits.map Nat.digitChar) =
      .ok (digits.foldl (fun value digit => value * 10 + digit) value) := by
  have grows (digits : List Nat) (value : Nat) :
      value ≤ digits.foldl (fun value digit => value * 10 + digit) value := by
    induction digits generalizing value with
    | nil => exact Nat.le_refl value
    | cons digit rest inductionHypothesis =>
        have later := inductionHypothesis (value * 10 + digit)
        rw [List.foldl_cons]
        omega
  induction digits generalizing value with
  | nil => rfl
  | cons digit rest inductionHypothesis =>
      obtain ⟨first, others⟩ := List.forall_mem_cons.mp small
      rw [List.foldl_cons] at within ⊢
      have fits : value * 10 + digit ≤ limit := Nat.le_trans (grows rest _) within
      rw [List.map_cons, readDigits, digitValueChar first]
      dsimp only
      rw [if_pos fits, inductionHypothesis others within]

/-- A number within the limit is read back from its text. -/
theorem natOfToString {limit value : Nat} (within : value ≤ limit) :
    natOf? limit (toString value) = some value := by
  obtain ⟨digits, writes⟩ := Json.digitsOfNat value
  have number := writes.value
  rw [Json.natOfDigits] at number
  have read : readDigits limit 0 (digits.map Nat.digitChar) = .ok value := by
    rw [← number] at within
    rw [readDigitsOf writes.small within, number]
  obtain ⟨first, more, rfl⟩ := List.exists_cons_of_ne_nil writes.nonempty
  have unsigned : Nat.digitChar first ≠ '+' := by
    have digit : ∀ digit < 10, Nat.digitChar digit ≠ '+' := by decide
    exact digit first (writes.small first List.mem_cons_self)
  rw [natOf?, Nat.toString_eq_ofList_toDigits, String.toList_ofList, writes.written]
  rw [List.map_cons] at read ⊢
  rw [readNat]
  · rw [read]
    rfl
  · exact List.cons_ne_nil _ _
  · exact fun plus => unsigned (List.cons.inj plus).1
  · exact fun digits plus => unsigned (List.cons.inj plus).1

section Numerals

variable {limit value number : Nat} {character : Char} {digits text : List Char}

/-- A decimal digit is one of ten characters. -/
def IsDigit (character : Char) : Prop :=
  '0' ≤ character ∧ character ≤ '9'

/-- The number that decimal digits write, the one of the highest place first. -/
def decimalValue (digits : List Char) : Nat :=
  Nat.ofDigits 10 (digits.reverse.map fun digit => digit.toNat - '0'.toNat)

/-- A numeral of a number is one decimal digit or more, perhaps after a plus sign. -/
def Numeral (text : List Char) (number : Nat) : Prop :=
  ∃ digits, (text = digits ∨ text = '+' :: digits) ∧ digits ≠ [] ∧
    (∀ digit ∈ digits, IsDigit digit) ∧ decimalValue digits = number

theorem digitValueOfDigit (digit : IsDigit character) :
    digitValue? character = some (character.toNat - '0'.toNat) :=
  if_pos digit

theorem digitValueOfOther (other : ¬IsDigit character) : digitValue? character = none :=
  if_neg other

theorem decimalValueCons (character : Char) (digits : List Char) :
    decimalValue (character :: digits) =
      (character.toNat - '0'.toNat) * 10 ^ digits.length + decimalValue digits := by
  rw [decimalValue, List.reverse_cons, List.map_append, Nat.ofDigits_append, ← decimalValue,
    List.length_map, List.length_reverse, List.map_singleton, Nat.ofDigits_singleton]
  ring

/-- Characters extend a value to a number if they are digits that write the rest of it, and the
number is within the limit. -/
theorem readDigitsIff (within : value ≤ limit) :
    readDigits limit value digits = .ok number ↔
      (∀ digit ∈ digits, IsDigit digit) ∧
        value * 10 ^ digits.length + decimalValue digits = number ∧ number ≤ limit := by
  induction digits generalizing value with
  | nil =>
      rw [readDigits, Except.ok.injEq]
      simp only [List.not_mem_nil, false_implies, implies_true, true_and, List.length_nil, pow_zero,
        mul_one, decimalValue, List.reverse_nil, List.map_nil, Nat.ofDigits_nil, add_zero]
      omega
  | cons character rest inductionHypothesis =>
      rw [readDigits, List.forall_mem_cons]
      by_cases digit : IsDigit character
      · rw [digitValueOfDigit digit, decimalValueCons, List.length_cons]
        have whole : value * 10 ^ (rest.length + 1) +
              ((character.toNat - '0'.toNat) * 10 ^ rest.length + decimalValue rest) =
            (value * 10 + (character.toNat - '0'.toNat)) * 10 ^ rest.length +
              decimalValue rest := by
          ring
        rw [whole]
        dsimp only
        by_cases fits : value * 10 + (character.toNat - '0'.toNat) ≤ limit
        · rw [if_pos fits, inductionHypothesis fits]
          simp only [digit, true_and]
        · -- What the digits before the last one write is no more than what all of them write.
          rw [if_neg fits]
          have grows : value * 10 + (character.toNat - '0'.toNat) ≤
              (value * 10 + (character.toNat - '0'.toNat)) * 10 ^ rest.length :=
            Nat.le_mul_of_pos_right _ (Nat.pow_pos (by decide))
          simp only [reduceCtorEq, false_iff]
          rintro ⟨_, rfl, small⟩
          omega
      · rw [digitValueOfOther digit]
        simp only [reduceCtorEq, digit, false_and]

theorem plusNoDigit : ¬IsDigit '+' :=
  fun digit => absurd digit.1 (by decide)

/-- Exactly the numerals of the numbers up to the limit are read, each as its number. -/
theorem readNatIff : readNat limit text = .ok number ↔ Numeral text number ∧ number ≤ limit := by
  have unsigned (digits : List Char) : readDigits limit 0 digits = .ok number ↔
      (∀ digit ∈ digits, IsDigit digit) ∧ decimalValue digits = number ∧ number ≤ limit := by
    rw [readDigitsIff (Nat.zero_le _), Nat.zero_mul, Nat.zero_add]
  fun_cases readNat limit text with
  | case1 =>
      simp only [reduceCtorEq, false_iff]
      rintro ⟨⟨digits, rfl | same, some, _⟩, _⟩
      · exact some rfl
      · cases same
  | case2 =>
      simp only [reduceCtorEq, false_iff]
      rintro ⟨⟨digits, rfl | same, some, each, _⟩, _⟩
      · exact plusNoDigit (each '+' List.mem_cons_self)
      · exact some (List.cons.inj same).2.symm
  | case3 digits several =>
      rw [unsigned]
      constructor
      · rintro ⟨each, writes, small⟩
        exact ⟨⟨digits, .inr rfl, fun none => several none, each, writes⟩, small⟩
      · rintro ⟨⟨others, rfl | same, some, each, writes⟩, small⟩
        · exact absurd (each '+' List.mem_cons_self) plusNoDigit
        · obtain rfl := (List.cons.inj same).2
          exact ⟨each, writes, small⟩
  | case4 text some _ plain =>
      rw [unsigned]
      constructor
      · rintro ⟨each, writes, small⟩
        exact ⟨⟨text, .inl rfl, some, each, writes⟩, small⟩
      · rintro ⟨⟨digits, rfl | same, _, each, writes⟩, small⟩
        · exact ⟨each, writes, small⟩
        · exact absurd same (plain digits)

end Numerals

end Backfill.Text
