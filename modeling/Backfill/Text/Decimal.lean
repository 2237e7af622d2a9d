/-
This file reads whole numbers from decimal text under an upper limit.
-/

namespace Backfill.Text

/-- A text can fail to be a number for these reasons. -/
inductive NumberFault
  | empty
  | badDigit
  | tooLarge
deriving DecidableEq, Repr

/-- This is the wording of a fault. -/
def NumberFault.message : NumberFault → String
  | .empty => "cannot parse integer from empty string"
  | .badDigit => "invalid digit found in string"
  | .tooLarge => "number too large to fit in target type"

/-- The value of a decimal digit. -/
def digitValue? (character : Char) : Option Nat :=
  if '0' ≤ character ∧ character ≤ '9' then some (character.toNat - '0'.toNat) else none

/-- Digits extend the value read so far; the first character that is no digit or passes the limit
decides the fault. -/
def readDigits (limit : Nat) : Nat → List Char → Except NumberFault Nat
  | value, [] => .ok value
  | value, character :: rest =>
      match digitValue? character with
      | none => .error .badDigit
      | some digit =>
          let next := value * 10 + digit
          if next ≤ limit then readDigits limit next rest else .error .tooLarge

/-- A number is one digit or more after an optional plus sign. -/
def readNat (limit : Nat) : List Char → Except NumberFault Nat
  | [] => .error .empty
  | ['+'] => .error .badDigit
  | '+' :: digits => readDigits limit 0 digits
  | digits => readDigits limit 0 digits

/-- The number that a text holds, if it is at most the limit. -/
def natOf? (limit : Nat) (text : String) : Option Nat :=
  (readNat limit text.toList).toOption

example : (readNat 255 "+07".toList).toOption = some 7 := by decide

example : readNat 255 "300x".toList = .error .tooLarge := by rfl

end Backfill.Text
