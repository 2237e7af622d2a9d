/-
This file shows that what is written between the marks of a document is cut into the tokens that were
written: texts between quotes, whole numbers and words.
-/

import Backfill.Proofs.Json.Quoted

namespace Backfill.Json

open Text (digitByte)

/-- A token that is read at a byte is the first one, and the others follow after it. -/
theorem tokensCons {byte : UInt8} {rest after : List UInt8} {token : Token}
    (space : isSpace byte = false) (read : readToken byte rest = some (token, after)) :
    tokens (byte :: rest) = token :: tokens after := by
  rw [tokens, if_neg (by rw [space]; decide)]
  split
  · rename_i none
    rw [read] at none
    cases none
  · rename_i found
    rw [read] at found
    obtain ⟨rfl, rfl⟩ := Prod.mk.inj (Option.some.inj found)
    rfl

/-- A mark is a token of its own. -/
theorem tokensMark {byte : UInt8} {token : Token} (rest : List UInt8) (space : isSpace byte = false)
    (mark : mark? byte = some token) : tokens (byte :: rest) = token :: tokens rest := by
  refine tokensCons space ?_
  rw [readToken, mark]

/-- The bytes of a text between quotes are one token. -/
theorem tokensQuoted (text : String) : ∃ pieces, textOf? pieces = some text ∧
    ∀ rest, tokens (Text.Utf8.encode (quoted text) ++ rest) = .text pieces :: tokens rest := by
  obtain ⟨pieces, same, read⟩ := readQuoted text
  refine ⟨pieces, same, fun rest => ?_⟩
  have mark : mark? 0x22 = none := by decide
  have word : words.lookup 0x22 = none := by decide
  rw [encodeQuoted, List.cons_append]
  refine tokensCons (by decide) ?_
  rw [readToken, mark, word]
  dsimp only
  rw [if_pos rfl, read, Option.map_some]

theorem dropStartAppend (expected rest : List UInt8) :
    dropStart? expected (expected ++ rest) = some rest := by
  induction expected with
  | nil => rfl
  | cons first more inductionHypothesis =>
      rw [List.cons_append, dropStart?, if_pos rfl, inductionHypothesis]

/-- The bytes of a word are one token. -/
theorem tokensWord {byte : UInt8} {more : List UInt8} {token : Token} (rest : List UInt8)
    (space : isSpace byte = false) (mark : mark? byte = none)
    (word : words.lookup byte = some (more, token)) :
    tokens (byte :: (more ++ rest)) = token :: tokens rest := by
  refine tokensCons space ?_
  rw [readToken, mark, word]
  dsimp only
  rw [dropStartAppend, Option.map_some]

/-- What follows a value is the end of the document or a mark that ends the value. -/
def Ended : List UInt8 → Prop
  | [] => True
  | mark :: _ => mark = 0x2c ∨ mark = 0x5d ∨ mark = 0x7d

/-- The digits of a natural number, of which the first one is zero for zero only. -/
structure DigitsOf (digits : List Nat) (value : Nat) : Prop where
  written : Nat.toDigits 10 value = digits.map Nat.digitChar
  small : ∀ digit ∈ digits, digit < 10
  value : natOfDigits digits = value
  nonempty : digits ≠ []
  lead : digits.head? = some 0 → digits = [0]

/-- Every natural number has digits. -/
theorem digitsOfNat (value : Nat) : ∃ digits, DigitsOf digits value := by
  induction value using Nat.strongRecOn with
  | ind value inductionHypothesis =>
      by_cases single : value < 10
      · refine ⟨[value], Nat.toDigits_of_lt_base single, by simpa using single, ?_, by simp, by simp⟩
        simp [natOfDigits]
      · obtain ⟨digits, higher⟩ := inductionHypothesis (value / 10) (by omega)
        refine ⟨digits ++ [value % 10], ?_, ?_, ?_, by simp, ?_⟩
        · rw [Nat.toDigits_of_base_le (by decide) (by omega), higher.written, List.map_append]
          rfl
        · intro digit member
          rcases List.mem_append.mp member with inside | last
          · exact higher.small digit inside
          · rw [List.mem_singleton.mp last]
            omega
        · have joined := higher.value
          rw [natOfDigits] at joined ⊢
          rw [List.foldl_append, joined, List.foldl_cons, List.foldl_nil]
          omega
        · intro zero
          have first : digits.head? = some 0 := by
            obtain ⟨first, more, same⟩ := List.exists_cons_of_ne_nil higher.nonempty
            rw [same] at zero ⊢
            exact zero
          have nothing := higher.value
          rw [higher.lead first] at nothing
          simp only [natOfDigits, List.foldl_cons, List.foldl_nil] at nothing
          omega

/-- The bytes of digits. -/
def digitBytes (digits : List Nat) : List UInt8 :=
  digits.map digitByte

/-- Digits are read up to the end of the value. -/
theorem readDigitsBytes {digits : List Nat} {rest : List UInt8} (small : ∀ digit ∈ digits, digit < 10)
    (ended : Ended rest) : readDigits (digitBytes digits ++ rest) = (digits, rest) := by
  induction digits with
  | nil =>
      cases rest with
      | nil => rfl
      | cons mark more =>
          have other : isDigit mark = false := by
            rcases ended with rfl | rfl | rfl <;> rfl
          rw [digitBytes, List.map_nil, List.nil_append, readDigits, if_neg (by rw [other]; decide)]
  | cons digit more inductionHypothesis =>
      have facts : ∀ digit < 10, isDigit (digitByte digit) = true ∧
          (digitByte digit).toNat - 0x30 = digit := by
        decide
      obtain ⟨first, others⟩ := List.forall_mem_cons.mp small
      obtain ⟨isOne, value⟩ := facts digit first
      rw [digitBytes, List.map_cons, ← digitBytes, List.cons_append, readDigits, if_pos isOne,
        inductionHypothesis others, value]

/-- A number without point and exponent is read up to the end of the value. -/
theorem readNumberBytes {digits : List Nat} {value : Nat} {rest : List UInt8} (negative : Bool)
    (writes : DigitsOf digits value) (ended : Ended rest) :
    readNumber negative (digitBytes digits ++ rest) = some (⟨negative, digits, none, none⟩, rest) := by
  have fraction : readFraction rest = some (none, rest) := by
    cases rest with
    | nil => rfl
    | cons mark more => rcases ended with rfl | rfl | rfl <;> rfl
  have exponent : readExponent rest = some (none, rest) := by
    cases rest with
    | nil => rfl
    | cons mark more => rcases ended with rfl | rfl | rfl <;> rfl
  rw [readNumber, readDigitsBytes writes.small ended]
  split
  · exact absurd (Prod.mk.inj ‹_›).1 writes.nonempty
  · rename_i zero
    have same := (Prod.mk.inj zero).1
    have alone := writes.lead (by rw [same]; rfl)
    rw [same] at alone
    cases alone
  · rename_i same
    obtain ⟨rfl, rfl⟩ := Prod.mk.inj same
    rw [fraction]
    change (readExponent _ >>= _) = _
    rw [exponent]
    rfl

/-- The bytes of the digits of a number are those of its text. -/
theorem encodeDigits {digits : List Nat} {value : Nat} (writes : DigitsOf digits value) :
    Text.Utf8.encode (toString value) = digitBytes digits := by
  have bytes : ∀ digits : List Nat, (∀ digit ∈ digits, digit < 10) →
      (digits.map Nat.digitChar).flatMap String.utf8EncodeChar = digitBytes digits := by
    intro digits small
    induction digits with
    | nil => rfl
    | cons digit more inductionHypothesis =>
        obtain ⟨first, others⟩ := List.forall_mem_cons.mp small
        rw [List.map_cons, List.flatMap_cons, Text.encodeDigit (by omega),
          inductionHypothesis others]
        rfl
  rw [Nat.toString_eq_ofList_toDigits, Text.Utf8.encodeOfList, writes.written,
    bytes digits writes.small]

/-- The bytes of a natural number are one token. -/
theorem tokensNatural {digits : List Nat} {value : Nat} {rest : List UInt8}
    (writes : DigitsOf digits value) (ended : Ended rest) :
    tokens (digitBytes digits ++ rest) = .number ⟨false, digits, none, none⟩ :: tokens rest := by
  have read := readNumberBytes false writes ended
  have facts : ∀ digit < 10, isSpace (digitByte digit) = false ∧ mark? (digitByte digit) = none ∧
      words.lookup (digitByte digit) = none ∧ digitByte digit ≠ 0x22 ∧ digitByte digit ≠ 0x2d := by
    decide
  obtain ⟨first, more, rfl⟩ := List.exists_cons_of_ne_nil writes.nonempty
  obtain ⟨space, mark, word, quote, minus⟩ := facts first (writes.small first List.mem_cons_self)
  rw [digitBytes, List.map_cons, List.cons_append] at read ⊢
  refine tokensCons space ?_
  rw [readToken, mark, word]
  dsimp only
  rw [if_neg quote, if_neg minus, read, Option.map_some]

/-- The bytes of a negative number are one token. -/
theorem tokensNegative {digits : List Nat} {value : Nat} {rest : List UInt8}
    (writes : DigitsOf digits value) (ended : Ended rest) :
    tokens (0x2d :: (digitBytes digits ++ rest)) =
      .number ⟨true, digits, none, none⟩ :: tokens rest := by
  have read := readNumberBytes true writes ended
  have mark : mark? 0x2d = none := by decide
  have word : words.lookup 0x2d = none := by decide
  refine tokensCons (by decide) ?_
  rw [readToken, mark, word]
  dsimp only
  rw [if_neg (by decide), if_pos rfl, read, Option.map_some]

/-- A whole number that fits a signed or an unsigned word. -/
def Fits (value : Int) : Prop :=
  -(maxSigned + 1 : Int) ≤ value ∧ value ≤ maxWord

theorem fitsNatural {value : Nat} (small : value ≤ maxWord) : Fits value := by
  constructor <;> omega

/-- The bytes of a whole number are one token, which has the number as its value. -/
theorem tokensInteger {value : Int} (fits : Fits value) : ∃ written : NumberText,
    written.value = .integer value ∧
      ∀ rest, Ended rest → tokens (Text.Utf8.encode (toString value) ++ rest) =
        .number written :: tokens rest := by
  cases value with
  | ofNat value =>
      obtain ⟨digits, writes⟩ := digitsOfNat value
      refine ⟨⟨false, digits, none, none⟩, ?_, fun rest ended => ?_⟩
      · have small : value ≤ maxWord := Int.ofNat_le.mp fits.2
        simp only [NumberText.value, Option.isSome_none, Bool.or_self, Bool.false_eq_true, ↓reduceIte,
          writes.value, if_pos small]
        rfl
      · change tokens (Text.Utf8.encode (toString value) ++ rest) = _
        rw [encodeDigits writes, tokensNatural writes ended]
  | negSucc value =>
      obtain ⟨digits, writes⟩ := digitsOfNat (value + 1)
      refine ⟨⟨true, digits, none, none⟩, ?_, fun rest ended => ?_⟩
      · have small : ¬(value + 1 = 0 ∨ maxSigned + 1 < value + 1) := by
          have lower := fits.1
          omega
        simp only [NumberText.value, Option.isSome_none, Bool.or_self, Bool.false_eq_true, ↓reduceIte,
          writes.value, if_neg small]
        rfl
      · have written : Text.Utf8.encode (toString (Int.negSucc value)) =
            0x2d :: digitBytes digits := by
          change Text.Utf8.encode ("-" ++ toString (value + 1)) = _
          have sign : Text.Utf8.encode "-" = [0x2d] := by
            rw [Text.Utf8.encodeEq]
            rfl
          rw [Text.Utf8.encodeAppend, encodeDigits writes, sign, List.singleton_append]
        rw [written, List.cons_append, tokensNegative writes ended]

end Backfill.Json
