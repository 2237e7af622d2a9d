/-
This file shows that a byte string is read back from its hexadecimal digits, and that a text which is
read as a byte string is made of its digits, in either case.
-/

import Backfill.Proofs.Text.Utf8
import Backfill.Text.Hex

namespace Backfill.Text

/-- The byte of a hexadecimal digit. -/
def digitByte (digit : Nat) : UInt8 :=
  UInt8.ofNat (Nat.digitChar digit).toNat

theorem Utf8.encodeAscii {character : Char} (small : character.toNat ≤ 0x7f) :
    String.utf8EncodeChar character = [UInt8.ofNat character.toNat] :=
  if_pos small

theorem encodeDigit {digit : Nat} (small : digit < 16) :
    String.utf8EncodeChar (Nat.digitChar digit) = [digitByte digit] := by
  have ascii : ∀ digit < 16, (Nat.digitChar digit).toNat ≤ 0x7f := by decide
  exact Utf8.encodeAscii (ascii digit small)

theorem digitValueByte {digit : Nat} (small : digit < 16) :
    hexDigitValue? (digitByte digit) = some digit := by
  have values : ∀ digit < 16, hexDigitValue? (digitByte digit) = some digit := by decide
  exact values digit small

/-- The bytes of the digits of a byte string. -/
def hexCodes (bytes : List UInt8) : List UInt8 :=
  bytes.flatMap fun byte => [digitByte (byte.toNat / 16), digitByte (byte.toNat % 16)]

theorem encodeHex (bytes : List UInt8) : Utf8.encode (hex bytes) = hexCodes bytes := by
  have pair (byte : UInt8) : (hexPair byte).flatMap String.utf8EncodeChar =
      [digitByte (byte.toNat / 16), digitByte (byte.toNat % 16)] := by
    have bound := byte.toNat_lt
    rw [hexPair, List.flatMap_cons, encodeDigit (by omega), List.flatMap_singleton,
      encodeDigit (by omega), List.singleton_append]
  rw [hex, Utf8.encodeOfList, hexChars, List.flatMap_assoc, hexCodes]
  exact congrArg (bytes.flatMap ·) (funext pair)

theorem hexCodesLength (bytes : List UInt8) : (hexCodes bytes).length = 2 * bytes.length := by
  induction bytes with
  | nil => rfl
  | cons byte rest inductionHypothesis =>
      rw [hexCodes, List.flatMap_cons, ← hexCodes, List.length_append, inductionHypothesis,
        List.length_cons]
      simp only [List.length_cons, List.length_nil]
      omega

theorem readHexPairsCodes (position : Nat) (bytes : List UInt8) :
    readHexPairs position (hexCodes bytes) = .ok bytes := by
  induction bytes generalizing position with
  | nil => rfl
  | cons byte rest inductionHypothesis =>
      have bound := byte.toNat_lt
      have joined : UInt8.ofNat (byte.toNat / 16 * 16 + byte.toNat % 16) = byte := by
        rw [Nat.div_add_mod', UInt8.ofNat_toNat]
      rw [hexCodes, List.flatMap_cons, ← hexCodes, List.cons_append, List.singleton_append,
        readHexPairs, digitValueByte (by omega), digitValueByte (by omega), inductionHypothesis]
      simp only [Except.map, joined]

/-- A byte string is read back from its digits. -/
theorem readHexOfHex (bytes : List UInt8) : readHex (hex bytes) = .ok bytes := by
  rw [readHex, encodeHex, if_neg (by rw [hexCodesLength]; omega), readHexPairsCodes]

/-- A text is made of the digits of a byte string, in either case. -/
def Spells (text : String) (bytes : List UInt8) : Prop :=
  text.toList.map Char.toLower = hexChars bytes

theorem digitValueSmall {byte : UInt8} {value : Nat} (digit : hexDigitValue? byte = some value) :
    value < 16 ∧ byte.toNat ≤ 0x7f := by
  simp only [hexDigitValue?] at digit
  split at digit
  · obtain rfl := Option.some.inj digit
    omega
  split at digit
  · obtain rfl := Option.some.inj digit
    omega
  split at digit
  · obtain rfl := Option.some.inj digit
    omega
  · cases digit

/-- A character whose first byte is a digit is that digit. -/
theorem digitOfChar {character : Char} {byte : UInt8} {tail : List UInt8} {value : Nat}
    (encoded : String.utf8EncodeChar character = byte :: tail)
    (digit : hexDigitValue? byte = some value) :
    tail = [] ∧ character.toLower = Nat.digitChar value := by
  have ascii : ∀ code < 128, (hexDigitValue? (UInt8.ofNat code)).all fun value =>
      (Char.ofNat code).toLower = Nat.digitChar value := by decide
  have small := (digitValueSmall digit).2
  rw [String.utf8EncodeChar] at encoded
  split at encoded
  · rename_i single
    obtain ⟨rfl, rfl⟩ := List.cons.inj encoded
    have lower := ascii character.val.toNat (Nat.lt_succ_of_le single)
    rw [digit] at lower
    have same : Char.ofNat character.val.toNat = character := Char.ofNat_toNat character
    rw [same] at lower
    exact ⟨rfl, of_decide_eq_true lower⟩
  · -- The first byte of a character with more than one byte is too large for a digit.
    exfalso
    repeat' split at encoded
    all_goals
      obtain ⟨rfl, _⟩ := List.cons.inj encoded
      rw [UInt8.toNat_ofNat'] at small
      omega

/-- The values of the digits of a byte string. -/
def hexValues (bytes : List UInt8) : List Nat :=
  bytes.flatMap fun byte => [byte.toNat / 16, byte.toNat % 16]

theorem hexValuesCons (byte : UInt8) (rest : List UInt8) :
    hexValues (byte :: rest) = byte.toNat / 16 :: byte.toNat % 16 :: hexValues rest :=
  rfl

theorem valuesOfPairs {position : Nat} {raw bytes : List UInt8}
    (read : readHexPairs position raw = .ok bytes) :
    raw.map hexDigitValue? = (hexValues bytes).map some := by
  fun_induction readHexPairs position raw generalizing bytes with
  | case1 =>
      cases read
      rfl
  | case2 => cases read
  | case3 => cases read
  | case4 => cases read
  | case5 position high low rest highValue highDigit lowValue lowDigit inductionHypothesis =>
      cases answer : readHexPairs (position + 2) rest with
      | error fault =>
          rw [answer] at read
          cases read
      | ok others =>
          rw [answer] at read
          obtain rfl : UInt8.ofNat (highValue * 16 + lowValue) :: others = bytes :=
            Except.ok.inj read
          have highSmall := (digitValueSmall highDigit).1
          have lowSmall := (digitValueSmall lowDigit).1
          have joined : (UInt8.ofNat (highValue * 16 + lowValue)).toNat =
              highValue * 16 + lowValue := by
            rw [UInt8.toNat_ofNat']
            omega
          have first : (highValue * 16 + lowValue) / 16 = highValue := by omega
          have second : (highValue * 16 + lowValue) % 16 = lowValue := by omega
          rw [List.map_cons, List.map_cons, highDigit, lowDigit, inductionHypothesis answer,
            hexValuesCons, joined, first, second]
          rfl

theorem lowerOfValues {characters : List Char} {values : List Nat}
    (digits : (characters.flatMap String.utf8EncodeChar).map hexDigitValue? = values.map some) :
    characters.map Char.toLower = values.map Nat.digitChar := by
  induction characters generalizing values with
  | nil =>
      rw [List.flatMap_nil, List.map_nil, eq_comm, List.map_eq_nil_iff] at digits
      rw [digits]
      rfl
  | cons character rest inductionHypothesis =>
      rw [List.flatMap_cons] at digits
      cases encoded : String.utf8EncodeChar character with
      | nil => exact absurd encoded (String.utf8EncodeChar_ne_nil)
      | cons byte tail =>
          rw [encoded, List.cons_append, List.map_cons] at digits
          cases values with
          | nil => cases digits
          | cons value others =>
              obtain ⟨digit, more⟩ := List.cons.inj digits
              obtain ⟨rfl, lower⟩ := digitOfChar encoded digit
              rw [List.map_cons, List.map_cons, lower, inductionHypothesis more]

/-- A text that is read as a byte string is made of its digits. -/
theorem spellsOfReadHex {text : String} {bytes : List UInt8} (read : readHex text = .ok bytes) :
    Spells text bytes := by
  unfold readHex at read
  dsimp only at read
  split at read
  · cases read
  · have digits := valuesOfPairs read
    rw [Utf8.encodeEq] at digits
    rw [Spells, lowerOfValues digits, hexValues, List.map_flatMap]
    rfl

end Backfill.Text
