/-
This file shows that the bytes of a text are read back as the text.
-/

import Backfill.Text.Utf8

namespace Backfill.Text.Utf8

theorem bytesFrom (bytes : ByteArray) (position : Nat) (found : List UInt8) :
    ByteArray.toList.loop bytes position found = found.reverse ++ bytes.data.toList.drop position := by
  fun_induction ByteArray.toList.loop bytes position found with
  | case1 position found inside inductionHypothesis =>
      have within : position < bytes.data.toList.length := by simpa using inside
      rw [inductionHypothesis, List.drop_eq_getElem_cons within]
      simp [ByteArray.get!, inside]
  | case2 position found outside =>
      rw [List.drop_eq_nil_of_le (by simpa using outside)]
      simp

/-- The bytes of a text are those of its characters. -/
theorem encodeEq (text : String) : encode text = text.toList.flatMap String.utf8EncodeChar := by
  rw [encode, String.toUTF8, ← String.utf8Encode_toList, List.utf8Encode, ByteArray.toList, bytesFrom,
    List.data_toByteArray]
  rfl

theorem encodeOfList (characters : List Char) :
    encode (String.ofList characters) = characters.flatMap String.utf8EncodeChar := by
  rw [encodeEq, String.toList_ofList]

theorem encodeAppend (first second : String) :
    encode (first ++ second) = encode first ++ encode second := by
  rw [encodeEq, String.toList_append, List.flatMap_append, ← encodeEq, ← encodeEq]

theorem encodeSingleton (character : Char) :
    encode (String.singleton character) = String.utf8EncodeChar character := by
  rw [encodeEq, String.toList_singleton, List.flatMap_singleton]

/-- A first byte that announces more bytes has them read. -/
theorem stepLead {lead count least greatest : Nat} (rest : List UInt8) (large : 0x80 ≤ lead)
    (byte : lead < 256) (shape : shape? lead = some (count, least, greatest)) :
    step (UInt8.ofNat lead) rest = continuation count least greatest (leadBits lead count) rest := by
  have same : (UInt8.ofNat lead).toNat = lead := by
    rw [UInt8.toNat_ofNat']
    omega
  rw [step, same, if_neg (Nat.not_lt.mpr large), shape]

/-- A byte of a character that is not its first one adds six bits. -/
theorem continuationTail {count least greatest : Nat} (value group : Nat) (rest : List UInt8)
    (low : least ≤ group % 64 + 128) (high : group % 64 + 128 ≤ greatest) :
    continuation (count + 1) least greatest value (UInt8.ofNat (group % 64 + 128) :: rest) =
      continuation count 0x80 0xbf (value * 64 + group % 64) rest := by
  have byte : (UInt8.ofNat (group % 64 + 128)).toNat = group % 64 + 128 := by
    rw [UInt8.toNat_ofNat']
    omega
  have bits : (group % 64 + 128) % 64 = group % 64 := by omega
  rw [continuation, byte, if_pos ⟨low, high⟩, bits]

theorem stepOne {code : Nat} (rest : List UInt8) (small : code ≤ 0x7f) :
    step (UInt8.ofNat code) rest = (some (Char.ofNat code), rest) := by
  have same : (UInt8.ofNat code).toNat = code := by
    rw [UInt8.toNat_ofNat']
    omega
  rw [step, same, if_pos (by omega)]

theorem stepTwo {code : Nat} (rest : List UInt8) (large : 0x7f < code) (small : code ≤ 0x7ff) :
    step (UInt8.ofNat (code / 64 % 32 + 192)) (UInt8.ofNat (code % 64 + 128) :: rest) =
      (some (Char.ofNat code), rest) := by
  have shape : shape? (code / 64 % 32 + 192) = some (1, 0x80, 0xbf) := by
    rw [shape?, if_neg (by omega), if_pos (by omega)]
  have value : leadBits (code / 64 % 32 + 192) 1 * 64 + code % 64 = code := by
    simp only [leadBits, Nat.pow_eq]
    omega
  rw [stepLead _ (by omega) (by omega) shape, continuationTail _ _ _ (by omega) (by omega), value,
    continuation]

theorem stepThree {code : Nat} (rest : List UInt8) (large : 0x7ff < code) (small : code ≤ 0xffff)
    (valid : code < 0xd800 ∨ 0xdfff < code) :
    step (UInt8.ofNat (code / 4096 % 16 + 224))
        (UInt8.ofNat (code / 64 % 64 + 128) :: UInt8.ofNat (code % 64 + 128) :: rest) =
      (some (Char.ofNat code), rest) := by
  obtain ⟨least, greatest, shape, low, high⟩ : ∃ least greatest,
      shape? (code / 4096 % 16 + 224) = some (2, least, greatest) ∧
        least ≤ code / 64 % 64 + 128 ∧ code / 64 % 64 + 128 ≤ greatest := by
    rw [shape?, if_neg (by omega), if_neg (by omega)]
    split
    · exact ⟨_, _, rfl, by omega, by omega⟩
    split
    · exact ⟨_, _, rfl, by omega, by omega⟩
    · rw [if_pos (by omega)]
      exact ⟨_, _, rfl, by omega, by omega⟩
  have value : (leadBits (code / 4096 % 16 + 224) 2 * 64 + code / 64 % 64) * 64 + code % 64 =
      code := by
    simp only [leadBits, Nat.pow_eq]
    omega
  rw [stepLead _ (by omega) (by omega) shape, continuationTail _ _ _ low high,
    continuationTail _ _ _ (by omega) (by omega), value, continuation]

theorem stepFour {code : Nat} (rest : List UInt8) (large : 0xffff < code)
    (small : code < 0x110000) :
    step (UInt8.ofNat (code / 262144 % 8 + 240))
        (UInt8.ofNat (code / 4096 % 64 + 128) :: UInt8.ofNat (code / 64 % 64 + 128) ::
          UInt8.ofNat (code % 64 + 128) :: rest) =
      (some (Char.ofNat code), rest) := by
  obtain ⟨least, greatest, shape, low, high⟩ : ∃ least greatest,
      shape? (code / 262144 % 8 + 240) = some (3, least, greatest) ∧
        least ≤ code / 4096 % 64 + 128 ∧ code / 4096 % 64 + 128 ≤ greatest := by
    rw [shape?, if_neg (by omega), if_neg (by omega), if_neg (by omega), if_neg (by omega),
      if_neg (by omega)]
    split
    · exact ⟨_, _, rfl, by omega, by omega⟩
    split
    · exact ⟨_, _, rfl, by omega, by omega⟩
    · rw [if_pos (by omega)]
      exact ⟨_, _, rfl, by omega, by omega⟩
  have value : ((leadBits (code / 262144 % 8 + 240) 3 * 64 + code / 4096 % 64) * 64 +
      code / 64 % 64) * 64 + code % 64 = code := by
    simp only [leadBits, Nat.pow_eq]
    omega
  rw [stepLead _ (by omega) (by omega) shape, continuationTail _ _ _ low high,
    continuationTail _ _ _ (by omega) (by omega), continuationTail _ _ _ (by omega) (by omega),
    value, continuation]

/-- The bytes of a character are read back as the character. -/
theorem piecesChar (character : Char) (rest : List UInt8) :
    pieces (String.utf8EncodeChar character ++ rest) = some character :: pieces rest := by
  have valid : character.toNat < 0xd800 ∨ 0xdfff < character.toNat ∧ character.toNat < 0x110000 :=
    character.valid
  have back : Char.ofNat character.val.toNat = character := Char.ofNat_toNat character
  change character.val.toNat < 0xd800 ∨
    0xdfff < character.val.toNat ∧ character.val.toNat < 0x110000 at valid
  rw [String.utf8EncodeChar]
  split
  · rw [List.singleton_append, pieces, stepOne rest ‹_›, back]
  split
  · rw [List.cons_append, List.singleton_append, pieces, stepTwo rest (by omega) ‹_›, back]
  split
  · simp only [List.cons_append, List.nil_append]
    rw [pieces, stepThree rest (by omega) ‹_› (by omega), back]
  · simp only [List.cons_append, List.nil_append]
    rw [pieces, stepFour rest (by omega) (by omega), back]

/-- The bytes of a text are read back as the text. -/
theorem textEncode (text : String) : text? (encode text) = some text := by
  have characters : ∀ letters : List Char,
      decode? (letters.flatMap String.utf8EncodeChar) = some letters := by
    intro letters
    induction letters with
    | nil =>
        rw [List.flatMap_nil, decode?, pieces]
        rfl
    | cons letter rest inductionHypothesis =>
        rw [decode?] at inductionHypothesis
        rw [List.flatMap_cons, decode?, piecesChar, List.mapM_cons, inductionHypothesis]
        rfl
  rw [text?, encodeEq, characters, Option.map_some, String.ofList_toList]

end Backfill.Text.Utf8
