/-
This file shows that a text between quotes is read back as the text, whatever characters it has.
-/

import Backfill.Json.Document
import Backfill.Json.Value
import Backfill.Proofs.Text.Hex

namespace Backfill.Json

/-- Bytes between quotes are read as pieces, and the pieces stand for the bytes of a text. -/
structure Spells (written : List UInt8) (pieces : List Piece) (bytes : List UInt8) : Prop where
  read : ∀ rest, readPieces (written ++ rest) =
    (readPieces rest).map fun found => (pieces ++ found.1, found.2)
  stand : ∀ more, bytesOf? (pieces ++ more) = (bytesOf? more).map (bytes ++ ·)

namespace Spells

theorem nil : Spells [] [] [] :=
  ⟨fun rest => by simp, fun more => by simp⟩

theorem append {written more : List UInt8} {pieces others : List Piece} {bytes others' : List UInt8}
    (first : Spells written pieces bytes) (second : Spells more others others') :
    Spells (written ++ more) (pieces ++ others) (bytes ++ others') := by
  refine ⟨fun rest => ?_, fun rest => ?_⟩
  · rw [List.append_assoc, first.read, second.read, Option.map_map]
    exact congrArg (Option.map · _) (funext fun found => by simp)
  · rw [List.append_assoc, first.stand, second.stand, Option.map_map]
    exact congrArg (Option.map · _) (funext fun found => by simp)

/-- A byte that is no quote, backslash or control is a piece of its own. -/
theorem byte {value : UInt8} (quote : value ≠ 0x22) (backslash : value ≠ 0x5c)
    (control : 0x20 ≤ value.toNat) : Spells [value] [.byte value] [value] := by
  refine ⟨fun rest => ?_, fun more => ?_⟩
  · rw [List.singleton_append, readPieces.eq_def]
    dsimp only
    rw [if_neg quote, if_neg backslash, if_neg (Nat.not_lt.mpr control)]
    cases readPieces rest <;> rfl
  · rfl

/-- Bytes that need no escape are their own pieces. -/
theorem plain {bytes : List UInt8}
    (free : ∀ value ∈ bytes, value ≠ 0x22 ∧ value ≠ 0x5c ∧ 0x20 ≤ value.toNat) :
    Spells bytes (bytes.map .byte) bytes := by
  induction bytes with
  | nil => exact nil
  | cons value rest inductionHypothesis =>
      obtain ⟨⟨quote, backslash, control⟩, others⟩ := List.forall_mem_cons.mp free
      exact (byte quote backslash control).append (inductionHypothesis others)

/-- A short escape stands for its byte. -/
theorem short {mark value : UInt8} (stands : shortEscape? mark = some value) :
    Spells [0x5c, mark] [.byte value] [value] := by
  have other : mark ≠ 0x75 := by
    rintro rfl
    cases stands
  refine ⟨fun rest => ?_, fun more => rfl⟩
  rw [List.cons_append, List.singleton_append, readPieces.eq_def]
  dsimp only
  rw [if_neg (by decide), if_pos rfl, if_neg other, stands]
  cases readPieces rest <;> rfl

/-- A control is written as a unit. -/
theorem unit {code : Nat} (control : code < 0x20) :
    Spells [0x5c, 0x75, 0x30, 0x30, Text.digitByte (code / 16), Text.digitByte (code % 16)]
      [.unit code] (String.utf8EncodeChar (Char.ofNat code)) := by
  have value : unitOf? 0x30 0x30 (Text.digitByte (code / 16)) (Text.digitByte (code % 16)) =
      some code := by
    have high : hexValue? (Text.digitByte (code / 16)) = some (code / 16) :=
      Text.digitValueByte (by omega)
    have low : hexValue? (Text.digitByte (code % 16)) = some (code % 16) :=
      Text.digitValueByte (by omega)
    have zero : hexValue? 0x30 = some 0 := rfl
    simp only [unitOf?, high, low, zero, Option.pure_def, Option.bind_eq_bind, Option.bind_some,
      Option.some.injEq]
    omega
  refine ⟨fun rest => ?_, fun more => ?_⟩
  · simp only [List.cons_append, List.nil_append]
    rw [readPieces, if_neg (by decide), if_pos rfl, if_pos rfl, value]
    cases readPieces rest <;> rfl
  · rw [List.singleton_append, bytesOf?.eq_def]
    dsimp only
    rw [if_pos (.inl (by omega)), Text.Utf8.encodeSingleton]

end Spells

/-- The bytes of a character that is neither a quote, a backslash nor a control need no escape. -/
theorem freeOfChar {character : Char} (quote : character ≠ '"') (backslash : character ≠ '\\')
    (control : 0x20 ≤ character.toNat) :
    ∀ value ∈ String.utf8EncodeChar character, value ≠ 0x22 ∧ value ≠ 0x5c ∧ 0x20 ≤ value.toNat := by
  have same {code : Nat} (small : code < 256) : (UInt8.ofNat code).toNat = code := by
    rw [UInt8.toNat_ofNat']
    omega
  -- A byte is told from the others by its number.
  have free {code : Nat} (small : code < 256) (above : 0x20 ≤ code) (notQuote : code ≠ 0x22)
      (notBackslash : code ≠ 0x5c) : UInt8.ofNat code ≠ 0x22 ∧ UInt8.ofNat code ≠ 0x5c ∧
        0x20 ≤ (UInt8.ofNat code).toNat := by
    refine ⟨fun equal => ?_, fun equal => ?_, by rwa [same small]⟩
    · exact notQuote ((same small).symm.trans (congrArg UInt8.toNat equal))
    · exact notBackslash ((same small).symm.trans (congrArg UInt8.toNat equal))
  intro value member
  by_cases ascii : character.toNat ≤ 0x7f
  · rw [Text.Utf8.encodeAscii ascii, List.mem_singleton] at member
    rw [member]
    refine free (by omega) control (fun code => quote ?_) (fun code => backslash ?_)
    · rw [← Char.ofNat_toNat character, code]
    · rw [← Char.ofNat_toNat character, code]
  · obtain ⟨code, small, large, rfl⟩ : ∃ code < 256, 0x80 ≤ code ∧ value = UInt8.ofNat code := by
      change ¬character.val.toNat ≤ 0x7f at ascii
      rw [String.utf8EncodeChar, if_neg ascii] at member
      split at member
      · simp only [List.mem_cons, List.not_mem_nil, or_false] at member
        rcases member with rfl | rfl <;> exact ⟨_, by omega, by omega, rfl⟩
      split at member
      · simp only [List.mem_cons, List.not_mem_nil, or_false] at member
        rcases member with rfl | rfl | rfl <;> exact ⟨_, by omega, by omega, rfl⟩
      · simp only [List.mem_cons, List.not_mem_nil, or_false] at member
        rcases member with rfl | rfl | rfl | rfl <;> exact ⟨_, by omega, by omega, rfl⟩
    exact free small (by omega) (by omega) (by omega)

/-- A character that has a short escape is read back. -/
theorem spellsShort {character mark : Char} {value : UInt8} (ascii : mark.toNat ≤ 0x7f)
    (stands : shortEscape? (UInt8.ofNat mark.toNat) = some value)
    (bytes : String.utf8EncodeChar character = [value]) :
    Spells (['\\', mark].flatMap String.utf8EncodeChar) [.byte value]
      (String.utf8EncodeChar character) := by
  rw [List.flatMap_cons, List.flatMap_singleton, Text.Utf8.encodeAscii ascii, bytes]
  exact .short stands

/-- A character that is escaped where it has to be is read back. -/
theorem spellsEscape (character : Char) :
    ∃ pieces, Spells ((escape character).flatMap String.utf8EncodeChar) pieces
      (String.utf8EncodeChar character) := by
  -- A character is known by its number.
  have known {code : Nat} (number : character.toNat = code) (small : code ≤ 0x7f) :
      String.utf8EncodeChar character = [UInt8.ofNat code] := by
    rw [Text.Utf8.encodeAscii (number ▸ small), number]
  unfold escape
  split
  · exact ⟨_, spellsShort (by decide) rfl (known (congrArg Char.toNat ‹_›) (by decide))⟩
  split
  · exact ⟨_, spellsShort (by decide) rfl (known (congrArg Char.toNat ‹_›) (by decide))⟩
  split
  · exact ⟨_, spellsShort (by decide) rfl (known ‹_› (by decide))⟩
  split
  · exact ⟨_, spellsShort (by decide) rfl (known ‹_› (by decide))⟩
  split
  · exact ⟨_, spellsShort (by decide) rfl (known ‹_› (by decide))⟩
  split
  · exact ⟨_, spellsShort (by decide) rfl (known ‹_› (by decide))⟩
  split
  · exact ⟨_, spellsShort (by decide) rfl (known ‹_› (by decide))⟩
  split
  · have high := Text.encodeDigit (show character.toNat / 16 < 16 by omega)
    have low := Text.encodeDigit (show character.toNat % 16 < 16 by omega)
    have digits : ['\\', 'u', '0', '0', Nat.digitChar (character.toNat / 16),
        Nat.digitChar (character.toNat % 16)].flatMap String.utf8EncodeChar =
        [0x5c, 0x75, 0x30, 0x30, Text.digitByte (character.toNat / 16),
          Text.digitByte (character.toNat % 16)] := by
      simp only [List.flatMap_cons, List.flatMap_nil, high, low]
      rfl
    have spelled := Spells.unit ‹character.toNat < 0x20›
    rw [Char.ofNat_toNat] at spelled
    exact ⟨_, digits ▸ spelled⟩
  · rw [List.flatMap_singleton]
    exact ⟨_, .plain (freeOfChar ‹_› ‹_› (Nat.le_of_not_lt ‹_›))⟩

/-- The bytes of a text between quotes, after the first quote. -/
def quotedTail (text : String) : List UInt8 :=
  (text.toList.flatMap escape).flatMap String.utf8EncodeChar ++ [0x22]

theorem encodeQuoted (text : String) : Text.Utf8.encode (quoted text) = 0x22 :: quotedTail text := by
  rw [quoted, Text.Utf8.encodeOfList, List.cons_append, List.flatMap_cons, List.flatMap_append]
  rfl

/-- A text between quotes is read back. -/
theorem readQuoted (text : String) : ∃ pieces, textOf? pieces = some text ∧
    ∀ rest, readPieces (quotedTail text ++ rest) = some (pieces, rest) := by
  have spelled : ∀ characters : List Char, ∃ pieces,
      Spells ((characters.flatMap escape).flatMap String.utf8EncodeChar) pieces
        (characters.flatMap String.utf8EncodeChar) := by
    intro characters
    induction characters with
    | nil => exact ⟨[], .nil⟩
    | cons character rest inductionHypothesis =>
        obtain ⟨first, spelledFirst⟩ := spellsEscape character
        obtain ⟨others, spelledRest⟩ := inductionHypothesis
        refine ⟨first ++ others, ?_⟩
        rw [List.flatMap_cons, List.flatMap_append, List.flatMap_cons]
        exact spelledFirst.append spelledRest
  obtain ⟨pieces, spells⟩ := spelled text.toList
  refine ⟨pieces, ?_, fun rest => ?_⟩
  · have bytes := spells.stand []
    rw [List.append_nil, bytesOf?, Option.map_some, List.append_nil, ← Text.Utf8.encodeEq] at bytes
    rw [textOf?, bytes, Option.bind_some, Text.Utf8.textEncode]
  · rw [quotedTail, List.append_assoc, spells.read, List.singleton_append, readPieces.eq_def]
    dsimp only
    rw [if_pos rfl, Option.map_some, List.append_nil]

end Backfill.Json
