/-
This file cuts the bytes of a JSON document into tokens.
-/

import Backfill.Datum.Basic
import Backfill.Text.Utf8

namespace Backfill.Json

/-- A piece of a text between quotes is a byte of its own or a sixteen-bit unit from an escape. -/
inductive Piece
  | byte (value : UInt8)
  | unit (value : Nat)
deriving DecidableEq, Repr

/-- The digits of a number as it is written. -/
structure NumberText where
  negative : Bool
  whole : List Nat
  fraction : Option (List Nat)
  exponent : Option (Bool × List Nat)
deriving DecidableEq, Repr

/-- The tokens of a document; `bad` stands for the first bytes that are none. -/
inductive Token
  | openTable
  | closeTable
  | openList
  | closeList
  | comma
  | colon
  | null
  | boolean (value : Bool)
  | number (written : NumberText)
  | text (pieces : List Piece)
  | bad
deriving DecidableEq, Repr

/-- The value of a hexadecimal digit. -/
def hexValue? (byte : UInt8) : Option Nat :=
  let code := byte.toNat
  if 0x30 ≤ code ∧ code ≤ 0x39 then some (code - 0x30)
  else if 0x61 ≤ code ∧ code ≤ 0x66 then some (code - 0x61 + 10)
  else if 0x41 ≤ code ∧ code ≤ 0x46 then some (code - 0x41 + 10)
  else none

/-- The unit that four hexadecimal digits write. -/
def unitOf? (first second third fourth : UInt8) : Option Nat := do
  let a ← hexValue? first
  let b ← hexValue? second
  let c ← hexValue? third
  let d ← hexValue? fourth
  return ((a * 16 + b) * 16 + c) * 16 + d

/-- The byte that a short escape stands for. -/
def shortEscape? (byte : UInt8) : Option UInt8 :=
  if byte = 0x22 ∨ byte = 0x5c ∨ byte = 0x2f then some byte
  else if byte = 0x62 then some 0x08
  else if byte = 0x66 then some 0x0c
  else if byte = 0x6e then some 0x0a
  else if byte = 0x72 then some 0x0d
  else if byte = 0x74 then some 0x09
  else none

/-- The pieces of a text up to its closing quote, without control characters and wrong escapes, and
the bytes after it. -/
def readPieces : List UInt8 → Option (List Piece × List UInt8)
  | [] => none
  | byte :: rest =>
      if byte = 0x22 then some ([], rest)
      else if byte = 0x5c then
        match rest with
        | [] => none
        | mark :: rest =>
            if mark = 0x75 then
              match rest with
              | first :: second :: third :: fourth :: rest =>
                  match unitOf? first second third fourth, readPieces rest with
                  | some value, some (pieces, rest) => some (.unit value :: pieces, rest)
                  | _, _ => none
              | _ => none
            else
              match shortEscape? mark, readPieces rest with
              | some value, some (pieces, rest) => some (.byte value :: pieces, rest)
              | _, _ => none
      else if byte.toNat < 0x20 then none
      else
        match readPieces rest with
        | some (pieces, rest) => some (.byte byte :: pieces, rest)
        | none => none

/-- The bytes of pieces, in which two units that are halves of one character make that character. -/
def bytesOf? : List Piece → Option (List UInt8)
  | [] => some []
  | .byte value :: rest => (bytesOf? rest).map (value :: ·)
  | .unit first :: rest =>
      if first < 0xd800 ∨ 0xe000 ≤ first then
        (bytesOf? rest).map (Text.Utf8.encode (String.singleton (Char.ofNat first)) ++ ·)
      else if first < 0xdc00 then
        match rest with
        | .unit second :: rest =>
            if 0xdc00 ≤ second ∧ second < 0xe000 then
              let code := 0x10000 + (first - 0xd800) * 0x400 + (second - 0xdc00)
              (bytesOf? rest).map (Text.Utf8.encode (String.singleton (Char.ofNat code)) ++ ·)
            else none
        | _ => none
      else none

/-- The text that pieces stand for, if they are a well-formed one. -/
def textOf? (pieces : List Piece) : Option String :=
  (bytesOf? pieces).bind Text.Utf8.text?

/-- Whether a byte is a decimal digit. -/
def isDigit (byte : UInt8) : Bool :=
  0x30 ≤ byte.toNat && byte.toNat ≤ 0x39

/-- The digits at the start of a byte string, and the bytes after them. -/
def readDigits : List UInt8 → List Nat × List UInt8
  | [] => ([], [])
  | byte :: rest =>
      if isDigit byte then
        let (digits, rest) := readDigits rest
        ((byte.toNat - 0x30) :: digits, rest)
      else ([], byte :: rest)

/-- The part after a point, which needs a digit. -/
def readFraction : List UInt8 → Option (Option (List Nat) × List UInt8)
  | 0x2e :: rest =>
      match readDigits rest with
      | ([], _) => none
      | (digits, rest) => some (some digits, rest)
  | bytes => some (none, bytes)

/-- An optional sign. -/
def readSign : List UInt8 → Bool × List UInt8
  | 0x2d :: rest => (true, rest)
  | 0x2b :: rest => (false, rest)
  | bytes => (false, bytes)

/-- The part after an exponent mark, which needs a digit. -/
def readExponent : List UInt8 → Option (Option (Bool × List Nat) × List UInt8)
  | [] => some (none, [])
  | byte :: rest =>
      if byte = 0x65 ∨ byte = 0x45 then
        match readDigits (readSign rest).2 with
        | ([], _) => none
        | (digits, after) => some (some ((readSign rest).1, digits), after)
      else some (none, byte :: rest)

/-- A number starts with a digit; a leading zero stands alone before the point. -/
def readNumber (negative : Bool) (bytes : List UInt8) : Option (NumberText × List UInt8) :=
  match readDigits bytes with
  | ([], _) => none
  | (0 :: _ :: _, _) => none
  | (whole, rest) => do
      let (fraction, rest) ← readFraction rest
      let (exponent, rest) ← readExponent rest
      return (⟨negative, whole, fraction, exponent⟩, rest)

/-- Whether a byte may stand between tokens. -/
def isSpace (byte : UInt8) : Bool :=
  byte = 0x20 || byte = 0x0a || byte = 0x0d || byte = 0x09

/-- The rest of a byte string after an expected start. -/
def dropStart? : List UInt8 → List UInt8 → Option (List UInt8)
  | [], bytes => some bytes
  | _ :: _, [] => none
  | expected :: more, byte :: rest => if byte = expected then dropStart? more rest else none

/-- The token that one byte makes. -/
def mark? (byte : UInt8) : Option Token :=
  if byte = 0x7b then some .openTable
  else if byte = 0x7d then some .closeTable
  else if byte = 0x5b then some .openList
  else if byte = 0x5d then some .closeList
  else if byte = 0x2c then some .comma
  else if byte = 0x3a then some .colon
  else none

/-- The words that are tokens, each with its first byte and the others. -/
def words : List (UInt8 × List UInt8 × Token) :=
  [(0x6e, [0x75, 0x6c, 0x6c], .null),
    (0x74, [0x72, 0x75, 0x65], .boolean true),
    (0x66, [0x61, 0x6c, 0x73, 0x65], .boolean false)]

/-- The token that starts with a byte which is no space. -/
def readToken (byte : UInt8) (rest : List UInt8) : Option (Token × List UInt8) :=
  match mark? byte with
  | some token => some (token, rest)
  | none =>
      match words.lookup byte with
      | some (more, token) => (dropStart? more rest).map fun rest => (token, rest)
      | none =>
          if byte = 0x22 then (readPieces rest).map fun read => (.text read.1, read.2)
          else if byte = 0x2d then
            (readNumber true rest).map fun read => (.number read.1, read.2)
          else (readNumber false (byte :: rest)).map fun read => (.number read.1, read.2)

theorem readPiecesLength {bytes rest : List UInt8} {pieces : List Piece}
    (read : readPieces bytes = some (pieces, rest)) : rest.length < bytes.length := by
  fun_induction readPieces bytes generalizing pieces rest <;> simp_all <;> grind

theorem readDigitsLength (bytes : List UInt8) : (readDigits bytes).2.length ≤ bytes.length := by
  fun_induction readDigits bytes with
  | case1 => simp
  | case2 byte rest digit digits after read ih =>
      simp only [read] at ih
      simp only [List.length_cons]
      omega
  | case3 => simp

theorem readFractionLength {bytes rest : List UInt8} {fraction : Option (List Nat)}
    (read : readFraction bytes = some (fraction, rest)) : rest.length ≤ bytes.length := by
  unfold readFraction at read
  split at read
  · rename_i after
    have shorter := readDigitsLength after
    split at read
    · cases read
    · rename_i same
      simp_all only [Option.some.injEq, Prod.mk.injEq, List.length_cons]
      omega
  · simp_all

theorem readSignLength (bytes : List UInt8) : (readSign bytes).2.length ≤ bytes.length := by
  unfold readSign
  split <;> simp

theorem readExponentLength {bytes rest : List UInt8} {exponent : Option (Bool × List Nat)}
    (read : readExponent bytes = some (exponent, rest)) : rest.length ≤ bytes.length := by
  unfold readExponent at read
  split at read
  · simp_all
  · rename_i byte after
    have signShorter := readSignLength after
    have digitsShorter := readDigitsLength (readSign after).2
    split at read
    · split at read
      · cases read
      · rename_i same
        simp_all only [Option.some.injEq, Prod.mk.injEq, List.length_cons]
        omega
    · simp_all

theorem readDigitsShorter {bytes rest : List UInt8} {first : Nat} {digits : List Nat}
    (read : readDigits bytes = (first :: digits, rest)) : rest.length < bytes.length := by
  cases bytes with
  | nil => simp [readDigits] at read
  | cons byte after =>
      have shorter := readDigitsLength after
      rw [readDigits] at read
      split at read
      · obtain ⟨_, rfl⟩ := Prod.mk.inj read
        simp only [List.length_cons]
        omega
      · simp at read

theorem readNumberLength {negative : Bool} {bytes rest : List UInt8} {written : NumberText}
    (read : readNumber negative bytes = some (written, rest)) : rest.length < bytes.length := by
  unfold readNumber at read
  split at read
  · cases read
  · cases read
  · rename_i whole after notEmpty _ same
    cases whole with
    | nil => exact absurd rfl (notEmpty)
    | cons first digits =>
        have digitsShorter := readDigitsShorter same
        obtain ⟨⟨fraction, afterFraction⟩, fractionRead, read⟩ := Option.bind_eq_some_iff.mp read
        obtain ⟨⟨exponent, afterExponent⟩, exponentRead, read⟩ := Option.bind_eq_some_iff.mp read
        have fractionShorter := readFractionLength fractionRead
        have exponentShorter := readExponentLength exponentRead
        simp only [Option.pure_def, Option.some.injEq, Prod.mk.injEq] at read
        obtain ⟨_, rfl⟩ := read
        omega

theorem dropStartLength {expected bytes rest : List UInt8}
    (dropped : dropStart? expected bytes = some rest) : rest.length ≤ bytes.length := by
  fun_induction dropStart? expected bytes with
  | case1 => simp_all
  | case2 => cases dropped
  | case3 more byte after ih =>
      have shorter := ih dropped
      simp only [List.length_cons]
      omega
  | case4 => cases dropped

theorem readTokenLength {byte : UInt8} {bytes rest : List UInt8} {token : Token}
    (read : readToken byte bytes = some (token, rest)) : rest.length ≤ bytes.length := by
  unfold readToken at read
  split at read
  · obtain ⟨_, rfl⟩ := Prod.mk.inj (Option.some.inj read)
    exact Nat.le_refl _
  · split at read
    · obtain ⟨found, foundRead, same⟩ := Option.map_eq_some_iff.mp read
      obtain ⟨_, rfl⟩ := Prod.mk.inj same
      exact dropStartLength foundRead
    · by_cases quoted : byte = 0x22
      · rw [if_pos quoted] at read
        obtain ⟨found, foundRead, same⟩ := Option.map_eq_some_iff.mp read
        obtain ⟨_, rfl⟩ := Prod.mk.inj same
        exact Nat.le_of_lt (readPiecesLength foundRead)
      · rw [if_neg quoted] at read
        by_cases signed : byte = 0x2d
        · rw [if_pos signed] at read
          obtain ⟨found, foundRead, same⟩ := Option.map_eq_some_iff.mp read
          obtain ⟨_, rfl⟩ := Prod.mk.inj same
          exact Nat.le_of_lt (readNumberLength foundRead)
        · rw [if_neg signed] at read
          obtain ⟨found, foundRead, same⟩ := Option.map_eq_some_iff.mp read
          obtain ⟨_, rfl⟩ := Prod.mk.inj same
          exact Nat.le_of_lt_succ (readNumberLength foundRead)

/-- The tokens of a document up to the first that is none. -/
def tokens : List UInt8 → List Token
  | [] => []
  | byte :: rest =>
      if isSpace byte then tokens rest
      else
        match read : readToken byte rest with
        | none => [.bad]
        | some (token, after) =>
            have := readTokenLength read
            token :: tokens after
termination_by bytes => bytes.length

end Backfill.Json
