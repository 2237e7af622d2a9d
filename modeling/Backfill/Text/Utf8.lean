/-
This file reads bytes as text in the eight-bit encoding of characters.
-/

namespace Backfill.Text.Utf8

/-- A first byte fixes how many bytes follow and the bounds of the first of them. -/
def shape? (lead : Nat) : Option (Nat × Nat × Nat) :=
  if lead < 0xc2 then none
  else if lead ≤ 0xdf then some (1, 0x80, 0xbf)
  else if lead = 0xe0 then some (2, 0xa0, 0xbf)
  else if lead = 0xed then some (2, 0x80, 0x9f)
  else if lead ≤ 0xef then some (2, 0x80, 0xbf)
  else if lead = 0xf0 then some (3, 0x90, 0xbf)
  else if lead ≤ 0xf3 then some (3, 0x80, 0xbf)
  else if lead = 0xf4 then some (3, 0x80, 0x8f)
  else none

/-- The bits that a first byte contributes. -/
def leadBits (lead count : Nat) : Nat :=
  lead % Nat.pow 2 (6 - count)

/-- The remaining bytes of one character extend its value; at the first byte out of bounds the
character is malformed and that byte is not used. -/
def continuation : Nat → Nat → Nat → Nat → List UInt8 → Option Char × List UInt8
  | 0, _, _, value, rest => (some (Char.ofNat value), rest)
  | _ + 1, _, _, _, [] => (none, [])
  | count + 1, least, greatest, value, byte :: rest =>
      if least ≤ byte.toNat ∧ byte.toNat ≤ greatest then
        continuation count 0x80 0xbf (value * 64 + byte.toNat % 64) rest
      else (none, byte :: rest)

/-- One character, or a malformed piece of greatest length, and the bytes after it. -/
def step (lead : UInt8) (rest : List UInt8) : Option Char × List UInt8 :=
  if lead.toNat < 0x80 then (some (Char.ofNat lead.toNat), rest)
  else
    match shape? lead.toNat with
    | none => (none, rest)
    | some (count, least, greatest) =>
        continuation count least greatest (leadBits lead.toNat count) rest

theorem continuationLength (count least greatest value : Nat) (bytes : List UInt8) :
    (continuation count least greatest value bytes).2.length ≤ bytes.length := by
  induction bytes generalizing count least greatest value with
  | nil => cases count <;> simp [continuation]
  | cons byte rest inductionHypothesis =>
      cases count with
      | zero => simp [continuation]
      | succ count =>
          rw [continuation]
          split
          · have shorter := inductionHypothesis count 0x80 0xbf (value * 64 + byte.toNat % 64)
            simp only [List.length_cons]
            omega
          · simp

theorem stepLength (lead : UInt8) (rest : List UInt8) :
    (step lead rest).2.length ≤ rest.length := by
  unfold step
  split
  · simp
  · split
    · simp
    · exact continuationLength ..

/-- The pieces of a byte string in order; a malformed piece is `none`. -/
def pieces : List UInt8 → List (Option Char)
  | [] => []
  | lead :: rest =>
      have := stepLength lead rest
      (step lead rest).1 :: pieces (step lead rest).2
termination_by bytes => bytes.length
decreasing_by simp only [List.length_cons]; omega

/-- The characters of well-formed bytes. -/
def decode? (bytes : List UInt8) : Option (List Char) :=
  (pieces bytes).mapM id

/-- The characters of any bytes, with the replacement character for each malformed piece. -/
def decodeLossy (bytes : List UInt8) : List Char :=
  (pieces bytes).map fun piece => piece.getD (Char.ofNat 0xfffd)

/-- The text of well-formed bytes. -/
def text? (bytes : List UInt8) : Option String :=
  (decode? bytes).map String.ofList

/-- The bytes of a text. -/
def encode (text : String) : List UInt8 :=
  text.toUTF8.toList

end Backfill.Text.Utf8
