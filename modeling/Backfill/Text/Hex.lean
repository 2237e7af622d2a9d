/-
This file writes bytes as pairs of hexadecimal digits and reads them back.
-/

import Backfill.Text.Quoted
import Backfill.Text.Utf8

namespace Backfill.Text

/-- The two lower-case digits of a byte. -/
def hexPair (byte : UInt8) : List Char :=
  [Nat.digitChar (byte.toNat / 16), Nat.digitChar (byte.toNat % 16)]

/-- The digits of a byte string. -/
def hexChars (bytes : List UInt8) : List Char :=
  bytes.flatMap hexPair

/-- The text of a byte string. -/
def hex (bytes : List UInt8) : String :=
  String.ofList (hexChars bytes)

/-- A text can fail to be hexadecimal for these reasons. -/
inductive HexFault
  | oddLength
  | badDigit (byte : UInt8) (position : Nat)
deriving DecidableEq, Repr

/-- This is the wording of a fault; a byte is shown as the character with its number. -/
def HexFault.message : HexFault → String
  | .oddLength => "Odd number of digits"
  | .badDigit byte position =>
      s!"Invalid character {quoteChar (Char.ofNat byte.toNat)} at position {position}"

/-- The value of a digit of either case. -/
def hexDigitValue? (byte : UInt8) : Option Nat :=
  let code := byte.toNat
  if 0x30 ≤ code ∧ code ≤ 0x39 then some (code - 0x30)
  else if 0x61 ≤ code ∧ code ≤ 0x66 then some (code - 0x61 + 10)
  else if 0x41 ≤ code ∧ code ≤ 0x46 then some (code - 0x41 + 10)
  else none

/-- The bytes that pairs of digits write; the first wrong digit decides the fault. -/
def readHexPairs : Nat → List UInt8 → Except HexFault (List UInt8)
  | _, [] => .ok []
  | _, [_] => .error .oddLength
  | position, high :: low :: rest =>
      match hexDigitValue? high with
      | none => .error (.badDigit high position)
      | some highValue =>
          match hexDigitValue? low with
          | none => .error (.badDigit low (position + 1))
          | some lowValue =>
              (readHexPairs (position + 2) rest).map (UInt8.ofNat (highValue * 16 + lowValue) :: ·)

/-- The bytes that a text writes; its length is checked first. -/
def readHex (text : String) : Except HexFault (List UInt8) :=
  let bytes := Utf8.encode text
  if bytes.length % 2 = 1 then .error .oddLength else readHexPairs 0 bytes

end Backfill.Text
