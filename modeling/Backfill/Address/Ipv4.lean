/-
This file reads and writes the numeric addresses of four bytes.
-/

import Backfill.Text.Split

namespace Backfill.Address

/-- The value of a digit in a base of at most sixteen. -/
def digitIn? (base : Nat) (character : Char) : Option Nat :=
  let code := character.toNat
  let value :=
    if 0x30 ≤ code ∧ code ≤ 0x39 then code - 0x30
    else if 0x61 ≤ code ∧ code ≤ 0x66 then code - 0x61 + 10
    else if 0x41 ≤ code ∧ code ≤ 0x46 then code - 0x41 + 10
    else 16
  if value < base then some value else none

/-- The number that digits write in a base; no digits write zero. -/
def digitsIn? (base : Nat) (digits : List Char) : Option Nat :=
  (digits.mapM (digitIn? base)).map (·.foldl (fun value digit => value * base + digit) 0)

/-- A part of an address is decimal, octal after a leading zero, or hexadecimal after `0x`. -/
def part? : List Char → Option Nat
  | [] => none
  | '0' :: 'x' :: digits => digitsIn? 16 digits
  | '0' :: 'X' :: digits => digitsIn? 16 digits
  | '0' :: digits => digitsIn? 8 digits
  | digits => digitsIn? 10 digits

/-- The parts between the points; one point at the end is passed over. -/
def parts (text : List Char) : List (List Char) :=
  match (Text.splitOn '.' text).reverse with
  | [] :: last :: before => (last :: before).reverse
  | reversed => reversed.reverse

/-- Whether the last part of a host is a number, so that the host has to be such an address. -/
def endsInNumber (text : List Char) : Bool :=
  match (parts text).getLast? with
  | none => false
  | some [] => false
  | some last => last.all (digitIn? 10 · |>.isSome) || (part? last).isSome

/-- The first parts are bytes; the last fills the remaining bytes. -/
def combine : Nat → List Nat → Option Nat
  | _, [] => none
  | remaining, [last] => if last < Nat.pow 256 remaining then some last else none
  | 0, _ :: _ :: _ => none
  | remaining + 1, byte :: rest =>
      if byte < 256 then (combine remaining rest).map (byte * Nat.pow 256 remaining + ·) else none

/-- The address that a text writes, as one number. -/
def ipv4? (text : List Char) : Option Nat := do
  let numbers ← (parts text).mapM part?
  if numbers.length ≤ 4 then combine 4 numbers else none

/-- The four bytes of an address with points between them. -/
def ipv4Text (address : Nat) : String :=
  ".".intercalate ([24, 16, 8, 0].map fun shift => toString (address / Nat.pow 2 shift % 256))

example : (ipv4? "127.0x1".toList).map ipv4Text = some "127.0.0.1" := by decide +kernel

example : ipv4? "256.0.0.1".toList = none := by decide

end Backfill.Address
