/-
This file reads and writes the numeric addresses of eight groups.
-/

import Backfill.Address.Ipv4

namespace Backfill.Address

/-- A group of one to four hexadecimal digits. -/
def group? (digits : List Char) : Option Nat :=
  if 1 ≤ digits.length ∧ digits.length ≤ 4 then digitsIn? 16 digits else none

/-- A byte in decimal without a leading zero. -/
def decimalByte? (digits : List Char) : Option Nat :=
  match digits with
  | [] => none
  | ['0'] => some 0
  | '0' :: _ => none
  | digits => (digitsIn? 10 digits).filter (· < 256)

/-- Four bytes with points between them stand for two groups. -/
def dottedGroups? (text : List Char) : Option (List Nat) :=
  match (Text.splitOn '.' text).mapM decimalByte? with
  | some [first, second, third, fourth] => some [first * 256 + second, third * 256 + fourth]
  | _ => none

/-- The groups that pieces write; only the last piece may be dotted. -/
def groups? : List (List Char) → Option (List Nat)
  | [] => some []
  | [last] =>
      match group? last with
      | some value => some [value]
      | none => dottedGroups? last
  | piece :: rest => do
      let value ← group? piece
      let values ← groups? rest
      return value :: values

/-- The groups that a text without an omission writes; an empty text writes none. -/
def groupRun? (text : List Char) : Option (List Nat) :=
  if text.isEmpty then some [] else groups? (Text.splitOn ':' text)

/-- A text around its first omission mark, which is two colons. -/
def cutAtOmission? : List Char → Option (List Char × List Char)
  | ':' :: ':' :: rest => some ([], rest)
  | [] => none
  | character :: rest => (cutAtOmission? rest).map fun (front, back) => (character :: front, back)

/-- The number of groups in an address. -/
def groupCount : Nat := 8

/-- The groups of an address, which may leave out one run of zeros behind groups that are not
dotted. -/
def ipv6? (text : List Char) : Option (List Nat) :=
  match cutAtOmission? text with
  | none => (groupRun? text).filter (·.length = groupCount)
  | some (front, back) => do
      if front.contains '.' then none
      let first ← groupRun? front
      let last ← groupRun? back
      if first.length + last.length < groupCount then
        return first ++ List.replicate (groupCount - first.length - last.length) 0 ++ last
      else none

/-- The length of the run of zeros at the start. -/
def zeroRun (groups : List Nat) : Nat :=
  (groups.takeWhile (· = 0)).length

/-- The longest run of zeros at or after each position. -/
def longestZeroRun : List Nat → Nat
  | [] => 0
  | group :: rest => max (zeroRun (group :: rest)) (longestZeroRun rest)

/-- The groups before the first run of `length` zeros and those after it. -/
def cutAtZeros (length : Nat) : List Nat → List Nat × List Nat
  | [] => ([], [])
  | group :: rest =>
      if zeroRun (group :: rest) = length then ([], (group :: rest).drop length)
      else
        let (front, back) := cutAtZeros length rest
        (group :: front, back)

/-- The groups in hexadecimal with colons between them. -/
def groupsText (groups : List Nat) : String :=
  ":".intercalate (groups.map fun group => String.ofList (Nat.toDigits 16 group))

/-- The shortest text of an address leaves out the first of its longest runs of two zeros or
more. -/
def ipv6Text (groups : List Nat) : String :=
  let longest := longestZeroRun groups
  if longest < 2 then groupsText groups
  else
    let (front, back) := cutAtZeros longest groups
    groupsText front ++ "::" ++ groupsText back

example : (ipv6? "1:0:0:2::127.0.0.1".toList).map ipv6Text = some "1::2:0:0:7f00:1" := by cbv

example : ipv6? "1:2:3:4:5:6:7:8::".toList = none := by decide

end Backfill.Address
