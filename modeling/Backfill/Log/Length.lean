/-
This file reads and writes the lengths that stand before the records of a log: groups of seven
bits, the lowest group first, each but the last with a mark.
-/

namespace Backfill.Length

/-- The bytes of a length. -/
def write (length : Nat) : List UInt8 :=
  if length < 128 then [UInt8.ofNat length]
  else UInt8.ofNat (length % 128 + 128) :: write (length / 128)
termination_by length
decreasing_by omega

/-- What stands at an offset: a length with the offset after it, bits beyond a word, or the end of
the data. -/
inductive Found
  | length (value next : Nat)
  | overflow
  | cutOff
deriving DecidableEq, Repr

/-- Bits beyond a word are read to the end of their group. -/
def skip (data : Array UInt8) (offset : Nat) : Found :=
  if inside : offset < data.size then
    if data[offset].toNat < 128 then .overflow else skip data (offset + 1)
  else .cutOff
termination_by data.size - offset

/-- The shift of the only bit that the tenth group has. -/
def lastShift : Nat := 63

/-- The length at an offset, of which the bits below `shift` are known. -/
def readFrom (data : Array UInt8) (shift known offset : Nat) : Found :=
  if inside : offset < data.size then
    let byte := data[offset].toNat
    if shift = lastShift ∧ 1 < byte then skip data offset
    else
      let value := known + byte % 128 * Nat.pow 2 shift
      if byte < 128 then .length value (offset + 1)
      else readFrom data (shift + 7) value (offset + 1)
  else .cutOff
termination_by data.size - offset

/-- The length at an offset. -/
def read (data : Array UInt8) (offset : Nat) : Found :=
  readFrom data 0 0 offset

example : write 300 = [0xac, 0x02] := by cbv

example : read #[0xff, 0xac, 0x02] 1 = .length 300 3 := by cbv

end Backfill.Length
