/-
This file brings the host of an address into its standard form.
-/

import Backfill.Address.Ipv6
import Backfill.Text.Utf8

namespace Backfill.Address

/-- The byte that two hexadecimal digits write. -/
def byteOfDigits? (high low : Char) : Option UInt8 := do
  return UInt8.ofNat ((← digitIn? 16 high) * 16 + (← digitIn? 16 low))

/-- The bytes of a text in which a byte may be written as a percent sign and two digits. -/
def percentDecode : List Char → List UInt8
  | '%' :: high :: low :: rest =>
      match byteOfDigits? high low with
      | some byte => byte :: percentDecode rest
      | none => 0x25 :: percentDecode (high :: low :: rest)
  | character :: rest => Text.Utf8.encode character.toString ++ percentDecode rest
  | [] => []

example : percentDecode "%4a%4".toList = [0x4a, 0x25, 0x34] := by cbv

/-- The characters that no host has. -/
def isForbidden (character : Char) : Bool :=
  character.toNat ≤ 0x20 || character.toNat = 0x7f || "#/:<>?@[\\]^|%".toList.contains character

/-- The standard form of a host: a name in lower case, or a numeric address. -/
def host? (text : List Char) : Option String :=
  match text with
  | '[' :: inner =>
      if inner.getLast? = some ']' then
        (ipv6? inner.dropLast).map fun groups => "[" ++ ipv6Text groups ++ "]"
      else none
  | text =>
      let name := (Text.Utf8.decodeLossy (percentDecode text)).map Char.toLower
      if name.isEmpty || name.any isForbidden then none
      else if endsInNumber name then (ipv4? name).map ipv4Text
      else some (String.ofList name)

end Backfill.Address
