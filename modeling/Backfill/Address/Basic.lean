/-
This file brings web addresses into their standard form.
-/

import Backfill.Address.Host
import Backfill.Text.Decimal

namespace Backfill

/-- The address of a request has a host, and a port unless it is the usual one. -/
structure WebAddress where
  scheme : String
  host : String
  port : Option Nat
  /-- The path with what follows it. -/
  place : String
deriving DecidableEq, Repr

namespace WebAddress

/-- This is the text of an address. -/
def text (address : WebAddress) : String :=
  let port := (address.port.map fun port => s!":{port}").getD ""
  address.scheme ++ "://" ++ address.host ++ port ++ address.place

/-- The schemes and their usual ports. -/
def schemes : List (String × Nat) :=
  [("http", 80), ("https", 443)]

/-- Characters that are passed over wherever they stand. -/
def isSkipped (character : Char) : Bool :=
  character = '\t' || character = '\n' || character = '\r'

/-- A text without controls and spaces at its ends, and without tabs and line ends. -/
def clean (text : List Char) : List Char :=
  let isMargin (character : Char) : Bool := character.toNat ≤ 0x20
  let trimmed := ((text.dropWhile isMargin).reverse.dropWhile isMargin).reverse
  trimmed.filter (!isSkipped ·)

/-- Both kinds of slash separate the parts of a path. -/
def isSlash (character : Char) : Bool :=
  character = '/' || character = '\\'

/-- What ends the host and port. -/
def endsAuthority (character : Char) : Bool :=
  isSlash character || character = '?' || character = '#'

/-- A byte as a percent sign and two upper-case digits. -/
def percentEncode (byte : UInt8) : List Char :=
  let digit (value : Nat) : Char := (Nat.digitChar value).toUpper
  ['%', digit (byte.toNat / 16), digit (byte.toNat % 16)]

/-- A text in which controls, characters beyond the first 127 and those of a list are encoded. -/
def encodeText (reserved : List Char) (text : List Char) : List Char :=
  text.flatMap fun character =>
    if character.toNat < 0x20 ∨ 0x7f ≤ character.toNat ∨ reserved.contains character then
      (Text.Utf8.encode character.toString).flatMap percentEncode
    else [character]

/-- The characters that are encoded in a path. -/
def pathReserved : List Char := " \"#<>?`\x7b\x7d".toList

/-- The characters that are encoded in a query. -/
def queryReserved : List Char := " \"#<>'".toList

/-- The characters that are encoded in a fragment. -/
def fragmentReserved : List Char := " \"<>`".toList

/-- A step of a path in which encoded points are read as points. -/
def plainStep : List Char → List Char
  | '%' :: '2' :: 'e' :: rest => '.' :: plainStep rest
  | '%' :: '2' :: 'E' :: rest => '.' :: plainStep rest
  | character :: rest => character :: plainStep rest
  | [] => []

/-- The steps of a path, where one point stays where it is and two go back. -/
def walk : List (List Char) → List (List Char) → List (List Char)
  | taken, [] => taken.reverse
  | taken, step :: rest =>
      let next :=
        if plainStep step = ['.', '.'] then taken.tail
        else if plainStep step = ['.'] then taken
        else step :: taken
      if (plainStep step = ['.', '.'] ∨ plainStep step = ['.']) ∧ rest.isEmpty then
        ([] :: next).reverse
      else walk next rest

/-- The standard form of a path. -/
def pathText (path : List Char) : List Char :=
  let steps := Text.splitOn '/' (path.map fun character => if isSlash character then '/' else character)
  let steps := if 1 < steps.length ∧ steps.head? = some [] then steps.tail else steps
  (walk [] steps).flatMap fun step => '/' :: encodeText pathReserved step

/-- The standard form of what follows the host and port. -/
def placeText (rest : List Char) : List Char :=
  let (front, fragment) :=
    match Text.cutAt? '#' rest with
    | some (front, fragment) => (front, '#' :: encodeText fragmentReserved fragment)
    | none => (rest, [])
  let (path, query) :=
    match Text.cutAt? '?' front with
    | some (path, query) => (path, '?' :: encodeText queryReserved query)
    | none => (front, [])
  pathText path ++ query ++ fragment

/-- What follows the last at sign of the part before the path. -/
def dropUser (authority : List Char) : List Char :=
  (authority.reverse.takeWhile (· ≠ '@')).reverse

/-- The host and the port are divided by the first colon outside brackets. -/
def cutPort : Bool → List Char → List Char × Option (List Char)
  | _, [] => ([], none)
  | inside, character :: rest =>
      if character = ':' ∧ inside = false then ([], some rest)
      else
        let (host, port) :=
          cutPort (if character = '[' then true else if character = ']' then false else inside) rest
        (character :: host, port)

/-- The port that digits write; there may be none. -/
def port? (written : Option (List Char)) : Option (Option Nat) :=
  match written with
  | none => some none
  | some [] => some none
  | some digits =>
      if digits.all (Text.digitValue? · |>.isSome) then
        (Text.readDigits 65535 0 digits).toOption.map some
      else none

/-- The address that a text writes. -/
def ofText? (text : List Char) : Option WebAddress := do
  let (scheme, rest) ← Text.cutAt? ':' (clean text)
  let scheme := String.ofList (scheme.map Char.toLower)
  let usualPort ← schemes.lookup scheme
  let rest := rest.dropWhile isSlash
  let (hostText, portText) := cutPort false (dropUser (rest.takeWhile (!endsAuthority ·)))
  let host ← Address.host? hostText
  let port ← port? portText
  return {
    scheme, host
    port := port.filter (· ≠ usualPort)
    place := String.ofList (placeText (rest.dropWhile (!endsAuthority ·))) }

example : pathText "/a/../b c".toList = "/b%20c".toList := by cbv

end WebAddress

end Backfill
