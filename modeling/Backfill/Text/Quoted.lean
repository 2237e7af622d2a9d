/-
This file writes a text between double quotes with visible escapes.
-/

import Backfill.Text.Printable

namespace Backfill.Text

/-- The digits of a number in base sixteen, lower case. -/
def hexDigits (value : Nat) : List Char :=
  Nat.toDigits 16 value

/-- A character without a printable mark is written as its code. -/
def escapeCode (character : Char) : List Char :=
  ['\\', 'u', '{'] ++ hexDigits character.toNat ++ ['}']

/-- The controls with names and the backslash have short escapes, a mark in `marks` gets a
backslash, and characters that would not stand alone are written as codes. -/
def escapeChar (marks : List Char) (character : Char) : List Char :=
  if character = '\x00' then ['\\', '0']
  else if character = '\t' then ['\\', 't']
  else if character = '\r' then ['\\', 'r']
  else if character = '\n' then ['\\', 'n']
  else if character = '\\' then ['\\', '\\']
  else if marks.contains character then ['\\', character]
  else if character.toNat < 0x80 then
    if 0x20 ≤ character.toNat ∧ character.toNat < 0x7f then [character] else escapeCode character
  else if isCombining character || !isPrintable character then escapeCode character
  else [character]

/-- A quoted text escapes the double quote. -/
def quote (text : String) : String :=
  String.ofList ('"' :: text.toList.flatMap (escapeChar ['"']) ++ ['"'])

/-- A quoted path escapes both kinds of quote. -/
def quotePath (path : String) : String :=
  String.ofList ('"' :: path.toList.flatMap (escapeChar ['"', '\'']) ++ ['"'])

/-- A path that may be absent. -/
def optionalPath : Option String → String
  | some path => s!"Some({quotePath path})"
  | none => "None"

/-- A quoted character stands between single quotes, which it escapes. -/
def quoteChar (character : Char) : String :=
  String.ofList ('\'' :: escapeChar ['\''] character ++ ['\''])

example : quote "a\tb\"" = "\"a\\tb\\\"\"" := by rfl

end Backfill.Text
