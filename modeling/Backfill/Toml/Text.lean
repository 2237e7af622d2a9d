/-
This file writes texts as values of configuration files, in the plainest notation that can hold
them.
-/

namespace Backfill.Toml

/-- The length of the longest run of a character. -/
def longestRun (mark : Char) (text : List Char) : Nat :=
  (text.foldl (fun (run, longest) character =>
    if character = mark then (run + 1, max longest (run + 1)) else (0, longest)) (0, 0)).2

/-- Whether a character is a control that only an escape can write; tabs and line feeds are not. -/
def needsCode (character : Char) : Bool :=
  (character.toNat < 0x20 && character ≠ '\t' && character ≠ '\n') || character.toNat = 0x7f

/-- A text is written with or without escapes, on one line or on several. -/
inductive Quoting
  | basic
  | literal
  | longBasic
  | longLiteral
deriving DecidableEq, Repr

/-- What a text needs of a notation. -/
structure Needs where
  codes : Bool
  backslash : Bool
  lines : Bool
  singleQuotes : Nat
  doubleQuotes : Nat

/-- What a text needs. -/
def Needs.of (text : List Char) : Needs :=
  { codes := text.any needsCode
    backslash := text.contains '\\'
    lines := text.contains '\n'
    singleQuotes := longestRun '\'' text
    doubleQuotes := longestRun '"' text }

/-- The first notation that holds a text without escapes, on one line before several and with
double quotes before single ones; else one with escapes. -/
def Needs.quoting (needs : Needs) : Quoting :=
  if !needs.codes && !needs.backslash && needs.doubleQuotes = 0 && !needs.lines then .basic
  else if !needs.codes && needs.singleQuotes = 0 && !needs.lines then .literal
  else if !needs.codes && !needs.backslash && needs.doubleQuotes ≤ 2 then .longBasic
  else if !needs.codes && needs.singleQuotes ≤ 2 then .longLiteral
  else if needs.lines then .longBasic
  else .basic

/-- The mark at both ends of a notation. -/
def Quoting.mark : Quoting → String
  | .basic => "\""
  | .literal => "'"
  | .longBasic => "\"\"\""
  | .longLiteral => "'''"

/-- Whether a notation holds several lines. -/
def Quoting.isLong : Quoting → Bool
  | .longBasic => true
  | .longLiteral => true
  | _ => false

/-- The code of a control, in four digits. -/
def codeEscape (character : Char) : List Char :=
  let digits := (Nat.toDigits 16 character.toNat).map Char.toUpper
  ['\\', 'u'] ++ List.replicate (4 - digits.length) '0' ++ digits

/-- A character in a notation with escapes, other than a quote. -/
def escapeChar (long : Bool) (character : Char) : List Char :=
  if character.toNat = 0x08 then ['\\', 'b']
  else if character = '\t' then ['\\', 't']
  else if character = '\n' then if long then ['\n'] else ['\\', 'n']
  else if character.toNat = 0x0c then ['\\', 'f']
  else if character = '\r' then ['\\', 'r']
  else if character = '\\' then ['\\', '\\']
  else if needsCode character then codeEscape character
  else [character]

/-- Characters in a notation with escapes, among them a quote when more than `allowed` of them would
stand in a row. -/
def escapeChars (long : Bool) : Nat → List Char → List Char
  | _, [] => []
  | row, character :: rest =>
      if character = '"' then
        if row + 1 ≤ (if long then 2 else 0) then '"' :: escapeChars long (row + 1) rest
        else '\\' :: '"' :: escapeChars long 0 rest
      else escapeChar long character ++ escapeChars long 0 rest

/-- The characters of a text between the marks of a notation. -/
def Quoting.body : Quoting → List Char → List Char
  | .basic, text => escapeChars false 0 text
  | .longBasic, text => escapeChars true 0 text
  | _, text => text

/-- A text as a value, where a line break after the opening mark belongs to the notation. -/
def quoted (text : String) : String :=
  let characters := text.toList
  let needs := Needs.of characters
  let choice := needs.quoting
  choice.mark ++ (if choice.isLong && needs.lines then "\n" else "") ++
    String.ofList (choice.body characters) ++ choice.mark

end Backfill.Toml
