/-
This file reads the keys, texts, numbers and dates of configuration files. Each reader takes what it
needs from the start of a text and returns the rest.
-/

import Backfill.Datum.Basic
import Backfill.Word

namespace Backfill.Toml

/-- A blank within a line. -/
def isGap (character : Char) : Bool :=
  character = ' ' || character = '\t'

/-- A text without the blanks at its start. -/
def dropGaps (text : List Char) : List Char :=
  text.dropWhile isGap

/-- The text after a line break. -/
def lineBreak? : List Char → Option (List Char)
  | '\n' :: rest => some rest
  | '\r' :: '\n' :: rest => some rest
  | _ => none

/-- A character that may stand in a comment or in a text: no control other than the tab. -/
def isPlain (character : Char) : Bool :=
  character = '\t' || (0x20 ≤ character.toNat && character.toNat ≠ 0x7f)

/-- A text without the comment at its start. -/
def dropComment : List Char → List Char
  | '#' :: rest => rest.dropWhile isPlain
  | text => text

/-- What follows the rest of a line, which may hold a comment. -/
def lineEnd? (text : List Char) : Option (List Char) :=
  match dropComment (dropGaps text) with
  | [] => some []
  | rest => lineBreak? rest

/-- The value of a digit in base sixteen. -/
def hexValue? (character : Char) : Option Nat :=
  if '0' ≤ character ∧ character ≤ '9' then some (character.toNat - '0'.toNat)
  else if 'a' ≤ character ∧ character ≤ 'f' then some (character.toNat - 'a'.toNat + 10)
  else if 'A' ≤ character ∧ character ≤ 'F' then some (character.toNat - 'A'.toNat + 10)
  else none

/-- The character whose code is written in base sixteen, unless it is no character. -/
def codeChar? (digits : List Char) : Option Char := do
  let values ← digits.mapM hexValue?
  let code := values.foldl (fun code value => code * 16 + value) 0
  if Nat.isValidChar code then some (Char.ofNat code) else none

/-- The character that a short escape stands for. -/
def shortEscape? : Char → Option Char
  | 'b' => some '\x08'
  | 't' => some '\t'
  | 'n' => some '\n'
  | 'f' => some '\x0c'
  | 'r' => some '\r'
  | '"' => some '"'
  | '\\' => some '\\'
  | _ => none

/-- A text read so far, and the rest. -/
abbrev Taken := Option (List Char × List Char)

/-- A further character before the ones taken. -/
def Taken.cons (character : Option Char) (taken : Taken) : Taken :=
  match character, taken with
  | some character, some (text, rest) => some (character :: text, rest)
  | _, _ => none

/-- The text up to a closing double quote. -/
def readBasic : List Char → Taken
  | [] => none
  | '"' :: rest => some ([], rest)
  | '\\' :: 'u' :: a :: b :: c :: d :: rest => (readBasic rest).cons (codeChar? [a, b, c, d])
  | '\\' :: 'U' :: a :: b :: c :: d :: e :: f :: g :: h :: rest =>
      (readBasic rest).cons (codeChar? [a, b, c, d, e, f, g, h])
  | '\\' :: mark :: rest => (readBasic rest).cons (shortEscape? mark)
  | character :: rest =>
      if isPlain character && character ≠ '\\' then (readBasic rest).cons (some character) else none

/-- The text up to a closing single quote. -/
def readLiteral : List Char → Taken
  | [] => none
  | '\'' :: rest => some ([], rest)
  | character :: rest =>
      if isPlain character then (readLiteral rest).cons (some character) else none

/-- What stands after three quotes that may end a long text: up to two more quotes still belong to
the text. -/
def closeLong (quote : Char) : List Char → Taken
  | first :: second :: rest =>
      if first = quote ∧ second = quote then some ([quote, quote], rest)
      else if first = quote then some ([quote], second :: rest)
      else some ([], first :: second :: rest)
  | [first] => if first = quote then some ([quote], []) else some ([], [first])
  | [] => some ([], [])

/-- Whether a backslash before this text swallows a line break. -/
def swallowsBreak (text : List Char) : Bool :=
  (lineBreak? (dropGaps text)).isSome

/-- The text up to three closing double quotes, without the blanks and line breaks after a backslash
at the end of a line. -/
def readLongBasic : Bool → List Char → Taken
  | _, [] => none
  | _, '"' :: '"' :: '"' :: rest => closeLong '"' rest
  | passing, '\r' :: '\n' :: rest =>
      if passing then readLongBasic true rest else (readLongBasic false rest).cons (some '\n')
  | passing, '\n' :: rest =>
      if passing then readLongBasic true rest else (readLongBasic false rest).cons (some '\n')
  | _, '\\' :: 'u' :: a :: b :: c :: d :: rest =>
      (readLongBasic false rest).cons (codeChar? [a, b, c, d])
  | _, '\\' :: 'U' :: a :: b :: c :: d :: e :: f :: g :: h :: rest =>
      (readLongBasic false rest).cons (codeChar? [a, b, c, d, e, f, g, h])
  | _, '\\' :: mark :: rest =>
      if swallowsBreak (mark :: rest) then readLongBasic true (mark :: rest)
      else (readLongBasic false rest).cons (shortEscape? mark)
  | passing, character :: rest =>
      if passing && isGap character then readLongBasic true rest
      else if isPlain character && character ≠ '\\' then
        (readLongBasic false rest).cons (some character)
      else none

/-- The text up to three closing single quotes. -/
def readLongLiteral : List Char → Taken
  | [] => none
  | '\'' :: '\'' :: '\'' :: rest => closeLong '\'' rest
  | '\r' :: '\n' :: rest => (readLongLiteral rest).cons (some '\n')
  | '\n' :: rest => (readLongLiteral rest).cons (some '\n')
  | character :: rest =>
      if isPlain character then (readLongLiteral rest).cons (some character) else none

/-- A line break right after the opening mark of a long text does not belong to it. -/
def dropBreak (text : List Char) : List Char :=
  (lineBreak? text).getD text

/-- A text in any notation, if one starts here. -/
def readText? : List Char → Option Taken
  | '"' :: '"' :: '"' :: rest => some (readLongBasic false (dropBreak rest))
  | '"' :: rest => some (readBasic rest)
  | '\'' :: '\'' :: '\'' :: rest => some (readLongLiteral (dropBreak rest))
  | '\'' :: rest => some (readLiteral rest)
  | _ => none

/-- A character of a key without quotes. -/
def isBare (character : Char) : Bool :=
  ('a' ≤ character && character ≤ 'z') || ('A' ≤ character && character ≤ 'Z') ||
    ('0' ≤ character && character ≤ '9') || character = '-' || character = '_'

/-- One part of a key. -/
def readKeyPart : List Char → Taken
  | '"' :: rest => readBasic rest
  | '\'' :: rest => readLiteral rest
  | text =>
      match text.takeWhile isBare with
      | [] => none
      | bare => some (bare, text.dropWhile isBare)

/-- A decimal digit. -/
def isDigit (character : Char) : Bool :=
  '0' ≤ character && character ≤ '9'

/-- The number that so many digits write. -/
def readFixed : Nat → Nat → List Char → Option (Nat × List Char)
  | 0, value, rest => some (value, rest)
  | count + 1, value, character :: rest =>
      if isDigit character then
        readFixed count (value * 10 + (character.toNat - '0'.toNat)) rest
      else none
  | _ + 1, _, [] => none

/-- The rest of a text after an expected character. -/
def expect (mark : Char) : List Char → Option (List Char)
  | character :: rest => if character = mark then some rest else none
  | [] => none

/-- The days of a month. -/
def monthDays (year month : Nat) : Nat :=
  if month = 2 then
    if year % 4 = 0 ∧ (year % 100 ≠ 0 ∨ year % 400 = 0) then 29 else 28
  else if month = 4 ∨ month = 6 ∨ month = 9 ∨ month = 11 then 30
  else 31

/-- What follows a date. -/
def readDate (text : List Char) : Option (List Char) := do
  let (year, rest) ← readFixed 4 0 text
  let (month, rest) ← readFixed 2 0 (← expect '-' rest)
  let (day, rest) ← readFixed 2 0 (← expect '-' rest)
  if 1 ≤ month ∧ month ≤ 12 ∧ 1 ≤ day ∧ day ≤ monthDays year month then some rest else none

/-- What follows a time of day. -/
def readTime (text : List Char) : Option (List Char) := do
  let (hour, rest) ← readFixed 2 0 text
  let (minute, rest) ← readFixed 2 0 (← expect ':' rest)
  let (second, rest) ← readFixed 2 0 (← expect ':' rest)
  if hour ≤ 23 ∧ minute ≤ 59 ∧ second ≤ 60 then
    match rest with
    | '.' :: digit :: more => if isDigit digit then some (more.dropWhile isDigit) else none
    | ['.'] => none
    | rest => some rest
  else none

/-- What follows an offset from universal time. -/
def readOffset : List Char → Option (List Char)
  | [] => none
  | sign :: rest =>
      if sign = 'Z' ∨ sign = 'z' then some rest
      else if sign = '+' ∨ sign = '-' then do
        let (hour, rest) ← readFixed 2 0 rest
        let (minute, rest) ← readFixed 2 0 (← expect ':' rest)
        if hour ≤ 23 ∧ minute ≤ 59 then some rest else none
      else none

/-- What follows a date, a time, or both. -/
def readMoment (text : List Char) : Option (List Char) :=
  match readDate text with
  | none => readTime text
  | some [] => some []
  | some (mark :: rest) =>
      if mark = 'T' ∨ mark = 't' ∨ mark = ' ' then
        match readTime rest with
        | none => some (mark :: rest)
        | some rest => some ((readOffset rest).getD rest)
      else some (mark :: rest)

/-- A date or time counts as a table with one member of this name. -/
def momentKey : String := "$__toml_private_datetime"

/-- A sign, and the rest. -/
def readSign : List Char → Bool × List Char
  | '-' :: rest => (true, rest)
  | '+' :: rest => (false, rest)
  | text => (false, text)

/-- Digits of a base after a first one; an underscore may stand between two of them. -/
def readMoreDigits (digit? : Char → Option Nat) : List Char → List Nat × List Char
  | '_' :: character :: rest =>
      match digit? character with
      | some value =>
          let (digits, rest) := readMoreDigits digit? rest
          (value :: digits, rest)
      | none => ([], '_' :: character :: rest)
  | character :: rest =>
      match digit? character with
      | some value =>
          let (digits, rest) := readMoreDigits digit? rest
          (value :: digits, rest)
      | none => ([], character :: rest)
  | [] => ([], [])

/-- Digits of a base, at least one. -/
def readRun (digit? : Char → Option Nat) : List Char → Option (List Nat × List Char)
  | character :: rest => do
      let value ← digit? character
      let (digits, rest) := readMoreDigits digit? rest
      return (value :: digits, rest)
  | [] => none

/-- The value of a digit below a base. -/
def digitBelow (base : Nat) (character : Char) : Option Nat :=
  (hexValue? character).filter (· < base)

/-- The digits before a point; a leading zero stands alone. -/
def readWhole : List Char → Option (List Nat × List Char)
  | '0' :: rest => some ([0], rest)
  | text => readRun (digitBelow 10) text

/-- The number that digits write in a base. -/
def ofDigits (base : Nat) (digits : List Nat) : Nat :=
  digits.foldl (fun value digit => value * base + digit) 0

/-- An exponent, if one starts here. -/
def readExponent : List Char → Option (Int × List Char)
  | mark :: rest => do
      if mark = 'e' ∨ mark = 'E' then
        let (negative, rest) := readSign rest
        let (digits, rest) ← readRun (digitBelow 10) rest
        let value : Int := ofDigits 10 digits
        return (if negative then -value else value, rest)
      else none
  | [] => none

/-- A number of places beyond which a double is infinite or zero. -/
def manyPlaces : Nat := 400

/-- The double nearest to digits times a power of ten. -/
def nearestDouble (digits : List Nat) (exponent : Int) : Float :=
  let value := ofDigits 10 digits
  if value = 0 then 0.0
  else
    let places := (Nat.toDigits 10 value).length + exponent
    if places < -manyPlaces then 0.0
    else if (manyPlaces : Int) < places then 1.0 / 0.0
    else Float.ofScientific value (exponent < 0) exponent.natAbs

/-- A number with a fraction or an exponent. -/
def readFloat (text : List Char) : Option (Float × List Char) := do
  let (negative, rest) := readSign text
  let (whole, rest) ← readWhole rest
  let (fraction, exponent, rest) ←
    match rest with
    | '.' :: rest => do
        let (fraction, rest) ← readRun (digitBelow 10) rest
        match rest with
        | [] => pure (fraction, (0 : Int), rest)
        | mark :: _ =>
            if mark = 'e' ∨ mark = 'E' then do
              let (exponent, rest) ← readExponent rest
              pure (fraction, exponent, rest)
            else pure (fraction, (0 : Int), rest)
    | rest => do
        let (exponent, rest) ← readExponent rest
        pure ([], exponent, rest)
  let value := nearestDouble (whole ++ fraction) (exponent - fraction.length)
  if negative then return (-value, rest)
  else if value.isInf then none
  else return (value, rest)

/-- The name of a value that is no finite number. -/
def readNamed (text : List Char) : Option (Float × List Char) :=
  let (negative, rest) := readSign text
  let signed (value : Float) := if negative then -value else value
  match rest with
  | 'i' :: 'n' :: 'f' :: rest => some (signed (1.0 / 0.0), rest)
  | 'n' :: 'a' :: 'n' :: rest => some (signed (0.0 / 0.0), rest)
  | _ => none

/-- Digits after the mark of a base. -/
def readBased (base : Nat) (text : List Char) : Option (Int × List Char) := do
  let (digits, rest) ← readRun (digitBelow base) text
  let value := ofDigits base digits
  if value ≤ maxSigned then some ((value : Int), rest) else none

/-- A whole number that a signed word can hold. -/
def readInteger : List Char → Option (Int × List Char)
  | '0' :: 'x' :: rest => readBased 16 rest
  | '0' :: 'o' :: rest => readBased 8 rest
  | '0' :: 'b' :: rest => readBased 2 rest
  | text => do
      let (negative, rest) := readSign text
      let (digits, rest) ← readWhole rest
      let value := ofDigits 10 digits
      if negative then
        if value ≤ maxSigned + 1 then some (-(value : Int), rest) else none
      else if value ≤ maxSigned then some ((value : Int), rest)
      else none

/-- A date, time or number. -/
def readNumeric (text : List Char) : Option (Datum × List Char) :=
  match readMoment text with
  | some rest => some (.table [(some momentKey, .null)] .closed, rest)
  | none =>
      match (readFloat text).orElse fun _ => readNamed text with
      | some (value, rest) => some (.number (.double value), rest)
      | none => (readInteger text).map fun (value, rest) => (.number (.integer value), rest)

end Backfill.Toml
