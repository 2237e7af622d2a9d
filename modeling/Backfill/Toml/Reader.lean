/-
This file reads configuration files.
-/

import Backfill.Datum.Shape
import Backfill.Toml.Scalar
import Backfill.Toml.Tree

namespace Backfill.Toml

/-- Containers may be nested less deeply than this, and keys have fewer parts. -/
def maxDepth : Nat := 80

/-- The parts of a key, which dots separate. -/
def readKeyParts : Nat → List Char → Option (List String × List Char)
  | 0, _ => none
  | fuel + 1, text => do
      let (part, rest) ← readKeyPart (dropGaps text)
      let rest := dropGaps rest
      match rest with
      | '.' :: rest =>
          let (parts, rest) ← readKeyParts fuel rest
          return (String.ofList part :: parts, rest)
      | rest => return ([String.ofList part], rest)

/-- A key as a path and its end. -/
def readKey (text : List Char) : Option (KeyPath × List Char) := do
  let (parts, rest) ← readKeyParts (maxDepth - 1) text
  let key ← parts.getLast?
  return (⟨parts.dropLast, key⟩, rest)

/-- A text without the blanks, line breaks and comments at its start. -/
def dropFiller : Nat → List Char → Option (List Char)
  | 0, text => some text
  | fuel + 1, text =>
      match dropGaps text with
      | '#' :: rest =>
          match rest.dropWhile isPlain with
          | [] => some []
          | rest => (lineBreak? rest).bind (dropFiller fuel)
      | rest =>
          match lineBreak? rest with
          | some rest => dropFiller fuel rest
          | none => some rest

mutual

/-- A value inside so many containers. -/
def readValue : Nat → Nat → List Char → Option (Datum × List Char)
  | 0, _, _ => none
  | fuel + 1, depth, text =>
      match readText? text with
      | some taken => taken.map fun (value, rest) => (.text (some (String.ofList value)), rest)
      | none =>
          match text with
          | '[' :: rest =>
              if depth + 1 < maxDepth then do
                let (items, rest) ← readItems fuel (depth + 1) rest
                return (.list items .closed, rest)
              else none
          | '\x7b' :: rest =>
              if depth + 1 < maxDepth then do
                let rest := dropGaps rest
                match rest with
                | '\x7d' :: rest => return (.table [] .closed, rest)
                | rest =>
                    let (members, rest) ← readPairs fuel (depth + 1) [] rest
                    return (.table (membersToData members) .closed, rest)
              else none
          | 't' :: 'r' :: 'u' :: 'e' :: rest => some (.boolean true, rest)
          | 'f' :: 'a' :: 'l' :: 's' :: 'e' :: rest => some (.boolean false, rest)
          | text => readNumeric text

/-- The items of a list up to its end; a comma may follow the last one. -/
def readItems : Nat → Nat → List Char → Option (List Datum × List Char)
  | 0, _, _ => none
  | fuel + 1, depth, text => do
      let rest ← dropFiller text.length text
      match rest with
      | ']' :: rest => return ([], rest)
      | rest =>
          let (item, rest) ← readValue fuel depth rest
          let rest ← dropFiller rest.length rest
          match rest with
          | ',' :: rest =>
              let (items, rest) ← readItems fuel depth rest
              return (item :: items, rest)
          | ']' :: rest => return ([item], rest)
          | _ => none

/-- The members of a table on one line up to its end, added to those before. -/
def readPairs : Nat → Nat → Members → List Char → Option (Members × List Char)
  | 0, _, _, _ => none
  | fuel + 1, depth, members, text => do
      let (place, rest) ← readKey text
      let rest ← expect '=' rest
      let (value, rest) ← readValue fuel depth (dropGaps rest)
      let members ← define place value false members
      match dropGaps rest with
      | ',' :: rest => readPairs fuel depth members rest
      | '\x7d' :: rest => return (members, rest)
      | _ => none

end

/-- The lines of a file, each blank or with a comment, a header, or a key with its value. -/
def readLines : Nat → Draft → List Char → Option Draft
  | 0, _, _ => none
  | fuel + 1, draft, text =>
      match dropGaps text with
      | [] => some draft
      | '[' :: '[' :: rest => do
          let (place, rest) ← readKey rest
          let rest ← expect ']' rest
          let rest ← expect ']' rest
          let draft ← draft.startItem place
          readLines fuel draft (← lineEnd? rest)
      | '[' :: rest => do
          let (place, rest) ← readKey rest
          let rest ← expect ']' rest
          let draft ← draft.startTable place
          readLines fuel draft (← lineEnd? rest)
      | text =>
          if text.head? = some '#' || (lineBreak? text).isSome then do
            readLines fuel draft (← lineEnd? text)
          else do
            let (place, rest) ← readKey text
            let rest ← expect '=' rest
            let (value, rest) ← readValue (rest.length + 1) 0 (dropGaps rest)
            let draft ← draft.define place value
            readLines fuel draft (← lineEnd? rest)

/-- The text of a file without the mark of its encoding. -/
def dropMark : List Char → List Char
  | '\ufeff' :: rest => rest
  | text => text

/-- The table that a file holds. -/
def ofText (text : String) : Option Datum := do
  let characters := dropMark text.toList
  let draft ← readLines (characters.length + 1) .blank characters
  let members ← draft.finish
  return .table (membersToData members) .closed

end Backfill.Toml
