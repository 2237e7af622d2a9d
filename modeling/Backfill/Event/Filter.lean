/-
This file decides which events are logged.
-/

import Backfill.Event.Basic
import Backfill.Text.Blank
import Backfill.Text.Decimal
import Backfill.Text.Split
import Backfill.Word

namespace Backfill

/-- A rule lets events through up to a severity, none at rank zero, if they match what it asks for.
-/
structure FilterRule where
  target : Option (List Char)
  fields : List String
  limit : Nat
  /-- Whether the rule asks for a span around the event or for the value of a field, which no event
  has. -/
  bound : Bool
deriving DecidableEq, Repr

namespace FilterRule

/-- The names of limits. -/
def limits : List (String × Nat) :=
  [("off", 0), ("error", 1), ("warn", 2), ("info", 3), ("debug", 4), ("trace", 5)]

/-- The rank of the lowest severity. -/
def everything : Nat := 5

/-- A limit is named in any case or given by its rank. -/
def limit? (text : List Char) : Option Nat :=
  match (Text.readNat maxWord text).toOption.filter (· ≤ everything) with
  | some rank => some rank
  | none => limits.lookup (String.ofList (text.map Char.toLower))

/-- The limit after an equals sign; if nothing is written there, there is none. -/
def limitOr? (text : List Char) : Option Nat :=
  if text.isEmpty then some everything else limit? text

/-- Whether a character can start a rule, as every one outside of ASCII can. -/
def isStart (character : Char) : Bool :=
  character.isAlphanum || "-:_[".toList.contains character || 128 ≤ character.toNat

/-- The rule whose span and fields are known, with what is written after them. -/
def finish? (rule : FilterRule) : List Char → Option FilterRule
  | [] => some rule
  | '=' :: text => (limitOr? text).map fun limit => { rule with limit }
  | _ => none

/-- The rule with what is written after an opening bracket: a span, fields, or both. -/
def ofScope? (target : Option (List Char)) (text : List Char) : Option FilterRule := do
  let isMark (character : Char) : Bool := character = ']' || character = '\x7b'
  let span := text.takeWhile (!isMark ·)
  match text.dropWhile (!isMark ·) with
  | [] => none
  | ']' :: rest => finish? ⟨target, [], everything, true⟩ rest
  | _ :: rest =>
      let (field, rest) ← Text.cutAt? '\x7d' rest
      if field.isEmpty then none
      match rest with
      | ']' :: rest =>
          finish? ⟨target, [String.ofList (field.takeWhile (· ≠ '='))], everything,
            !span.isEmpty || field.contains '='⟩ rest
      | _ => none

/-- A bare word is a limit for all targets if it can be, else a target. -/
def ofWord (word : List Char) : FilterRule :=
  match limit? word with
  | some limit => ⟨none, [], limit, false⟩
  | none => ⟨some word, [], everything, false⟩

/-- The rule that a text states, with the blanks before it as a part of its target. -/
def ofText? (text : List Char) : Option FilterRule :=
  match text.dropWhile Text.isBlank with
  | [] => none
  | first :: _ =>
      if !isStart first then none
      else
        let isMark (character : Char) : Bool := character = '=' || character = '['
        let head := text.takeWhile (!isMark ·)
        match text.dropWhile (!isMark ·) with
        | [] => some (ofWord head)
        | '=' :: rest =>
            if head.head?.any Text.isBlank then none
            else finish? ⟨some head, [], everything, false⟩ ('=' :: rest)
        | _ :: rest => ofScope? (if head.isEmpty then none else some head) rest

/-- Whether a rule speaks of an event. -/
def concerns (rule : FilterRule) (event : Event) : Bool :=
  !rule.bound && (rule.target.all fun target => target.isPrefixOf event.area.target.toList) &&
    rule.fields.all fun field => field = "message" || (event.fields.lookup field).isSome

/-- A rule that asks for more weighs more: a longer target first, then more fields. -/
def weight (rule : FilterRule) : Nat × Nat :=
  ((rule.target.map fun target => target.length + 1).getD 0, rule.fields.length)

/-- Whether a rule gives way to a later one. -/
def givesWay (rule later : FilterRule) : Bool :=
  rule.weight.1 < later.weight.1 ||
    (rule.weight.1 = later.weight.1 && rule.weight.2 ≤ later.weight.2)

end FilterRule

/-- A filter has rules, of which the weightiest decides about an event. -/
structure EventFilter where
  rules : List FilterRule
deriving DecidableEq, Repr

namespace EventFilter

/-- The filter without rules of its own lets errors through. -/
def standard : EventFilter :=
  ⟨[⟨none, [], Severity.error.rank, false⟩]⟩

/-- The filter that a text states: rules between commas. -/
def ofText? (text : String) : Option EventFilter := do
  let rules ← ((Text.splitOn ',' text.toList).filter (!·.isEmpty)).mapM FilterRule.ofText?
  return if rules.isEmpty then standard else ⟨rules⟩

/-- The rule that decides about an event, if any speaks of it. -/
def decisive? (filter : EventFilter) (event : Event) : Option FilterRule :=
  (filter.rules.filter (·.concerns event)).foldl
    (fun best rule =>
      match best with
      | some known => if known.givesWay rule then some rule else best
      | none => some rule) none

/-- Whether an event is let through. -/
def admits (filter : EventFilter) (event : Event) : Bool :=
  (filter.decisive? event).any fun rule => event.severity.rank ≤ rule.limit

end EventFilter

end Backfill
