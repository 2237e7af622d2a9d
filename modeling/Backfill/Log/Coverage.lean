/-
This file sums up which heights a whole binary log covers.
-/

import Backfill.Height.Gaps
import Backfill.Height.Json
import Backfill.Log.Reader

namespace Backfill

/-- A log's coverage counts its entries by what they hold, and the heights of its blocks. -/
structure LogCoverage where
  entries : Nat
  blocks : Nat
  others : Nat
  damaged : Nat
  distinct : Nat
  duplicates : Nat
  lowest : Option Nat
  highest : Option Nat
  /-- The ranges missing between the lowest and the highest height. -/
  gaps : List HeightRange
  missing : Nat
deriving DecidableEq, Repr

/-- A tally of the entries read so far; the heights of blocks are held last one first. -/
structure LogTally where
  heights : List Nat
  others : Nat
  damaged : Nat
deriving DecidableEq, Repr

/-- Nothing is read before a tally. -/
def LogTally.blank : LogTally :=
  ⟨[], 0, 0⟩

namespace LogCoverage

/-- The coverage of a log with a given number of entries. -/
def ofTally (entries : Nat) (tally : LogTally) : LogCoverage :=
  let heights := sortedHeights tally.heights
  let gaps := gapsOfHeights false heights
  { entries
    blocks := tally.heights.length
    others := tally.others
    damaged := tally.damaged
    distinct := heights.length
    duplicates := tally.heights.length - heights.length
    lowest := heights.head?
    highest := heights.getLast?
    gaps
    missing := totalSize gaps }

/-- The value of a coverage. -/
def toJson (coverage : LogCoverage) : Json.Value :=
  .table [
    ("entries", .natural coverage.entries),
    ("block_records", .natural coverage.blocks),
    ("other_records", .natural coverage.others),
    ("decode_errors", .natural coverage.damaged),
    ("distinct_heights", .natural coverage.distinct),
    ("duplicate_heights", .natural coverage.duplicates),
    ("min_height", .optional .natural coverage.lowest),
    ("max_height", .optional .natural coverage.highest),
    ("gaps", .list (coverage.gaps.map HeightRange.toJson)),
    ("missing_heights", .natural coverage.missing)]

end LogCoverage

namespace LogReader

/-- The event of a damaged entry in a tally. -/
def tallyEvent (position : Nat) (error : LogError) : Event :=
  ⟨.debug, .log, "undecodable entry in coverage scan",
    [("position", .natural position), ("error", .text error.message)]⟩

/-- The events of going past a position in a tally. -/
def tallyProgress (reader : LogReader) (position : Nat) : List Event :=
  if 0 < position ∧ position % 1000000 = 0 then
    [⟨.info, .log, "coverage scan progress",
      [("position", .natural position), ("entries", .natural reader.entries)]⟩]
  else []

/-- A tally with the entry at a position, and the events of reading it. -/
def tallyEntry (reader : LogReader) (tally : LogTally) (position : Nat) :
    Except LogError (LogTally × List Event) :=
  match reader.read position with
  | .ok record =>
      if record.isBlock then .ok ({ tally with heights := record.height.toNat :: tally.heights }, [])
      else .ok ({ tally with others := tally.others + 1 }, [])
  | .error error =>
      if error.isSkippable then
        .ok ({ tally with damaged := tally.damaged + 1 }, [tallyEvent position error])
      else .error error

/-- The tally of the entries from the one at `position` on, of which there are `left`, with the last
event first. -/
def tallyFrom (reader : LogReader) :
    Nat → Nat → LogTally → List Event → Except LogError LogTally × List Event
  | 0, _, tally, events => (.ok tally, events)
  | left + 1, position, tally, events =>
      match reader.tallyEntry tally position with
      | .error error => (.error error, events)
      | .ok (tally, new) =>
          reader.tallyFrom left (position + 1) tally
            ((reader.tallyProgress position).reverse ++ new.reverse ++ events)

/-- The coverage of the whole log, with the events of reading it, or a failure other than damage to
an entry. -/
def coverage (reader : LogReader) : Except LogError LogCoverage × List Event :=
  let (tally, events) := reader.tallyFrom reader.entries 0 .blank []
  (tally.map (LogCoverage.ofTally reader.entries), events.reverse)

end LogReader

end Backfill
