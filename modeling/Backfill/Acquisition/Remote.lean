/-
This file acquires the records of a range from a fetcher, height by height or window by window.
-/

import Backfill.Acquisition.Consumer
import Backfill.Acquisition.Pool
import Backfill.Fetch.Node

namespace Backfill

variable {κ : Type}

/-- The reply to a request for a height; the request and its events are noted. -/
def Consumer.ask (consumer : Consumer κ) (fetcher : Fetcher) (height : Nat) (state : κ) :
    Fetched × κ :=
  let reply := fetcher height
  (reply.fetched, consumer.logAll reply.events (consumer.note (.requested height) state))

/-- The event of a height that could not be fetched. -/
def fetchFailedEvent (height : Nat) (error : FetchError) : Event :=
  ⟨.warn, .acquisition, "failed to fetch block",
    [("height", .natural height), ("error", .text error.message)]⟩

/-- A worker that fetched ended before its time. -/
def workerPanicked : RunError :=
  .panicked "fetch worker"

/-- The records handed on so far are counted, and the heights that failed are held last one
first. -/
structure FetchTally where
  emitted : Nat
  failures : List (Nat × FetchError)

namespace FetchTally

/-- Nothing is fetched before a tally. -/
def blank : FetchTally :=
  ⟨0, []⟩

/-- What a tally of a whole range comes to. -/
def close (range : HeightRange) (tally : FetchTally) : Acquired :=
  if tally.failures.isEmpty then .emitted tally.emitted
  else .failed (.ofFailures range tally.failures.reverse tally.emitted)

end FetchTally

namespace Fetcher

/-- Fetches `left` heights of a range from `height` on, whether some of them fail or not, and hands
on each record at once. -/
def fetchFrom (fetcher : Fetcher) (consumer : Consumer κ) (range : HeightRange) :
    Nat → Nat → FetchTally → κ → Acquired × κ
  | 0, _, tally, state => (tally.close range, state)
  | left + 1, height, tally, state =>
      match consumer.ask fetcher height state with
      | (.record record, state) =>
          match consumer.consume record state with
          | (.ok (), state) =>
              fetchFrom fetcher consumer range left (height + 1)
                { tally with emitted := tally.emitted + 1 } state
          | (.error cause, state) => (.ended cause, state)
      | (.failure error, state) =>
          fetchFrom fetcher consumer range left (height + 1)
            { tally with failures := (height, error) :: tally.failures }
            (consumer.log (fetchFailedEvent height error) state)
      | (.panicked, state) => (.ended workerPanicked, state)

/-- Acquires a range by one request at a time in the order of heights. -/
def acquireSequential (fetcher : Fetcher) (consumer : Consumer κ) (range : HeightRange)
    (state : κ) : Acquired × κ :=
  fetchFrom fetcher consumer range range.size range.start .blank state

/-- What the workers brought of a window: the records and failures with their heights, the last
arrival first, and whether a worker panicked. -/
structure Haul where
  records : List (Nat × Record)
  failures : List (Nat × FetchError)
  panicked : Bool

/-- Answers in the order of their heights. -/
def byHeight {α : Type} (answers : List (Nat × α)) : List (Nat × α) :=
  answers.mergeSort fun first second => decide (first.1 ≤ second.1)

namespace Haul

/-- Nothing is brought before a window. -/
def blank : Haul :=
  ⟨[], [], false⟩

/-- The records in the order of their heights. -/
def sortedRecords (haul : Haul) : List Record :=
  (byHeight haul.records).map Prod.snd

/-- The failures in the order of their heights. -/
def sortedFailures (haul : Haul) : List (Nat × FetchError) :=
  byHeight haul.failures

/-- The event of progress within a window. -/
def progressEvent (window : HeightRange) (received failed : Nat) : Event :=
  ⟨.debug, .acquisition, "window progress",
    Event.bounds window ++ [("received", .natural received), ("failed", .natural failed)]⟩

end Haul

/-- Progress is told at every thousandth answer. -/
def noteProgress (consumer : Consumer κ) (window : HeightRange) (received failed : Nat)
    (state : κ) : κ :=
  if received % 1000 = 0 then consumer.log (Haul.progressEvent window received failed) state
  else state

/-- The haul with the answers to heights in the order of their arrival, when so many were received
before and so many of them failed. -/
def haulFrom (fetcher : Fetcher) (consumer : Consumer κ) (window : HeightRange) :
    List Nat → Nat → Nat → Haul → κ → Haul × κ
  | [], _, _, haul, state => (haul, state)
  | height :: rest, received, failed, haul, state =>
      match consumer.ask fetcher height state with
      | (.record record, state) =>
          haulFrom fetcher consumer window rest (received + 1) failed
            { haul with records := (height, record) :: haul.records }
            (noteProgress consumer window (received + 1) failed state)
      | (.failure error, state) =>
          haulFrom fetcher consumer window rest (received + 1) (failed + 1)
            { haul with failures := (height, error) :: haul.failures }
            (noteProgress consumer window (received + 1) (failed + 1)
              (consumer.log (fetchFailedEvent height error) state))
      | (.panicked, state) =>
          haulFrom fetcher consumer window rest received failed { haul with panicked := true } state

/-- The haul of a whole window, which a crew shares. -/
def haulWindow (fetcher : Fetcher) (consumer : Consumer κ) (crew : Crew) (window : HeightRange)
    (state : κ) : Haul × κ :=
  haulFrom fetcher consumer window (crew.arrivals window) 0 0 .blank state

/-- The event of a window that was handed on. -/
def windowEvent (range window : HeightRange) (emitted : Nat) : Event :=
  ⟨.info, .acquisition, "window fetched",
    Event.bounds window ++ [("emitted", .natural emitted), ("total", .natural range.size)]⟩

/-- Acquires one window of a range, before which `emitted` records were handed on, and makes its
records durable once all are there. -/
def acquireWindow (fetcher : Fetcher) (consumer : Consumer κ) (crew : Crew)
    (range window : HeightRange) (emitted : Nat) (state : κ) : Acquired × κ :=
  let (haul, state) := haulWindow fetcher consumer crew window state
  if haul.panicked then (.ended workerPanicked, state)
  else if !haul.failures.isEmpty then
    (.failed (.ofFailures range haul.sortedFailures (emitted + haul.records.length)), state)
  else
    match consumer.consumeAll haul.sortedRecords state with
    | (.error cause, state) => (.ended cause, state)
    | (.ok (), state) =>
        match consumer.checkpoint state with
        | (.error cause, state) => (.ended cause, state)
        | (.ok (), state) =>
            let emitted := emitted + haul.records.length
            (.emitted emitted, consumer.log (windowEvent range window emitted) state)

/-- Acquires what is left of a range window by window, up to the first window that fails. -/
def acquireWindows (fetcher : Fetcher) (consumer : Consumer κ) (crew : Crew) (range : HeightRange)
    (width : Nat) (left : HeightRange) (emitted : Nat) (state : κ) : Acquired × κ :=
  match acquireWindow fetcher consumer crew range (left.splitWindow width).1 emitted state with
  | (.emitted emitted, state) =>
      match split : (left.splitWindow width).2 with
      | none => (.emitted emitted, state)
      | some rest =>
          have := HeightRange.splitWindowRest split
          acquireWindows fetcher consumer crew range width rest emitted state
  | (other, state) => (other, state)
termination_by left.size

/-- Acquires a range by a crew that shares windows of a given width. -/
def acquireParallel (fetcher : Fetcher) (consumer : Consumer κ) (crew : Crew) (width : Nat)
    (range : HeightRange) (state : κ) : Acquired × κ :=
  acquireWindows fetcher consumer crew range width range 0 state

end Fetcher

end Backfill
