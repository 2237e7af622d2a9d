/-
This file asks a node for blocks.
-/

import Backfill.Address.Basic
import Backfill.Fetch.Response
import Backfill.Fetch.Settings

namespace Backfill

/-- A transport sends the text of a request to an address, and each attempt brings a status with a
body or nothing at all. -/
structure Transport where
  send : WebAddress → String → Nat → Option (Status × Bytes)

/-- The transport over which nothing is ever answered. -/
def Transport.silent : Transport :=
  ⟨fun _ _ _ => none⟩

/-- A fetched height gives a record or a failure, or ends the worker that fetched it. -/
inductive Fetched
  | record (record : Record)
  | failure (error : FetchError)
  | panicked
deriving DecidableEq, Repr

/-- The reply to a request for a height, with the events on the way to it. -/
structure Reply where
  fetched : Fetched
  events : List Event

/-- A fetcher replies to requests for heights. -/
abbrev Fetcher := Nat → Reply

/-- A node is reached by its settings over a transport, with a draw that varies the delays. -/
structure Node where
  settings : NodeSettings
  transport : Transport
  draw : Nat → Nat → Float

namespace Node

/-- The text of the request for a height. -/
def request (height : Nat) : String :=
  (Json.Value.table [("FullBlock", .boolean true), ("Height", .natural height)]).compact

/-- One request for a height, which cannot be tried again if the address cannot be understood. -/
def fetchOnce (node : Node) (height attempt : Nat) : Except FetchError Record :=
  match WebAddress.ofText? node.settings.endpoint.toList with
  | none => .error (.permanent height "builder error")
  | some address =>
      match node.transport.send address (request height) attempt with
      | none => .error ⟨true, height, s!"error sending request for url ({address.text})"⟩
      | some (status, body) => readResponse height status body

/-- The requests for a height, repeated as the settings say. -/
def attempts (node : Node) (height : Nat) : RetryRun FetchError Record :=
  node.settings.retryPolicy.run (node.draw height) ⟨FetchError.transient, FetchError.message⟩
    (node.fetchOnce height)

/-- The block of a height, with the events of the requests for it. -/
def fetch (node : Node) : Fetcher := fun height =>
  let run := node.attempts height
  match run.result with
  | .error error => ⟨.failure error, run.events⟩
  | .ok record =>
      ⟨.record record, run.events ++ [⟨.debug, .node, "fetched block",
        [("height", .natural height), ("hash", .text record.keyText)]⟩]⟩

end Node

end Backfill
