/-
This file holds the settings of the node that serves blocks.
-/

import Backfill.Config.Fault
import Backfill.Datum.Shape
import Backfill.Fetch.Retry
import Backfill.Text.Blank

namespace Backfill

/-- The node has an address, and requests to it have a time limit and are repeated. -/
structure NodeSettings where
  url : String
  timeoutSeconds : UInt64
  attempts : UInt32
  firstDelay : UInt64
  longestDelay : UInt64
deriving DecidableEq, Repr

namespace NodeSettings

/-- The settings unless configured otherwise. -/
def standard : NodeSettings :=
  { url := "http://localhost:17001"
    timeoutSeconds := 30
    attempts := 3
    firstDelay := 200
    longestDelay := 5000 }

/-- The settings are a structure whose fields all have defaults. -/
def shape : Shape NodeSettings NodeSettings where
  title := "struct RemoteConfig"
  fields := [
    .optional "node_url" Datum.readText fun value draft => { draft with url := value },
    .optional "timeout_secs" Datum.readWord64 fun value draft =>
      { draft with timeoutSeconds := value },
    .optional "fetch_attempts" Datum.readWord32 fun value draft => { draft with attempts := value },
    .optional "retry_initial_delay_ms" Datum.readWord64 fun value draft =>
      { draft with firstDelay := value },
    .optional "retry_max_delay_ms" Datum.readWord64 fun value draft =>
      { draft with longestDelay := value }]
  blank := standard
  finish := .ok

/-- The schemes that an address may have. -/
def schemes : List (List Char) :=
  ["http://".toList, "https://".toList]

/-- Whether an address starts with a known scheme. -/
def hasScheme (address : List Char) : Bool :=
  schemes.any (·.isPrefixOf address)

/-- The address without blanks around it. -/
def address (settings : NodeSettings) : List Char :=
  Text.trimChars settings.url.toList

/-- The address has to be there and to have a known scheme, and the numbers have to be positive. -/
def validate (settings : NodeSettings) : Except SettingFault Unit :=
  if settings.address.isEmpty then .error .emptyUrl
  else if !hasScheme settings.address then
    .error (.unknownScheme (String.ofList settings.address))
  else if settings.timeoutSeconds = 0 then .error (.notPositive "remote.timeout_secs")
  else if settings.attempts = 0 then .error (.notPositive "remote.fetch_attempts")
  else .ok ()

/-- Requests are repeated with doubling delays that vary by a tenth. -/
def retryPolicy (settings : NodeSettings) : RetryPolicy :=
  .make (.ofMilliseconds settings.firstDelay.toNat) (.ofMilliseconds settings.longestDelay.toNat)
    2.0 0.1 settings.attempts.toNat

/-- A text without the slashes at its end. -/
def dropSlashes (text : List Char) : List Char :=
  (text.reverse.dropWhile (· = '/')).reverse

/-- The place below the address that serves blocks. -/
def blockPath : List Char :=
  "/api/v1/block".toList

/-- The address that serves blocks. -/
def endpoint (settings : NodeSettings) : String :=
  String.ofList (dropSlashes settings.address ++ blockPath)

end NodeSettings

end Backfill
