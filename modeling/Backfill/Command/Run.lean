/-
This file runs the commands of the program on a host.
-/

import Backfill.Command.Output
import Backfill.Command.Session
import Backfill.Command.Usage
import Backfill.Config.Locate
import Backfill.Config.Written
import Backfill.Event.Log
import Backfill.Height.Listing
import Backfill.Log.Files
import Backfill.Repair.Run
import Backfill.Replica.Files

namespace Backfill.Command

/-- What a command came to: its exit code, what it prints, the lines of its events, and its failure
if it failed. -/
structure Outcome where
  code : Nat
  output : String
  events : List String
  failure : Option Failure
deriving DecidableEq, Repr

/-- The exit code of a failure. -/
def failureCode : Nat := 2

/-- What arguments that make no call come to. -/
def Halt.outcome : Halt → Outcome
  | .help about => ⟨0, helpText about, [], none⟩
  | .version => ⟨0, versionText, [], none⟩
  | .refused fault => ⟨failureCode, "", [], some (.arguments fault)⟩

/-- A failure of the configuration. -/
def Failure.ofConfig (cause : ConfigError) : Failure :=
  .run (.config cause)

/-- A failure of the replica. -/
def Failure.ofReplica (cause : ReplicaError) : Failure :=
  .run (.replica cause)

/-- A failure of the binary log. -/
def Failure.ofLog (cause : LogError) : Failure :=
  .run (.log cause)

/-- The configuration with what an order puts in place of its parts. -/
def Order.apply (order : Order) (config : Config) : Config :=
  match order with
  | .repair order => { config with
      repair := { config.repair with workers := order.workers.getD config.repair.workers }
      node := { config.node with url := order.url.getD config.node.url }
      log := { config.log with directory := order.directory.or config.log.directory } }
  | _ => config

/-- The settings of the event log with what a call puts in place of them. -/
def Call.eventSettings (call : Call) (settings : EventSettings) : EventSettings :=
  { settings with
    level := call.level.getD settings.level
    format := call.format.getD settings.format }

/-- The event of a configuration that was loaded. -/
def loadedEvent : Option String → Event
  | some path => ⟨.info, .command, "loaded config", [("path", .text path)]⟩
  | none => ⟨.info, .command, "no config file found; using defaults", []⟩

variable {m : Type → Type} [Monad m]

/-- Loads the configuration that a call works with, and tells the file it comes from. -/
def loadConfig (host : Host m) (call : Call) : Session m (Config × Option String) := do
  let path ← Session.perform (Config.locate host call.config)
  let written ← Session.attempt .ofConfig (Config.loadLocated host path)
  let environment ← Session.perform (Config.environment host)
  let config ← Session.require .ofConfig (written.override environment)
  let config := call.order.apply config
  Session.require .ofConfig config.validate
  return (config, path)

/-- The mode of a repair, for which the heights of a listing are read. -/
def repairMode (host : Host m) : Target → Session m RepairMode
  | .missing => return .missing
  | .between start stop => do
      return .manual [← Session.require .range (HeightRange.ofBounds start stop)]
  | .listed path => do
      let content := (← Session.perform (host.read path)).map Array.toList
      let ranges ← Session.require (fun fault => .ofConfig (fault.toConfigError path))
        (Listing.ranges content)
      return .manual ranges

/-- The event of a log that is not configured. -/
def noLogEvent : Event :=
  ⟨.info, .command, "no state-change directory configured; large ranges use the remote API", []⟩

/-- The event of a log whose files are not there. -/
def absentLogEvent (settings : LogSettings) : Event :=
  ⟨.warn, .command, "binary log files not found; large ranges use the remote API",
    [("dir", .text (Text.optionalPath settings.directory))]⟩

/-- Opens the binary log, whose events are logged. -/
def openLog (host : Host m) (settings : LogSettings) : Session m LogReader := do
  let reader ← Session.attempt .ofLog (LogReader.ofHost settings host)
  Session.logAll reader.openEvents
  return reader

/-- Opens the binary log for a repair, which can do without. -/
def openLogIfThere (host : Host m) (settings : LogSettings) : Session m (Option LogReader) := do
  if settings.directory.isNone then
    Session.log noLogEvent
    return none
  else if !(← Session.perform (settings.isAvailable host)) then
    Session.log (absentLogEvent settings)
    return none
  else
    let reader ← openLog host settings
    Session.log ⟨.info, .command, "opened binary log", [("entries", .natural reader.entries)]⟩
    return some reader

/-- The event of the start of a repair. -/
def startEvent (config : Config) : Event :=
  ⟨.info, .command, "starting repair",
    [("replica", .text config.replica.path), ("node", .text config.node.endpoint),
      ("workers", .natural config.repair.workers.toNat)]⟩

/-- Opens a replica, whose opening is logged. -/
def openReplica (path : String) (opening : m (Except ReplicaError Replica)) :
    Session m Replica := do
  let replica ← Session.attempt .ofReplica opening
  Session.log (Replica.openedEvent path)
  return replica

/-- The repairer of a configuration. -/
def repairerOf (config : Config) (transport : Transport) (log : Option LogReader) :
    Repairer Replica :=
  let node : Node := ⟨config.node, transport, fun _ _ => 0.0⟩
  ⟨config.repair, node.fetch, log, Replica.store, .steady⟩

/-- Repairs the replica and saves what was committed, or prints how it would be repaired. -/
def repair (host : Host m) (transport : Transport) (config : Config) (order : RepairOrder) :
    Session m (Nat × String) := do
  let path := config.replica.path
  let mode ← repairMode host order.target
  let replica ← openReplica path (Replica.openAt host path)
  let repairer := repairerOf config transport (← openLogIfThere host config.log)
  Session.log (startEvent config)
  if order.dryRun then
    return (0, planText (← Session.require .run (repairer.plan mode replica)))
  else
    let (report, committer) := repairer.run mode (Committer.new replica)
    Session.logAll committer.events
    Session.attempt (fun fault => .ofReplica (.file fault)) (Replica.save host path committer.sink)
    let report ← Session.require .run report
    return (report.exitCode, reportText report)

/-- Lists what is missing from the replica. -/
def gaps (host : Host m) (config : Config) (json : Bool) : Session m (Nat × String) := do
  let path := config.replica.path
  let replica ← openReplica path (Replica.openExisting host path)
  let gaps ← Session.require .ofReplica
    (Replica.store.detectGaps config.repair.fromGenesis replica)
  let lowest ← Session.require .ofReplica replica.visible.lowest
  let highest ← Session.require .ofReplica replica.visible.highest
  let summary : GapSummary := ⟨gaps, lowest, highest⟩
  return (0, if json then jsonText summary.toJson else summary.text)

/-- Sums up the binary log. -/
def scanLog (host : Host m) (config : Config) (json : Bool) : Session m (Nat × String) := do
  let reader ← openLog host config.log
  let (coverage, events) := reader.coverage
  Session.logAll events
  let coverage ← Session.require .ofLog coverage
  return (0, if json then jsonText coverage.toJson else coverageText coverage)

/-- Prints the configuration in force. -/
def showConfig (config : Config) : Session m (Nat × String) := do
  return (0, ← Session.require .ofConfig config.written)

/-- Carries out an order. -/
def Order.run (order : Order) (host : Host m) (transport : Transport) (config : Config) :
    Session m (Nat × String) :=
  match order with
  | .repair order => Command.repair host transport config order
  | .gaps json => Command.gaps host config json
  | .scanLog json => Command.scanLog host config json
  | .config => showConfig config

/-- The outcome of the result of a command and the lines of its events. -/
def Outcome.ofResult (events : List String) : Except Failure (Nat × String) → Outcome
  | .ok (code, output) => ⟨code, output, events, none⟩
  | .error failure => ⟨failureCode, "", events, some failure⟩

/-- Carries out a call, with an event log that is opened once the configuration is known. -/
def Call.run (call : Call) (host : Host m) (transport : Transport) : m Outcome := do
  match ← (loadConfig host call).start with
  | (.error failure, _) => return .ofResult [] (.error failure)
  | (.ok (config, path), _) =>
      let settings := call.eventSettings config.events
      match ← EventLog.openWith host settings with
      | .error cause => return .ofResult [] (.error (.log cause))
      | .ok log =>
          let (result, events) ← (call.order.run host transport config).start
          let lines ← log.write host ([EventLog.openedEvent settings, loadedEvent path] ++ events)
          return .ofResult lines result

/-- Runs the program with the arguments of the command line. -/
def run (host : Host m) (transport : Transport) (arguments : List String) : m Outcome :=
  match Call.ofArguments arguments with
  | .error halt => return halt.outcome
  | .ok call => call.run host transport

end Backfill.Command
