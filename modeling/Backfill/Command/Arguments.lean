/-
This file reads the arguments of the command line.
-/

import Backfill.Event.Settings
import Backfill.Text.Decimal
import Backfill.Text.Split
import Backfill.Word

namespace Backfill.Command

/-- The commands of the program. -/
inductive Name
  | repair
  | gaps
  | scanLog
  | config
deriving DecidableEq, Repr

/-- The commands by their names. -/
def Name.all : List (String × Name) :=
  [("repair", .repair), ("gaps", .gaps), ("scan-log", .scanLog), ("config", .config)]

/-- The values of the arguments that were read so far. -/
structure Arguments where
  config : Option String := none
  level : Option String := none
  format : Option EventFormat := none
  start : Option Nat := none
  stop : Option Nat := none
  listing : Option String := none
  workers : Option UInt64 := none
  url : Option String := none
  directory : Option String := none
  dryRun : Bool := false
  json : Bool := false
deriving DecidableEq, Repr

/-- An option takes a value if it has a placeholder for one. -/
structure OptionRule where
  name : String
  placeholder : Option String
  note : String
  /-- The arguments with the value of the option, if it is one that the option can have. -/
  take : String → Arguments → Option Arguments

namespace OptionRule

/-- An option whose value is a path, which cannot be empty. -/
def path (name placeholder note : String) (put : String → Arguments → Arguments) : OptionRule :=
  ⟨name, some placeholder, note, fun value arguments =>
    if value.isEmpty then none else some (put value arguments)⟩

/-- An option whose value is any text. -/
def text (name placeholder note : String) (put : String → Arguments → Arguments) : OptionRule :=
  ⟨name, some placeholder, note, fun value arguments => some (put value arguments)⟩

/-- An option whose value is a word. -/
def number (name placeholder note : String) (put : Nat → Arguments → Arguments) : OptionRule :=
  ⟨name, some placeholder, note, fun value arguments =>
    (Text.natOf? maxWord value).map (put · arguments)⟩

/-- An option without a value. -/
def flag (name note : String) (put : Arguments → Arguments) : OptionRule :=
  ⟨name, none, note, fun _ arguments => some (put arguments)⟩

/-- The options that stand before or after the name of the command. -/
def everywhere : List OptionRule := [
  .path "config" "PATH" "Config file (default: $CHAINMEND_CONFIG, then the user config dir)"
    fun value arguments => { arguments with config := some value },
  .text "log-level" "LEVEL" "Log filter directive, e.g. `info` or `chainmend_core=debug`"
    fun value arguments => { arguments with level := some value },
  ⟨"log-format", some "FORMAT", "Log output format", fun value arguments =>
    (EventFormat.ofName value).toOption.map fun format =>
      { arguments with format := some format }⟩]

/-- The option that asks for JSON. -/
def json : OptionRule :=
  .flag "json" "Emit JSON instead of text" fun arguments => { arguments with json := true }

end OptionRule

/-- The options of a command. -/
def Name.options : Name → List OptionRule
  | .repair => [
      .number "start" "START" "First height of a manual range (bypasses gap detection)"
        fun value arguments => { arguments with start := some value },
      .number "end" "END" "Last height of a manual range, inclusive"
        fun value arguments => { arguments with stop := some value },
      .path "heights-file" "PATH" "File with one height per line to reprocess"
        fun value arguments => { arguments with listing := some value },
      .number "workers" "WORKERS" "Concurrent fetch workers for parallel ranges"
        fun value arguments => { arguments with workers := some (UInt64.ofNat value) },
      .text "node-url" "URL" "Node serving the block API"
        fun value arguments => { arguments with url := some value },
      .path "state-change-dir" "DIR" "Directory holding the binary state-change log"
        fun value arguments => { arguments with directory := some value },
      .flag "dry-run" "Print the planned ranges and strategies without fetching"
        fun arguments => { arguments with dryRun := true }]
  | .gaps => [.json]
  | .scanLog => [.json]
  | .config => []

/-- The arguments are refused for one of these reasons. -/
inductive ArgumentFault
  | unexpected (argument : String)
  | unknownCommand (argument : String)
  | noCommand
  | noValue (option : String)
  | surplusValue (option : String)
  | badValue (option value : String)
  | repeated (option : String)
  | absent (option : String)
  | conflict (first second : String)
deriving DecidableEq, Repr

/-- Reading the arguments ends early when they ask for help or the version, or are refused. -/
inductive Halt
  | help (about : Option Name)
  | version
  | refused (fault : ArgumentFault)
deriving DecidableEq, Repr

/-- Where in the arguments the reader is: before the name of the command, after it, or after the
word that asks for help. -/
inductive Level
  | top
  | command (name : Name)
  | helping (about : Option Name)
deriving DecidableEq, Repr

/-- The options at a level. -/
def Level.options : Level → List OptionRule
  | .top => OptionRule.everywhere
  | .command name => name.options ++ OptionRule.everywhere
  | .helping _ => []

/-- The command that help at a level is about. -/
def Level.about : Level → Option Name
  | .top => none
  | .command name => some name
  | .helping about => about

/-- A reader of arguments knows the options it has seen at its level, and the option that waits
for its value. -/
structure ArgumentReader where
  arguments : Arguments
  level : Level
  seen : List String
  waiting : Option OptionRule
  /-- Whether the mark that ends the options was read. -/
  ended : Bool

namespace ArgumentReader

/-- The reader before the first argument. -/
def blank : ArgumentReader :=
  ⟨{}, .top, [], none, false⟩

/-- Gives an option its value, which it may be given once at each level. -/
def accept (reader : ArgumentReader) (rule : OptionRule) (value : String) :
    Except Halt ArgumentReader :=
  if reader.seen.contains rule.name then .error (.refused (.repeated rule.name))
  else
    match rule.take value reader.arguments with
    | none => .error (.refused (.badValue rule.name value))
    | some arguments => .ok { reader with
        arguments
        seen := rule.name :: reader.seen
        waiting := none }

/-- Reads an option with a long name, which may have its value after an equals sign. -/
def readLong (reader : ArgumentReader) (text : List Char) : Except Halt ArgumentReader :=
  let name := String.ofList (text.takeWhile (· ≠ '='))
  let value := (Text.cutAt? '=' text).map fun parts => String.ofList parts.2
  match reader.level.options.find? (·.name = name), value with
  | some ⟨name, some placeholder, note, take⟩, none =>
      .ok { reader with waiting := some ⟨name, some placeholder, note, take⟩ }
  | some rule, value =>
      match rule.placeholder, value with
      | none, some _ => .error (.refused (.surplusValue name))
      | _, value => reader.accept rule (value.getD "")
  | none, none =>
      if name = "help" then .error (.help reader.level.about)
      else if name = "version" ∧ reader.level = .top then .error .version
      else .error (.refused (.unexpected s!"--{name}"))
  | none, some _ => .error (.refused (.unexpected s!"--{name}"))

/-- Reads options with short names, of which the first one decides. -/
def readShort (reader : ArgumentReader) (first : Char) : Except Halt ArgumentReader :=
  if first = 'h' then .error (.help reader.level.about)
  else if first = 'V' ∧ reader.level = .top then .error .version
  else .error (.refused (.unexpected (String.ofList ['-', first])))

/-- Reads an argument that is no option. -/
def readWord (reader : ArgumentReader) (word : String) : Except Halt ArgumentReader :=
  match reader.level with
  | .command _ => .error (.refused (.unexpected word))
  | .top =>
      if word = "help" then .ok { reader with level := .helping none }
      else
        match Name.all.lookup word with
        | some name => .ok { reader with level := .command name, seen := [] }
        | none => .error (.refused (.unknownCommand word))
  | .helping about =>
      match about, Name.all.lookup word with
      | none, some name => .ok { reader with level := .helping (some name) }
      | _, _ =>
          if word = "help" ∧ about = none then .ok reader
          else .error (.refused (.unknownCommand word))

/-- Whether an argument looks like an option rather than a value. -/
def looksLikeOption (argument : String) : Bool :=
  match argument.toList with
  | '-' :: _ :: _ => true
  | _ => false

/-- Reads one argument. -/
def read (reader : ArgumentReader) (argument : String) : Except Halt ArgumentReader :=
  if reader.ended then .error (.refused (.unexpected argument))
  else
    match reader.waiting with
    | some rule =>
        if looksLikeOption argument then .error (.refused (.noValue rule.name))
        else reader.accept rule argument
    | none =>
        match argument.toList with
        | ['-', '-'] => .ok { reader with ended := true }
        | '-' :: '-' :: text => reader.readLong text
        | '-' :: first :: _ => reader.readShort first
        | _ => reader.readWord argument

end ArgumentReader

/-- What a repair is to fill: what is missing, a range between two heights, or the heights of a
listing. -/
inductive Target
  | missing
  | between (start stop : Nat)
  | listed (path : String)
deriving DecidableEq, Repr

/-- A repair may be told other workers, another node and another log than the configuration
names, and to print its plan only. -/
structure RepairOrder where
  target : Target
  workers : Option UInt64
  url : Option String
  directory : Option String
  dryRun : Bool
deriving DecidableEq, Repr

/-- A command with what is asked of it. -/
inductive Order
  | repair (order : RepairOrder)
  | gaps (json : Bool)
  | scanLog (json : Bool)
  | config
deriving DecidableEq, Repr

/-- A call of the program names a command, and may name a configuration and how to log. -/
structure Call where
  config : Option String
  level : Option String
  format : Option EventFormat
  order : Order
deriving DecidableEq, Repr

namespace Arguments

/-- A range needs both its ends, unless a listing stands in for it. -/
def target (arguments : Arguments) : Except ArgumentFault Target :=
  match arguments.start, arguments.stop, arguments.listing with
  | some _, _, some _ => .error (.conflict "start" "heights-file")
  | some _, none, none => .error (.absent "end")
  | none, some _, none => .error (.absent "start")
  | some start, some stop, none => .ok (.between start stop)
  | none, _, some path => .ok (.listed path)
  | none, none, none => .ok .missing

/-- The order to a command. -/
def order (arguments : Arguments) : Name → Except ArgumentFault Order
  | .repair => do
      return .repair ⟨← arguments.target, arguments.workers, arguments.url, arguments.directory,
        arguments.dryRun⟩
  | .gaps => .ok (.gaps arguments.json)
  | .scanLog => .ok (.scanLog arguments.json)
  | .config => .ok .config

end Arguments

/-- The call that was read. -/
def ArgumentReader.call (reader : ArgumentReader) : Except Halt Call :=
  match reader.waiting, reader.level with
  | some rule, _ => .error (.refused (.noValue rule.name))
  | none, .top => .error (.refused .noCommand)
  | none, .helping about => .error (.help about)
  | none, .command name =>
      let arguments := reader.arguments
      match arguments.order name with
      | .error fault => .error (.refused fault)
      | .ok order => .ok ⟨arguments.config, arguments.level, arguments.format, order⟩

/-- The call that arguments make. -/
def Call.ofArguments (arguments : List String) : Except Halt Call := do
  (← arguments.foldlM ArgumentReader.read ArgumentReader.blank).call

end Backfill.Command
