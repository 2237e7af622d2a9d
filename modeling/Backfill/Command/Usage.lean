/-
This file explains the command line.
-/

import Backfill.Command.Arguments
import Backfill.Text.Column

namespace Backfill.Command

/-- The text of the version. -/
def versionText : String :=
  "chainmend 0.1.0\n"

/-- What a command does. -/
def Name.note : Name → String
  | .repair => "Detect gaps and backfill them"
  | .gaps => "List detected gaps without repairing"
  | .scanLog => "Summarize the binary state-change log"
  | .config => "Print the effective configuration as TOML"

/-- The name of a command. -/
def Name.text (name : Name) : String :=
  ((Name.all.find? (·.2 = name)).map Prod.fst).getD ""

/-- The rows of a table of names with notes. -/
def noteRows (rows : List (String × String)) : String :=
  let width := rows.foldl (fun width row => max width row.1.length) 0
  String.join (rows.map fun row => s!"  {Text.padRight width row.1}  {row.2}\n")

/-- An option with the placeholder of its value. -/
def OptionRule.usage (rule : OptionRule) : String :=
  s!"    --{rule.name}" ++ ((rule.placeholder.map fun name => s!" <{name}>").getD "")

/-- The rows of the options at a level. -/
def Level.optionRows (level : Level) : List (String × String) :=
  level.options.map (fun rule => (rule.usage, rule.note)) ++ [("-h, --help", "Print help")] ++
    if level = .top then [("-V, --version", "Print version")] else []

/-- The rows of the commands. -/
def commandRows : List (String × String) :=
  Name.all.map (fun entry => (entry.1, entry.2.note)) ++
    [("help", "Print this message or the help of the given subcommand(s)")]

/-- The explanation of the program or of a command. -/
def helpText : Option Name → String
  | none =>
      "Detect and backfill missing block heights in a relational replica\n\n" ++
        "Usage: chainmend [OPTIONS] <COMMAND>\n\nCommands:\n" ++ noteRows commandRows ++
        "\nOptions:\n" ++ noteRows Level.top.optionRows
  | some name =>
      s!"{name.note}\n\nUsage: chainmend {name.text} [OPTIONS]\n\nOptions:\n" ++
        noteRows (Level.command name).optionRows

/-- This is the wording of a refusal of the arguments. -/
def ArgumentFault.message : ArgumentFault → String
  | .unexpected argument => s!"unexpected argument '{argument}' found"
  | .unknownCommand argument => s!"unrecognized subcommand '{argument}'"
  | .noCommand => "'chainmend' requires a subcommand but one was not provided"
  | .noValue option => s!"a value is required for '--{option}' but none was supplied"
  | .surplusValue option => s!"unexpected value for '--{option}' found; no more were expected"
  | .badValue option value => s!"invalid value '{value}' for '--{option}'"
  | .repeated option => s!"the argument '--{option}' cannot be used multiple times"
  | .absent option => s!"the argument '--{option}' was not provided"
  | .conflict first second => s!"the argument '--{first}' cannot be used with '--{second}'"

/-- The text of a refusal of the arguments. -/
def ArgumentFault.text (fault : ArgumentFault) : String :=
  s!"error: {fault.message}\n\nFor more information, try '--help'.\n"

end Backfill.Command
