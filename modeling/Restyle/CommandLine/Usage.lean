import Restyle.CommandLine.Syntax
/-!
How a command is used in one line, and what is said of a line that is no use of it.
-/

namespace Restyle.CommandLine

def Command.positionalUsage (c : Command) : String :=
  String.join (c.positionals.map (" " ++ ·.shown))

/-- What stands at the end of a line of usage for the command that has to be given. -/
def Command.subcommandUsage (c : Command) : String :=
  if c.subcommands.isEmpty then "" else " <COMMAND>"

def Command.usage (c : Command) : String :=
  "Usage: " ++ c.name ++ (if c.named.isEmpty then "" else " [OPTIONS]") ++ c.positionalUsage
    ++ c.subcommandUsage

def Command.usageWith (c : Command) (used : List Argument) : String :=
  if used.isEmpty then c.usage
  else
    let options := (used.filter (!·.isPositional)).map (·.shown)
    "Usage: " ++ c.name ++ String.join (options.eraseDups.map (" " ++ ·)) ++ c.positionalUsage
      ++ c.subcommandUsage

/-- What an unknown argument may stand for: an argument of the command itself, one of another
command, or a value that looks like an argument. -/
inductive Hint where
  | here (name : String)
  | under (subcommand name : String)
  | value
deriving DecidableEq, Repr, Inhabited

/-- Why a command line is refused. -/
inductive UsageError where
  /-- Nothing is asked for. -/
  | nothingAsked
  | missingCommand
  | unknownCommand (word : String) (similar : List String) (usage : String)
  | unknownArgument (word : String) (hint : Option Hint) (usage : String)
  /-- A command follows dashes that keep it from being one. -/
  | hiddenCommand (word : String)
  | missingArguments (missing : List String) (usage : String)
  | missingValue (argument : String) (choices : List String)
  | invalidValue (value argument : String) (choices : List String) (similar : Option String)
  | unexpectedValue (value argument usage : String)
  | repeated (argument usage : String)
deriving DecidableEq, Repr, Inhabited

namespace UsageError

private def choiceLine (title : String) (choices : List String) : String :=
  if choices.isEmpty then "" else "\n  [" ++ title ++ ": " ++ ", ".intercalate choices ++ "]"

private def tip (s : String) : String := "\n  tip: " ++ s

private def similarTip (noun : String) : List String → String
  | [] => ""
  | [s] => "\n" ++ tip s!"a similar {noun} exists: '{s}'"
  | ss =>
    let quoted := ss.map fun s => s!"'{s}'"
    "\n" ++ tip (s!"some similar {noun}s exist: " ++ ", ".intercalate quoted)

private def hintTip (word : String) : Hint → String
  | .here name => similarTip "argument" ["--" ++ name]
  | .under subcommand name => "\n" ++ tip s!"'{subcommand} --{name}' exists"
  | .value => "\n" ++ tip s!"to pass '{word}' as a value, use '-- {word}'"

private def usagePart (usage : String) : String := "\n\n" ++ usage

/-- The first line of what is said of a refused command line, with what belongs to it. -/
def account : UsageError → String
  | nothingAsked => ""
  | missingCommand =>
    s!"'{programName}' requires a subcommand but one was not provided"
      ++ choiceLine "subcommands" (commands.map (·.1)) ++ usagePart programCommand.usage
  | unknownCommand word similar usage =>
    s!"unrecognized subcommand '{word}'" ++ similarTip "subcommand" similar ++ usagePart usage
  | unknownArgument word hint usage =>
    s!"unexpected argument '{word}' found" ++ String.join (hint.toList.map (hintTip word))
      ++ usagePart usage
  | hiddenCommand word =>
    s!"unexpected argument '{word}' found" ++ "\n"
      ++ tip s!"subcommand '{word}' exists; to use it, remove the '--' before it"
      ++ usagePart programCommand.usage
  | missingArguments missing usage =>
    "the following required arguments were not provided:"
      ++ String.join (missing.map ("\n  " ++ ·)) ++ usagePart usage
  | missingValue argument choices =>
    s!"a value is required for '{argument}' but none was supplied"
      ++ choiceLine "possible values" choices
  | invalidValue value argument choices similar =>
    s!"invalid value '{value}' for '{argument}'" ++ choiceLine "possible values" choices
      ++ similarTip "value" similar.toList
  | unexpectedValue value argument usage =>
    s!"unexpected value '{value}' for '{argument}' found; no more were expected"
      ++ usagePart usage
  | repeated argument usage =>
    s!"the argument '{argument}' cannot be used multiple times" ++ usagePart usage

def message (e : UsageError) : String :=
  "error: " ++ e.account ++ "\n\nFor more information, try '--help'.\n"

end UsageError

end Restyle.CommandLine
