import Restyle.CommandLine.Usage
/-!
The help on a command. The short form has a line for each argument; the detailed form sets what is
said of an argument below it and explains the values that it can have.
-/

namespace Restyle.CommandLine

def padded (width : Nat) (s : String) : String :=
  s ++ String.ofList (List.replicate (width - s.length) ' ')

def widest (ss : List String) : Nat := (ss.map String.length).foldl max 0

/-- What stands before the name of an argument. -/
def Argument.lead (a : Argument) : String :=
  if a.isPositional then "  "
  else match a.short with
    | some c => "  -" ++ c.toString ++ ", "
    | none => "      "

/-- What is said of an argument. The one that asks for help tells of the other form of the help. -/
def Command.helpOn (c : Command) (detailed : Bool) (a : Argument) : String :=
  if a.role == .help && c.hasDetails then
    a.help ++ (if detailed then " (see a summary with '-h')" else " (see more with '--help')")
  else a.help

/-- The default value of an argument, as it is shown. -/
def Argument.defaultNote (a : Argument) : Option String :=
  a.default.map fun d => "[default: " ++ d ++ "]"

def Command.briefLine (c : Command) (width : Nat) (a : Argument) : String :=
  let choices := if a.choices.isEmpty then []
    else ["[possible values: " ++ ", ".intercalate (a.choices.map (·.name)) ++ "]"]
  a.lead ++ padded width (a.shown) ++ "  "
    ++ " ".intercalate (c.helpOn false a :: a.defaultNote.toList ++ choices) ++ "\n"

def margin : String := "          "

def Command.detailedLines (c : Command) (a : Argument) : String :=
  let width := widest (a.choices.map (·.name)) + 1
  let choices := if a.choices.isEmpty then ""
    else "\n" ++ margin ++ "Possible values:\n" ++ String.join (a.choices.map fun v =>
      margin ++ "- " ++ padded width (v.name ++ ":") ++ " " ++ v.help ++ "\n")
  let default := match a.defaultNote with
    | some note => margin ++ "\n" ++ margin ++ note ++ "\n"
    | none => ""
  a.lead ++ a.shown ++ "\n" ++ margin ++ c.helpOn true a ++ "\n" ++ choices ++ default

def Command.section_ (c : Command) (detailed : Bool) (title : String) (as : List Argument) :
    String :=
  if as.isEmpty then ""
  else
    let lines := if detailed then "\n".intercalate (as.map c.detailedLines)
      else String.join (as.map (c.briefLine (widest (as.map (·.shown)))))
    "\n" ++ title ++ ":\n" ++ lines

/-- The part of the help on the commands that can be given. -/
def Command.commandSection (c : Command) : String :=
  if c.subcommands.isEmpty then ""
  else
    let width := widest (c.subcommands.map (·.1))
    "\nCommands:\n" ++ String.join (c.subcommands.map fun (word, about) =>
      "  " ++ padded width word ++ "  " ++ about ++ "\n")

/-- The help on a command. There is a detailed form only where some values are explained. -/
def Command.help (c : Command) (detailed : Bool) : String :=
  let detailed := detailed && c.hasDetails
  c.about ++ "\n\n" ++ c.usage ++ "\n" ++ c.commandSection
    ++ c.section_ detailed "Arguments" c.positionals
    ++ c.section_ detailed "Options" (c.named.mergeSort Argument.shownBefore)

end Restyle.CommandLine
