import Restyle.Scaffold
/-!
What can be written on the command line: the commands and the arguments that each takes.
-/

namespace Restyle.CommandLine

/-- A value that can be chosen, with its meaning. -/
structure Choice where
  name : String
  help : String
deriving DecidableEq, Repr, Inhabited

/-- What stands for a value. -/
inductive ValueKind where
  | text
  /-- A path, which cannot be empty. -/
  | path
  | choice (of_ : List Choice)
deriving DecidableEq, Repr, Inhabited

def ValueKind.choices : ValueKind → List String
  | text | path => []
  | choice cs => cs.map (·.name)

/-- What an argument does. -/
inductive Role where
  /-- It stands on its own place. -/
  | positional
  /-- It is named and has a value. -/
  | option (kind : ValueKind)
  /-- It is named and has no value. -/
  | flag
  | help
  | version
deriving DecidableEq, Repr, Inhabited

/-- An argument of a command. Those of a lower rank are shown first. -/
structure Argument where
  name : String
  short : Option Char := none
  role : Role
  placeholder : String := ""
  /-- Whether it may be left out and given again. -/
  repeats : Bool := false
  help : String
  default : Option String := none
  rank : Nat := 999
deriving DecidableEq, Repr, Inhabited

namespace Argument

def isPositional (a : Argument) : Bool := a.role == .positional

def shown (a : Argument) : String :=
  match a.role with
  | .positional => if a.repeats then s!"[{a.placeholder}]..." else s!"<{a.placeholder}>"
  | .option _ => s!"--{a.name} <{a.placeholder}>"
  | .flag | .help | .version => s!"--{a.name}"

/-- The values among which the one of an argument is chosen. -/
def choices (a : Argument) : List Choice :=
  match a.role with
  | .option (.choice cs) => cs
  | _ => []

/-- What decides between arguments of one rank: the letter, small letters before large ones, or else
the name. -/
def sortKey (a : Argument) : String :=
  match a.short with
  | some c => String.ofList [c.toLower, if c.isLower then '0' else '1']
  | none => a.name

/-- The order in which arguments are shown. -/
def shownBefore (a b : Argument) : Bool :=
  a.rank < b.rank || (a.rank == b.rank && a.sortKey ≤ b.sortKey)

end Argument

/-- A command: what it is called, what it does and what arguments it takes. -/
structure Command where
  name : String
  about : String
  arguments : List Argument
  /-- The commands that it leaves its work to. One of them has to be given. -/
  subcommands : List (String × String) := []
deriving DecidableEq, Repr, Inhabited

namespace Command

def positionals (c : Command) : List Argument := c.arguments.filter (·.isPositional)

def named (c : Command) : List Argument := c.arguments.filter (!·.isPositional)

def long? (c : Command) (name : String) : Option Argument := c.named.find? (·.name == name)

def short? (c : Command) (letter : Char) : Option Argument :=
  c.named.find? (·.short == some letter)

def hasDetails (c : Command) : Bool := c.arguments.any fun a => !a.choices.isEmpty

end Command

def programName : String := "create-r3f-app"

def programVersion : String := "0.1.0"

/-- The argument that asks for more lines in the log. It may also stand behind a command. -/
def verbose : Argument :=
  { name := "verbose", short := some 'v', role := .flag, help := "Log at debug level", rank := 0 }

/-- The argument that asks for help, which tells of the other form of the help where there is
one. -/
def helpArgument : Argument :=
  { name := "help", short := some 'h', role := .help, help := "Print help" }

def versionArgument : Argument :=
  { name := "version", short := some 'V', role := .version, help := "Print version" }

def jsonArgument : Argument :=
  { name := "json", role := .flag, help := "Print the migration report as JSON on stdout",
    rank := 3 }

def newCommand : Command where
  name := programName ++ " new"
  about := "Clone the starter, install dependencies and apply the chosen style system"
  arguments :=
    [{ name := "name", role := .positional, placeholder := "NAME", help := "Directory to create" },
      { name := "style", role := .option (.choice (Style.all.map fun s => ⟨s.name, s.description⟩)),
        placeholder := "STYLE", help := "Styling system of the generated project",
        default := some Style.tailwind.name, rank := 0 },
      { name := "template", role := .option .text, placeholder := "TEMPLATE",
        help := "Template repository to clone", default := some Scaffold.defaultTemplate,
        rank := 1 },
      { name := "branch", role := .option .text, placeholder := "BRANCH",
        help := "Template branch", default := some Scaffold.defaultBranch, rank := 2 },
      jsonArgument, verbose, helpArgument]

def migrateCommand : Command where
  name := programName ++ " migrate"
  about := "Migrate an existing project's utility classes to styled components"
  arguments :=
    [{ name := "project-root", role := .option .path, placeholder := "PROJECT_ROOT",
        help := "Project root; defaults to the nearest ancestor with a package.json", rank := 0 },
      { name := "config", role := .option .path, placeholder := "CONFIG",
        help := "JSON file overriding migration defaults", rank := 1 },
      { name := "dry-run", role := .flag, help := "Report what would change without writing",
        rank := 2 },
      jsonArgument, verbose, helpArgument]

def helpCommand : Command where
  name := programName ++ " help"
  about := "Print this message or the help of the given subcommand(s)"
  arguments :=
    [{ name := "subcommand", role := .positional, placeholder := "COMMAND", repeats := true,
        help := "Print help for the subcommand(s)" }]

def commands : List (String × Command) :=
  [("new", newCommand), ("migrate", migrateCommand), ("help", helpCommand)]

def command? (word : String) : Option Command :=
  (commands.find? fun c => c.1 == word).map (·.2)

def programCommand : Command where
  name := programName
  about := "Create a React Three Fiber app from the starter template"
  arguments := [verbose, helpArgument, versionArgument]
  subcommands := commands.map fun c => (c.1, c.2.about)

end Restyle.CommandLine
