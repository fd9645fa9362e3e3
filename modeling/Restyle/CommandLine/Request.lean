import Restyle.CommandLine.Reader
/-!
What the program is asked to do by a command line.
-/

namespace Restyle.CommandLine

/-- What the program is asked to do. -/
inductive Request where
  | help (command : Command) (detailed : Bool)
  | version
  | new (name : String) (style : Style) (template branch : String) (json : Bool)
  | migrate (root config : Option Path) (dryRun json : Bool)
deriving DecidableEq, Repr

/-- The value that was given for an argument, or else its default. -/
def Progress.value? (c : Command) (p : Progress) (name : String) : Option String :=
  match p.given.find? (·.argument.name == name) with
  | some g => g.value
  | none => (c.arguments.find? (·.name == name)).bind (·.default)

/-- Whether a flag was given. -/
def Progress.isSet (p : Progress) (name : String) : Bool := p.given.any (·.argument.name == name)

namespace Request

/-- The request of what was read behind the word for a new project. -/
def ofNew (p : Progress) : Request :=
  let value (name : String) : String := (p.value? newCommand name).getD ""
  .new (value "name") ((Style.ofName? (value "style")).getD .tailwind) (value "template")
    (value "branch") (p.isSet "json")

/-- The request of what was read behind the word for a migration. -/
def ofMigrate (p : Progress) : Request :=
  let path? (name : String) : Option Path := (p.value? migrateCommand name).map Path.mk
  .migrate (path? "project-root") (path? "config") (p.isSet "dry-run") (p.isSet "json")

def ofHelp : List String → Except UsageError Request
  | [] => .ok (.help programCommand true)
  | word :: rest =>
    match command? word, rest with
    | none, _ => .error (.unknownCommand word [] programCommand.usage)
    | some c, [] => .ok (.help c true)
    | some c, next :: _ => .error (.unknownCommand next [] c.usage)

/-- The request of what was read for a command, or of what ended the reading. -/
def ofRead (c : Command) (make : Progress → Request) :
    Except Stop Progress → Except UsageError Request
  | .ok p => .ok (make p)
  | .error (.refused e) => .error e
  | .error (.help detailed) => .ok (.help c detailed)
  | .error .version => .ok .version
  | .error (.enter word _) => .error (.unknownCommand word [] c.usage)

/-- The request of the words behind the one that names a command. -/
def ofCommand (word : String) (rest : List String) : Except UsageError Request :=
  match word with
  | "new" => ofRead newCommand ofNew (Progress.read newCommand {} rest)
  | "migrate" => ofRead migrateCommand ofMigrate (Progress.read migrateCommand {} rest)
  | _ => ofHelp rest

def ofWords (words : List String) : Except UsageError Request :=
  match Progress.read programCommand {} words with
  | .error (.enter word rest) => ofCommand word rest
  | result => ofRead programCommand (fun _ => .help programCommand false) result

end Request

end Restyle.CommandLine
