import Restyle.CommandLine.Failure
import Restyle.CommandLine.Help
import Restyle.CommandLine.Request
/-!
Runs of the program: what a command line makes of a workspace, and what is written for it.
-/

namespace Restyle.CommandLine

/-- What a run leaves to be seen: the exit code, the output, what is said of a command line that is
refused, and how the command failed. -/
structure Outcome where
  code : Nat
  output : String := ""
  usage : Option String := none
  failure : Option CommandError := none
deriving DecidableEq, Repr

variable {σ : Type} (programs : Programs σ)

def currentDirectory (w : Workspace σ) : Path := ⟨"/" ++ "/".intercalate w.here⟩

/-- The path of what stands at a path, from the root and without dots. -/
def absolute (w : Workspace σ) (p : Path) : Except FileError Path := do
  let _ ← w.tree.lookup w.here p
  let place ← w.tree.locate w.here p
  return ⟨"/" ++ "/".intercalate place⟩

/-- The root of the project: the given one, or the nearest one upwards from the working directory,
or else that directory. -/
def projectRoot (given : Option Path) (w : Workspace σ) : Except FileError Path :=
  let here := currentDirectory w
  absolute w (given.getD ((Project.root? w.tree w.here here).getD here))

def reportOrigin : String := "create_r3f_app::output"

def reportLines (r : Migration.Report) : List String :=
  (r.files.map fun f =>
    s!"file={f.path.text} components=" ++ ", ".intercalate f.components
      ++ s!" written={f.written}")
  ++ (r.styleFiles.map fun f => s!"style_file={f.path.text} components={f.components.length}")
  ++ (if r.droppedTokens.isEmpty then []
    else ["classes with no compiled styles were dropped tokens="
      ++ " ".intercalate r.droppedTokens])
  ++ [s!"done components={r.componentCount} dry_run={r.dryRun}"]

def noteAll {ε : Type} : List String → Task σ ε Unit
  | [] => pure ()
  | line :: lines => do
    Task.note .information reportOrigin line
    noteAll lines

/-- Tells of a report: as JSON, which is the output then, or in the log. -/
def tell {ε : Type} (r : Migration.Report) (json : Bool) : Task σ ε String :=
  if json then pure (r.toJson.pretty ++ "\n")
  else do
    noteAll (reportLines r)
    return ""

def runNew (name : String) (style : Style) (template branch : String) (json : Bool) :
    Task σ CommandError String := do
  let parent ← Task.look fun w => .ok (currentDirectory w)
  let scaffold : Scaffold := ⟨name, parent, style, template, branch⟩
  match ← (scaffold.run programs).mapError .scaffold with
  | some report => tell report json
  | none => return ""

def runMigrate (root config : Option Path) (dryRun json : Bool) : Task σ CommandError String := do
  let root ← Task.look fun w => (projectRoot root w).mapError .root
  let config ← match config with
    | some p => (Migration.loadConfig p).mapError .migration
    | none => pure {}
  Task.note .information "create_r3f_app"
    s!"migrating to styled-components project_root={root.text} dry_run={dryRun}"
  let report ← (Migration.runProject programs root config dryRun).mapError .migration
  tell report json

def finish (task : Task σ CommandError String) (w : Workspace σ) : Outcome × Workspace σ :=
  match task w with
  | (.ok output, w) => ({ code := 0, output := output }, w)
  | (.error e, w) => ({ code := 1, failure := some e }, w)

/-- What is written where a command line is refused. Where nothing is asked for it is the help. -/
def refusal : UsageError → String
  | .nothingAsked => programCommand.help false
  | e => e.message

def answer (r : Request) (w : Workspace σ) : Outcome × Workspace σ :=
  match r with
  | .help command detailed => ({ code := 0, output := command.help detailed }, w)
  | .version => ({ code := 0, output := s!"{programName} {programVersion}\n" }, w)
  | .new name style template branch json =>
    finish (runNew programs name style template branch json) w
  | .migrate root config dryRun json => finish (runMigrate programs root config dryRun json) w

def run (words : List String) (w : Workspace σ) : Outcome × Workspace σ :=
  match Request.ofWords words with
  | .ok r => answer programs r w
  | .error e => ({ code := 2, usage := some (refusal e) }, w)

end Restyle.CommandLine
