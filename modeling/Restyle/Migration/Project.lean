import Restyle.Migration.Run
/-!
Migrations of projects with the tools that are found for them.
-/

namespace Restyle.Migration

variable {σ : Type} (programs : Programs σ)

def loadConfig (p : Path) : Task σ MigrationError Config := do
  let source ← (Task.readText p).mapError (.files p)
  match Config.ofJson source with
  | .ok c => return c
  | .error e => throw (.config e)

/-- The style compiler of a project, which has to be there. -/
def findCompiler (root : Path) (config : Config) : Task σ MigrationError (StyleCompiler σ) := do
  let bin ← Task.look fun w =>
    match programs.tool? "tailwindcss" root w with
    | some p => .ok p
    | none => .error (.compile (.compilerNotFound "tailwindcss"))
  return StyleCompiler.tailwind programs bin config.tailwindConfig

/-- The formatter of a project. Without one sources stay as they are generated. -/
def findFormatter {ε : Type} (root : Path) : Task σ ε (Formatter σ) := do
  match ← Task.look fun w => .ok (programs.tool? "prettier" root w) with
  | some bin => return Formatter.prettier programs bin
  | none =>
    Task.note .warning "r3f_migrate::collaborators"
      "prettier not found; generated files will not be formatted"
    return Formatter.passthrough

def runProject (root : Path) (config : Config) (dryRun : Bool) :
    Task σ MigrationError Report := do
  let compiler ← findCompiler programs root config
  let formatter ← findFormatter programs root
  Migration.run ⟨root, config, compiler, formatter, dryRun⟩

end Restyle.Migration
