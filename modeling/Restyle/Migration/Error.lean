import Restyle.Migration.Config
import Restyle.Rewrite
import Restyle.Tool
/-!
How a migration fails.
-/

namespace Restyle

/-- Why there are no styles to work with. Nothing has been written then. -/
inductive CompileError where
  | compilerNotFound (tool : String)
  | unreadable (sheet : Path) (cause : FileError)
  | tool (cause : ToolError)
deriving DecidableEq, Repr

def CompileError.message : CompileError → String
  | compilerNotFound name =>
    s!"Style compiler '{name}' not found. Install dependencies first."
  | unreadable sheet cause => s!"Failed to read style sheet {sheet.text}: {cause.message}"
  | tool cause => s!"Style compiler failed: {cause.message}"

/-- Why a migration fails. -/
inductive MigrationError where
  | compile (cause : CompileError)
  | inconsistent (file : Path) (message : String)
  | unscannable (file : Path) (language : Language)
  | unsupported (file : Path) (extension : String)
  | unformatted (file : Path) (cause : ToolError)
  | invalidResult (file : Path) (cause : RewriteError)
  | files (path : Path) (cause : FileError)
  | config (cause : Migration.ConfigError)
deriving DecidableEq, Repr

namespace MigrationError

def message : MigrationError → String
  | compile cause => cause.message
  | inconsistent file m => s!"Internal consistency error in {file.text}: {m}"
  | unscannable file l => s!"Failed to scan {file.text}: " ++ Markup.noMarkupMessage l
  | unsupported file e =>
    s!"Unsupported file {file.text}: " ++ Language.unsupportedMessage e
  | unformatted file cause => s!"Failed to format {file.text}: {cause.message}"
  | invalidResult file cause =>
    s!"Rewriting {file.text} produced invalid output: {cause.message}"
  | files path cause => s!"I/O error on {path.text}: {cause.message}"
  | config cause => s!"Invalid configuration: {cause.message}"

def ofRewrite (file : Path) : RewriteError → MigrationError
  | .inconsistent _ m => inconsistent file m
  | cause => invalidResult file cause

end MigrationError

end Restyle
