import Restyle.Text
import Restyle.Workspace
/-!
Calls of tools and how they fail, and the two tools that a migration calls: formatters of sources,
and compilers of stylesheets, which turn a sheet of utility classes into plain rules.
-/

namespace Restyle

/-- Why a tool does not do its work. -/
inductive ToolError where
  | notFound (tool : String)
  | notExecuted (tool : String) (cause : FileError)
  | failed (tool : String) (code : Int) (errors : String)
  | destinationExists (p : Path)
  | files (cause : FileError)
deriving DecidableEq, Repr, Inhabited

/-- What is said of a tool that does not do its work. -/
def ToolError.message : ToolError → String
  | notFound tool => s!"Tool '{tool}' not found in node_modules/.bin or on PATH"
  | notExecuted tool cause => s!"Failed to execute '{tool}': {cause.message}"
  | failed tool code errors => s!"'{tool}' exited with status {code}: {errors}"
  | destinationExists p => s!"Destination '{p.text}' already exists"
  | files cause => cause.message

def Completion.success (tool : String) (c : Completion) : Except ToolError Completion :=
  if c.exitCode == 0 then .ok c
  else .error (.failed tool c.exitCode (String.ofList (Text.trim c.errors.toList)))

namespace Programs

variable {σ : Type}

def run (programs : Programs σ) (tool : String) (i : Invocation) : Task σ ToolError Completion := do
  let c ← (programs.launch i).mapError (.notExecuted tool)
  match c.success tool with
  | .ok c => return c
  | .error e => throw e

/-- The file that a tool of a project is run from: the one installed in the project, or else the one
on the search path. -/
def tool? (programs : Programs σ) (name : String) (root : Path) (w : Workspace σ) : Option Path :=
  let installed := ((root.push ⟨"node_modules"⟩).push ⟨".bin"⟩).push ⟨name⟩
  if w.tree.isPresent w.here installed then some installed else programs.find? name w

end Programs

/-- A formatter of sources for the project at a root. The file only tells of which kind the source
is; it is not read. -/
structure Formatter (σ : Type) where
  name : String
  format : (source : String) → (file : Path) → (root : Path) → Task σ ToolError String

namespace Formatter

variable {σ : Type}

def passthrough : Formatter σ where
  name := "passthrough"
  format source _ _ := pure source

/-- The formatter at a path, which turns its input into its output. -/
def prettier (programs : Programs σ) (bin : Path) : Formatter σ where
  name := "prettier"
  format source file root := do
    let args := ["--stdin-filepath", file.text]
    let c ← programs.run "prettier" ⟨bin, args, some root, some source⟩
    return c.output

end Formatter

/-- A compiler of stylesheets for the project at a root. -/
structure StyleCompiler (σ : Type) where
  name : String
  compile : (source : String) → (root : Path) → Task σ ToolError String

namespace StyleCompiler

variable {σ : Type}

def inputPlace : Location := ["tmp", ".restyle-input.css"]

def withInput {α : Type} (source : String) (task : Path → Task σ ToolError α) :
    Task σ ToolError α := fun w =>
  let tree := (w.tree.set ["tmp"] .directory).set inputPlace (.file (.text source) false)
  let (result, w) := task ⟨"/" ++ "/".intercalate inputPlace⟩ { w with tree := tree }
  (result, { w with tree := w.tree.remove inputPlace })

/-- The compiler at a path, with a configuration file of the project. It reads its input from a file
and writes the rules to its output. -/
def tailwind (programs : Programs σ) (bin : Path) (config : String) : StyleCompiler σ where
  name := "tailwindcss"
  compile source root := withInput source fun input => do
    let args := ["-c", config, "-i", input.text]
    let c ← programs.run "tailwindcss" ⟨bin, args, some root, none⟩
    return c.output

end StyleCompiler

end Restyle
