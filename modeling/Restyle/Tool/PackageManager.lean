import Restyle.Tool
/-!
Package managers: which one is used, and how packages are installed by it.
-/

namespace Restyle

/-- A package manager. -/
inductive PackageManager where
  | yarn | npm
deriving DecidableEq, Repr, Inhabited

namespace PackageManager

def program : PackageManager → String
  | yarn => "yarn"
  | npm => "npm"

def installArguments (_ : PackageManager) : List String := ["install"]

def addArguments (m : PackageManager) (packages : List String) : List String :=
  (match m with
    | yarn => ["add"]
    | npm => ["install"]) ++ packages

def addForDevelopmentArguments (m : PackageManager) (packages : List String) : List String :=
  (match m with
    | yarn => ["add", "--dev"]
    | npm => ["install", "--save-dev"]) ++ packages

variable {σ : Type} (programs : Programs σ)

/-- The package manager in use: yarn where it is found. -/
def detect (w : Workspace σ) : PackageManager :=
  if (programs.find? "yarn" w).isSome then yarn else npm

def run (m : PackageManager) (root : Path) (args : List String) : Task σ ToolError Unit := do
  let found ← Task.look fun w =>
    match programs.find? m.program w with
    | some p => .ok p
    | none => .error (.notFound m.program)
  let _ ← programs.run m.program ⟨found, args, some root, none⟩

def install (m : PackageManager) (root : Path) : Task σ ToolError Unit :=
  m.run programs root m.installArguments

def add (m : PackageManager) (root : Path) (packages : List String) : Task σ ToolError Unit :=
  m.run programs root (m.addArguments packages)

def addForDevelopment (m : PackageManager) (root : Path) (packages : List String) :
    Task σ ToolError Unit :=
  m.run programs root (m.addForDevelopmentArguments packages)

end PackageManager

end Restyle
