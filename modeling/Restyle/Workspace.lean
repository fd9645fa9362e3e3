import Restyle.Program
/-!
The surroundings of a task: the files, the working directory, what was written and logged so far,
and what the programs in use remember. A task changes its workspace also when it fails.
-/

namespace Restyle

/-- How much a line of the log matters. -/
inductive Level where
  | information | warning
deriving DecidableEq, Repr, Inhabited

/-- A line of the log with the part of the program that it comes from. -/
structure Notice where
  level : Level
  origin : String
  text : String
deriving DecidableEq, Repr, Inhabited

/-- Files and a working directory, with the texts written to files and the lines logged so far,
oldest first. `memory` belongs to the programs in use. -/
structure Workspace (σ : Type) where
  tree : FileTree
  here : Location
  memory : σ
  writes : List (Path × String) := []
  log : List Notice := []

abbrev Task (σ ε α : Type) := ExceptT ε (StateM (Workspace σ)) α

namespace Task

variable {σ ε ε' α : Type}

def look (f : Workspace σ → Except ε α) : Task σ ε α := fun w => (f w, w)

def mapError (f : ε → ε') (t : Task σ ε α) : Task σ ε' α := fun w =>
  match t w with
  | (.ok a, w) => (.ok a, w)
  | (.error e, w) => (.error (f e), w)

/-- The outcome of a task, which does not fail then. -/
def outcome (t : Task σ ε α) : Task σ ε' (Except ε α) := fun w =>
  let (result, w) := t w
  (.ok result, w)

def readText (p : Path) : Task σ FileError String := look fun w => w.tree.readText w.here p

/-- Writes a text to a file in one step. -/
def writeText (p : Path) (s : String) : Task σ FileError Unit := fun w =>
  match w.tree.write w.here p s with
  | .ok t => (.ok (), { w with tree := t, writes := w.writes ++ [(p, s)] })
  | .error e => (.error e, w)

def note (level : Level) (origin text : String) : Task σ ε Unit := fun w =>
  (.ok (), { w with log := w.log ++ [⟨level, origin, text⟩] })

end Task

/-- How programs are found and called. -/
structure Programs (σ : Type) where
  /-- The file that can be run under a name. -/
  find? : String → Workspace σ → Option Path
  /-- Calls a program. -/
  launch : Invocation → Task σ FileError Completion

end Restyle
