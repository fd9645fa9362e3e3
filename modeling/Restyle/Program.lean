import Restyle.FileTree
/-!
Runs of external programs: what is called, and what a call leaves behind.
-/

namespace Restyle

/-- A call of a program. A program without a slash in its name is looked up on the search path. The
directory, seen from the caller's, is where the program works. -/
structure Invocation where
  program : Path
  arguments : List String
  directory : Option Path
  input : Option String
deriving DecidableEq, Repr, Inhabited

/-- What a program that came to its end leaves behind. A program ended by a signal has the exit code
minus one. -/
structure Completion where
  exitCode : Int
  output : String
  errors : String
deriving DecidableEq, Repr, Inhabited

namespace Program

def isRunnable (t : FileTree) (here : Location) (p : Path) : Bool :=
  match t.lookup here p with
  | .ok (.file _ executable) => executable
  | _ => false

/-- The program of a name in the first directory of a search path that holds it. -/
def find? (searchPath : List Path) (t : FileTree) (here : Location) (name : String) :
    Option Path :=
  if name.isEmpty then none
  else if name.toList.contains '/' then
    let p := (Path.mk ("/" ++ "/".intercalate here)).push ⟨name⟩
    if isRunnable t here p then some p else none
  else (searchPath.map fun dir => dir.push ⟨name⟩).find? (isRunnable t here)

/-- The file that a call runs, or why it runs none. A file that is found but cannot be run is told
from none at all. -/
def resolve (searchPath : List Path) (t : FileTree) (here : Location) (program : Path) :
    Except FileError Path :=
  if program.text.toList.contains '/' then
    match t.lookup here program with
    | .error e => .error e
    | .ok (.file _ true) => .ok program
    | .ok _ => .error .permissionDenied
  else
    let candidates := searchPath.map fun dir => dir.push program
    match candidates.find? (isRunnable t here) with
    | some p => .ok p
    | none =>
      if candidates.any (t.isPresent here) then .error .permissionDenied else .error .notFound

end Program

end Restyle
