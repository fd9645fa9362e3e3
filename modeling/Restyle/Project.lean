import Restyle.FileTree
import Restyle.Text
/-!
Projects: their names, the paths inside them, and their files.

The name of a new project is one directory name that is not hidden and has no blanks. A configured
path is taken from the root of the project and must not leave it; for reports a path is shown
without the root. A walk below a directory meets its files by name and then, by name, goes into its
subdirectories; those of installed packages, version control and build results are passed over.
-/

namespace Restyle.Project

/-- Why a name is refused. -/
inductive NameRejection where
  | empty
  | hidden (name : String)
  | notSingle (name : String)
deriving DecidableEq, Repr

def NameRejection.message : NameRejection → String
  | empty => "project name is empty"
  | hidden name => s!"project name '{name}' must not start with '.'"
  | notSingle name =>
    s!"project name '{name}' must be a single directory name without whitespace"

def isNameBreak (c : Char) : Bool := c == '/' || c == '\\' || Text.isBlank c

def checkName (name : String) : Except NameRejection Unit :=
  match name.toList with
  | [] => .error .empty
  | c :: cs =>
    if c == '.' then .error (.hidden name)
    else if (c :: cs).any isNameBreak then .error (.notSingle name)
    else .ok ()

/-- Why a configured path is refused. -/
inductive PathRejection where
  | absolute (p : Path)
  | escapes (p root : Path)
deriving DecidableEq, Repr

def PathRejection.message : PathRejection → String
  | absolute p => s!"Path '{p.text}' must be relative to the project root"
  | escapes p root => s!"Path '{p.text}' escapes project root '{root.text}'"

/-- The place that a relative path names below the root of a project, without dots. -/
def resolve (root p : Path) : Except PathRejection Path :=
  if p.isAbsolute then .error (.absolute p)
  else
    let place := (root.push p).normalize
    if place.startsWith root.normalize then .ok place else .error (.escapes p root)

/-- A path as it is shown in a report: without the root, where it lies below it. -/
def shown (root p : Path) : Path := (p.relativeTo? root).getD p

def skippedDirectories : List String := ["node_modules", ".git", ".next", "dist", "build"]

/-- What stands right in a place, by name. -/
def entriesIn (t : FileTree) (place : Location) : List (String × FileNode) :=
  (t.childrenOf place).mergeSort fun a b => a.1 ≤ b.1

def filesIn (t : FileTree) (place : Location) : List String :=
  ((entriesIn t place).filter fun e => e.2 != .directory).map (·.1)

/-- The directories right in a place that are gone into. -/
def directoriesIn (t : FileTree) (place : Location) : List String :=
  ((entriesIn t place).filter fun e =>
    e.2 == .directory && !skippedDirectories.contains e.1).map (·.1)

theorem mem_entriesIn_iff {t : FileTree} {place : Location} {s : String} {n : FileNode} :
    (s, n) ∈ entriesIn t place ↔ (place ++ [s], n) ∈ t.entries :=
  List.mem_mergeSort.trans FileTree.mem_childrenOf_iff

theorem mem_directoriesIn_iff {t : FileTree} {place : Location} {s : String} :
    s ∈ directoriesIn t place
      ↔ (place ++ [s], .directory) ∈ t.entries ∧ s ∉ skippedDirectories := by
  have entry_iff (n : FileNode) : (s, n) ∈ entriesIn t place ↔ (place ++ [s], n) ∈ t.entries :=
    mem_entriesIn_iff
  simp only [directoriesIn, List.mem_map, List.mem_filter, Prod.exists]
  grind

/-- The ways from a place to the files below it, as a walk meets them: those of the files right
there and then, directory by directory, those of the files below each that is gone into. -/
def visit (t : FileTree) (place : Location) : List Location :=
  (filesIn t place).map ([·]) ++
    (directoriesIn t place).attach.flatMap fun s => (visit t (place ++ [s.1])).map (s.1 :: ·)
termination_by t.height - place.length
decreasing_by
  have deeper := FileTree.length_le_height (mem_directoriesIn_iff.mp s.2).1
  rw [List.length_append, List.length_singleton] at deeper ⊢
  omega

/-- The files below a directory in order, none where there is no directory. -/
def listFiles (t : FileTree) (here : Location) (dir : Path) : List Path :=
  match t.locate here dir with
  | .error _ => []
  | .ok place =>
    if t.isDirectoryAt place then
      (visit t place).map fun way => way.foldl (fun p name => p.push ⟨name⟩) dir
    else []

/-- Whether a file has one of the names, without its extension, and one of the extensions. -/
def isTarget (names extensions : List String) (p : Path) : Bool :=
  p.stem?.any names.contains && p.extension?.any extensions.contains

/-- The files with one of the names and one of the extensions. -/
def selectTargets (files : List Path) (names extensions : List String) : List Path :=
  files.filter (isTarget names extensions)

def markers : List String := ["package.json", "tailwind.config.js", "next.config.js"]

def isMarked (t : FileTree) (here : Location) (dir : Path) : Bool :=
  markers.any fun m => t.isPresent here (dir.push ⟨m⟩)

/-- The nearest directory from a start upwards that is marked as the root of a project. -/
def root? (t : FileTree) (here : Location) (start : Path) : Option Path := do
  let first ← if t.isFile here start then start.parent? else some start
  first.ancestors.find? (isMarked t here)

end Restyle.Project
