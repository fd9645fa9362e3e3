import Restyle.Migration.Project
import Restyle.Project
import Restyle.Tool.PackageManager
import Restyle.Tool.Repository
/-!
New projects. A template is copied, its packages are installed, the style system is applied, and the
project is put under version control. Each step is taken only when those before it succeeded; that
the last one fails is no failure of the whole.
-/

namespace Restyle

/-- The style system of a new project. -/
inductive Style where
  | tailwind | styled
deriving DecidableEq, Repr, Inhabited

namespace Style

def all : List Style := [tailwind, styled]

def name : Style → String
  | tailwind => "tailwind"
  | styled => "styled"

def title : Style → String
  | tailwind => "Tailwind"
  | styled => "Styled"

def description : Style → String
  | tailwind => "Keep the template's utility classes"
  | styled => "Migrate utility classes to styled-components"

def ofName? (s : String) : Option Style := all.find? fun style => style.name == s

end Style

/-- Why there is no new project. -/
inductive ScaffoldError where
  | name (r : Project.NameRejection)
  | taken (destination : Path)
  | tool (cause : ToolError)
  | migration (cause : MigrationError)
deriving DecidableEq, Repr

/-- A new project below a directory. -/
structure Scaffold where
  name : String
  parent : Path
  style : Style
  template : String
  branch : String
deriving DecidableEq, Repr, Inhabited

namespace Scaffold

/-- The template of a new project where none is given. -/
def defaultTemplate : String := "https://github.com/pmndrs/react-three-next"

/-- The branch of the template where none is given. -/
def defaultBranch : String := "main"

def styledPackages : List String := ["styled-components", "react-is"]

def styledDevelopmentPackages : List String := ["babel-plugin-styled-components"]

/-- The message of the first commit. -/
def commitMessage : String := "Initial commit from create-r3f-app"

def origin : String := "create_r3f_app::scaffold"

variable {σ : Type} (programs : Programs σ)

def destination (s : Scaffold) : Path := s.parent.push ⟨s.name⟩

/-- Accepts a name that is not taken. -/
def check (s : Scaffold) : Task σ ScaffoldError Unit :=
  match Project.checkName s.name with
  | .error r => throw (.name r)
  | .ok () => Task.look fun w =>
    if w.tree.isPresent w.here s.destination then .error (.taken s.destination) else .ok ()

/-- Applies the style system. For styled components this is a migration of the template. -/
def applyStyle (s : Scaffold) (manager : PackageManager) :
    Task σ ScaffoldError (Option Migration.Report) :=
  match s.style with
  | .tailwind => pure none
  | .styled => do
    (manager.add programs s.destination styledPackages).mapError .tool
    (manager.addForDevelopment programs s.destination styledDevelopmentPackages).mapError .tool
    let report ← (Migration.runProject programs s.destination {} false).mapError .migration
    return some report

/-- Puts the project under version control, or logs why that fails. -/
def commit (s : Scaffold) : Task σ ScaffoldError Unit := do
  match ← (Repository.init programs s.destination commitMessage).outcome with
  | .ok () => pure ()
  | .error e =>
    Task.note .warning origin ("could not initialize git repository: " ++ e.message)

/-- Makes the project. There is a report when its template was migrated. -/
def run (s : Scaffold) : Task σ ScaffoldError (Option Migration.Report) := do
  s.check
  Task.note .information origin s!"creating project name={s.name} style={s.style.title}"
  (Repository.clone programs s.template s.branch s.destination).mapError .tool
  let manager ← Task.look fun w => .ok (PackageManager.detect programs w)
  Task.note .information origin
    ("installing packages manager=" ++ Text.quoted manager.program)
  (manager.install programs s.destination).mapError .tool
  let report ← s.applyStyle programs manager
  s.commit programs
  Task.note .information origin s!"project ready dest={s.destination.text}"
  return report

end Scaffold

end Restyle
