import Restyle.Tool
/-!
Repositories: copying a template into a new project, and putting a project under version control.
-/

namespace Restyle.Repository

variable {σ : Type} (programs : Programs σ)

/-- Removes the history at a path, where there is one. -/
def dropHistory (history : Path) : Task σ ToolError Unit := fun w =>
  match w.tree.lookup w.here history with
  | .error .notFound => (.ok (), w)
  | .error e => (.error (.files e), w)
  | .ok (.file ..) => (.error (.files .notDirectory), w)
  | .ok .directory =>
    match w.tree.locate w.here history with
    | .ok place => (.ok (), { w with tree := w.tree.remove place })
    | .error e => (.error (.files e), w)

/-- Copies one branch of a template to a destination that is not there yet, without its history. -/
def clone (template branch : String) (destination : Path) : Task σ ToolError Unit := do
  Task.look fun w =>
    if w.tree.isPresent w.here destination then .error (.destinationExists destination)
    else .ok ()
  let args := ["clone", "--recursive", "--single-branch", "--branch", branch, template,
    destination.text]
  let _ ← programs.run "git" ⟨⟨"git"⟩, args, none, none⟩
  dropHistory (destination.push ⟨".git"⟩)

/-- The steps that put a project under version control as one commit. -/
def initialSteps (message : String) : List (List String) :=
  [["init", "--quiet"], ["add", "-A"], ["commit", "--quiet", "--no-verify", "-m", message]]

/-- Carries out steps one after the other. -/
def steps (dir : Path) : List (List String) → Task σ ToolError Unit
  | [] => pure ()
  | args :: rest => do
    let _ ← programs.run "git" ⟨⟨"git"⟩, args, some dir, none⟩
    steps dir rest

def init (dir : Path) (message : String) : Task σ ToolError Unit :=
  steps programs dir (initialSteps message)

end Restyle.Repository
