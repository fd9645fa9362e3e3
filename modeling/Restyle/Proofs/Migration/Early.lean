import Restyle.Migration.Project
import Restyle.Proofs.Migration.Outcome
import Restyle.Proofs.Migration.Steps
/-!
Errors that come before the first write. No stage that writes fails for its configuration or for the
styles, so with such an error a migration has called the compiler at most.
-/

namespace Restyle

namespace Migration

variable {σ : Type} {m : Migration σ} {w w' : Workspace σ}

theorem files_late {α : Type} (p : Path) (t : Task σ FileError α) :
    (t.mapError (MigrationError.files p)).FailsOnly (¬ ·.IsEarly) := by
  refine .mapError ?_ t
  exact fun cause => not_false

theorem stepsHave_late (m : Migration σ) :
    m.StepsHave fun α (t : Task σ MigrationError α) => t.FailsOnly (¬ ·.IsEarly) where
  toComposes := Task.FailsOnly.composes σ _
  throws late := by
    refine .throw ?_
    exact late
  reads file := files_late file _
  formats p s := by
    refine .mapError ?_ _
    exact fun cause => not_false
  persists p s := by
    have c := Task.FailsOnly.composes σ (¬ MigrationError.IsEarly ·)
    unfold persist
    split
    · exact c.pure false
    · exact c.bind (files_late p _) fun _ => c.pure true

theorem prepare_of_early {e : MigrationError} (failed : m.run w = (.error e, w'))
    (early : e.IsEarly) : m.prepare w = (.error e, w') := by
  rw [run_eq_carryOut] at failed
  rcases Task.bind_eq_error_iff.mp failed with first | ⟨p, w₁, -, later⟩
  · exact first
  · exact absurd early ((stepsHave_late m).carryOut p.1 p.2 later)

def compiled (m : Migration σ) (sources : List String) (w : Workspace σ) : Workspace σ :=
  sources.foldl (fun w source => (m.compiler.compile source m.root w).2) w

theorem compiled_append (m : Migration σ) (sources more : List String) (w : Workspace σ) :
    m.compiled (sources ++ more) w = m.compiled more (m.compiled sources w) :=
  List.foldl_append

theorem compiled_keeps {R : Workspace σ → Workspace σ → Prop} (refl : ∀ w, R w w)
    (trans : ∀ w w' w'', R w w' → R w' w'' → R w w'')
    (compiles : ∀ source, (m.compiler.compile source m.root).Keeps R) (sources : List String)
    (w : Workspace σ) : R w (m.compiled sources w) := by
  induction sources generalizing w with
  | nil => exact refl w
  | cons source sources ih => exact trans w _ _ (compiles source w) (ih _)

theorem prepare_compiled {r : Except MigrationError (Styles × List Path)}
    (h : m.prepare w = (r, w')) : ∃ sources, w' = m.compiled sources w := by
  have keeps : m.prepare.Keeps fun w w' => ∃ sources, w' = m.compiled sources w := by
    refine prepare_keeps (fun w => ⟨[], rfl⟩) ?_ fun source w => ⟨[source], rfl⟩
    rintro w w' w'' ⟨sources, rfl⟩ ⟨more, rfl⟩
    exact ⟨sources ++ more, (compiled_append m sources more w).symm⟩
  exact keeps.apply h

end Migration

def Workspace.SameAt {σ : Type} (w : Workspace σ) (l : Location) (w' : Workspace σ) : Prop :=
  w'.tree.find? l = w.tree.find? l

theorem Workspace.SameAt.refl {σ : Type} (l : Location) (w : Workspace σ) : w.SameAt l w := rfl

theorem Workspace.SameAt.trans {σ : Type} {l : Location} {w w' w'' : Workspace σ}
    (h : w.SameAt l w') (h' : w'.SameAt l w'') : w.SameAt l w'' := Eq.trans h' h

def StyleCompiler.Spares {σ : Type} (c : StyleCompiler σ) (l : Location) : Prop :=
  ∀ source root, (c.compile source root).Keeps fun w w' => w.SameAt l w'

namespace Migration

open Sheet (StyleTable)

variable {σ : Type}

theorem findCompiler_none {programs : Programs σ} {root : Path} {w : Workspace σ}
    (none : programs.tool? "tailwindcss" root w = .none) (config : Config) :
    findCompiler programs root config w
      = (.error (.compile (.compilerNotFound "tailwindcss")), w) := by
  refine Task.bind_of_error (Task.look_eq_iff.mpr ⟨?_, rfl⟩) _
  rw [none]

/-- With an error of the configuration or of the styles a migration has done no more than to call the
compiler: what the compiler leaves alone is as it was. Where no compiler is found nothing has been
done at all. -/
theorem untouched_of_early (m : Migration σ) (w : Workspace σ) :
    (∀ e w', m.run w = (.error e, w') → e.IsEarly →
      (∃ sources, w' = m.compiled sources w) ∧
      (∀ l, m.compiler.Spares l → w.SameAt l w') ∧
      (m.compiler.Quiet → w.SameFiles w')) ∧
    ∀ programs : Programs σ, programs.tool? "tailwindcss" m.root w = none →
      runProject programs m.root m.config m.dryRun w
        = (.error (.compile (.compilerNotFound "tailwindcss")), w) := by
  refine ⟨?_, ?_⟩
  · intro e w' failed early
    obtain ⟨sources, rfl⟩ := prepare_compiled (prepare_of_early failed early)
    refine ⟨⟨sources, rfl⟩, ?_, ?_⟩
    · intro l spared
      exact compiled_keeps (R := fun w w' => w.SameAt l w') (Workspace.SameAt.refl l)
        (fun _ _ _ => .trans) (fun source => spared source m.root) sources w
    · intro quiet
      exact compiled_keeps Workspace.SameFiles.refl (fun w w' w'' => .trans)
        (fun source => quiet source m.root) sources w
  · intro programs none
    exact Task.bind_of_error (findCompiler_none none m.config) _

/-- A project with a source directory outside of it, behind one that is inside. -/
def strayed : Migration Unit :=
  { small with config := { small.config with sourceDirs := ["src", "../q"] } }

theorem strayed_run : strayed.run smallStart
    = (.error (.config (.rejectedPath (.escapes ⟨"../q"⟩ ⟨"/p"⟩))), smallStart) := by
  have extracted : strayed.extractStyles smallStart
      = (.ok ⟨StyleTable.ofCss "", "", ⟨"/p/s.css"⟩⟩, smallStart) := rfl
  have inside : Project.resolve strayed.root ⟨"src"⟩ = .ok ⟨"/p/src"⟩ := rfl
  have outside : strayed.targetsIn "../q" smallStart
      = (.error (.config (.rejectedPath (.escapes ⟨"../q"⟩ ⟨"/p"⟩))), smallStart) :=
    Task.bind_of_error rfl _
  have chosen : strayed.targets smallStart
      = (.error (.config (.rejectedPath (.escapes ⟨"../q"⟩ ⟨"/p"⟩))), smallStart) := by
    refine Task.bind_of_error ?_ _
    change ["src", "../q"].mapM strayed.targetsIn smallStart = _
    rw [List.mapM_cons, List.mapM_cons]
    exact (Task.bind_of_ok (targetsIn_of_resolved inside smallStart) _).trans
      (Task.bind_of_error (Task.bind_of_error outside _) _)
  rw [run_eq]
  exact Task.bind_of_error ((Task.bind_of_ok extracted _).trans (Task.bind_of_error chosen _)) _

def noPrograms : Programs Unit := ⟨fun _ _ => none, fun _ => throw .notFound⟩

theorem untouched_of_early_strayed :
    strayed.run smallStart
      = (.error (.config (.rejectedPath (.escapes ⟨"../q"⟩ ⟨"/p"⟩))), smallStart) ∧
    (MigrationError.config (.rejectedPath (.escapes ⟨"../q"⟩ ⟨"/p"⟩))).IsEarly ∧
    (∃ sources, smallStart = strayed.compiled sources smallStart) ∧
    noPrograms.tool? "tailwindcss" strayed.root smallStart = none ∧
    runProject noPrograms strayed.root strayed.config strayed.dryRun smallStart
      = (.error (.compile (.compilerNotFound "tailwindcss")), smallStart) := by
  obtain ⟨early, unfound⟩ := untouched_of_early strayed smallStart
  obtain ⟨calls, -⟩ := early _ _ strayed_run trivial
  have missing : noPrograms.tool? "tailwindcss" strayed.root smallStart = none := rfl
  exact ⟨strayed_run, trivial, calls, missing, unfound noPrograms missing⟩

end Migration

end Restyle
