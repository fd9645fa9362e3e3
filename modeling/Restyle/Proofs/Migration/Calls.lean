import Restyle.Migration.Project
import Restyle.Proofs.Migration.Steps
import Restyle.Proofs.Workspace.Calls
/-!
The calls of programs that a migration makes: it calls its compiler and its formatter, to work in
the project.
-/

namespace Restyle

/-- Between two workspaces programs were called, and each call satisfies a condition. -/
def Workspace.Called {σ : Type} (calls : σ → List Invocation) (P : Invocation → Prop)
    (w w' : Workspace σ) : Prop :=
  ∃ made, calls w'.memory = calls w.memory ++ made ∧ ∀ i ∈ made, P i

namespace Workspace.Called

variable {σ : Type} {calls : σ → List Invocation} {P : Invocation → Prop}

theorem of_memory {w w' : Workspace σ} (h : w'.memory = w.memory) : w.Called calls P w' :=
  ⟨[], by rw [h, List.append_nil], fun _ none => absurd none List.not_mem_nil⟩

theorem refl (w : Workspace σ) : w.Called calls P w := of_memory rfl

theorem trans (w w' w'' : Workspace σ) (h : w.Called calls P w') (h' : w'.Called calls P w'') :
    w.Called calls P w'' := by
  obtain ⟨made, kept, each⟩ := h
  obtain ⟨more, kept', each'⟩ := h'
  refine ⟨made ++ more, ?_, fun i member => (List.mem_append.mp member).elim (each i) (each' i)⟩
  rw [kept', kept, List.append_assoc]

end Workspace.Called

theorem Programs.Records.run_called {σ : Type} {programs : Programs σ}
    {calls : σ → List Invocation} {P : Invocation → Prop} (h : programs.Records calls)
    (tool : String) {i : Invocation} (fits : P i) :
    (programs.run tool i).Keeps (Workspace.Called calls P) := by
  have c := Task.Keeps.composes (R := Workspace.Called calls P) ToolError .refl .trans
  refine c.bind (Task.Keeps.mapError ?_ _) fun completion => ?_
  · exact fun w => ⟨[i], h i w, fun j member => List.mem_singleton.mp member ▸ fits⟩
  · cases completion.success tool with
    | ok completion => exact .pure .refl _
    | error e => exact .throw .refl e

namespace Migration

/-- A call of the style compiler or of the formatter, to work in the project. -/
inductive IsCall (root : Path) (config : Config) : Invocation → Prop where
  | compile (bin input : Path) : IsCall root config
      ⟨bin, ["-c", config.tailwindConfig, "-i", input.text], some root, none⟩
  | format (bin file : Path) (source : String) : IsCall root config
      ⟨bin, ["--stdin-filepath", file.text], some root, some source⟩

section Calling

variable {σ : Type} {programs : Programs σ} {calls : σ → List Invocation}

theorem persist_called {P : Invocation → Prop} (m : Migration σ) (p : Path) (s : String) :
    (m.persist p s).Keeps (Workspace.Called calls P) := by
  have c := Task.Keeps.composes (R := Workspace.Called calls P) MigrationError .refl .trans
  unfold persist
  split
  · exact c.pure false
  · refine c.bind (Task.Keeps.mapError ?_ _) fun _ => c.pure true
    intro w
    unfold Task.writeText
    split <;> exact .of_memory rfl

theorem run_called {P : Invocation → Prop} {m : Migration σ}
    (compiles : ∀ s, (m.compiler.compile s m.root).Keeps (Workspace.Called calls P))
    (formats : ∀ s p, (m.formatter.format s p m.root).Keeps (Workspace.Called calls P)) :
    m.run.Keeps (Workspace.Called calls P) := by
  have c := Task.Keeps.composes (R := Workspace.Called calls P) MigrationError .refl .trans
  have steps : m.StepsHave fun α (t : Task σ MigrationError α) =>
      t.Keeps (Workspace.Called calls P) :=
    { toComposes := c
      throws := fun _ => .throw .refl _
      reads := fun file => .mapError (.look .refl _) _
      formats := fun p s => (formats s p).mapError _
      persists := persist_called m }
  rw [run_eq_carryOut]
  exact c.bind (prepare_keeps .refl .trans compiles) fun p => steps.carryOut p.1 p.2

theorem tailwind_called (h : programs.Records calls) (bin root : Path) (config : Config)
    (source : String) :
    ((StyleCompiler.tailwind programs bin config.tailwindConfig).compile source root).Keeps
      (Workspace.Called calls (IsCall root config)) := by
  have c := Task.Keeps.composes (R := Workspace.Called calls (IsCall root config)) ToolError
    .refl .trans
  -- The input file comes and goes, which the programs do not remember.
  exact fun w => (c.bind (h.run_called "tailwindcss" (IsCall.compile bin _)) fun _ => c.pure _) _

theorem prettier_called (h : programs.Records calls) (bin root : Path) (config : Config)
    (source : String) (file : Path) :
    ((Formatter.prettier programs bin).format source file root).Keeps
      (Workspace.Called calls (IsCall root config)) := by
  have c := Task.Keeps.composes (R := Workspace.Called calls (IsCall root config)) ToolError
    .refl .trans
  exact c.bind (h.run_called "prettier" (IsCall.format bin file source)) fun _ => c.pure _

theorem runProject_called (h : programs.Records calls) (root : Path) (config : Config)
    (dryRun : Bool) :
    (runProject programs root config dryRun).Keeps
      (Workspace.Called calls (IsCall root config)) := by
  have c := Task.Keeps.composes (R := Workspace.Called calls (IsCall root config)) MigrationError
    .refl .trans
  unfold runProject findCompiler findFormatter
  simp only [bind_assoc, pure_bind]
  refine c.bind (.look .refl _) fun bin => c.bind (.look .refl _) fun found => ?_
  cases found with
  | some formatter =>
      simp only [pure_bind]
      exact run_called (tailwind_called h bin root config) (prettier_called h formatter root config)
  | none =>
      simp only [bind_assoc, pure_bind]
      refine c.bind (fun w => .of_memory rfl) fun _ => ?_
      exact run_called (tailwind_called h bin root config) fun _ _ => .pure .refl _

end Calling

end Migration

end Restyle
