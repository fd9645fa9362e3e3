import Mathlib.Data.List.Forall2
import Restyle.Proofs.Workspace.Task
import Restyle.Tool.PackageManager
import Restyle.Tool.Repository
/-!
The calls of programs that tasks make. Where programs remember what they were called with, a task
that follows a plan makes its calls in order: all of them when it succeeds, the first few when it
fails.
-/

namespace Restyle

variable {σ ε ε' α β : Type}

namespace Programs

/-- What the programs remember includes what they were called with, oldest first. -/
def Records (programs : Programs σ) (calls : σ → List Invocation) : Prop :=
  ∀ (i : Invocation) (w : Workspace σ),
    calls (programs.launch i w).2.memory = calls w.memory ++ [i]

end Programs

def Workspace.unrecorded (w : Workspace (σ × List Invocation)) : Workspace σ :=
  { w with memory := w.memory.1 }

def Workspace.recording (w : Workspace σ) (calls : List Invocation) :
    Workspace (σ × List Invocation) :=
  { w with memory := (w.memory, calls) }

namespace Programs

def recorded (programs : Programs σ) : Programs (σ × List Invocation) where
  find? name w := programs.find? name w.unrecorded
  launch i := fun w =>
    let called := programs.launch i w.unrecorded
    (called.1, called.2.recording (w.memory.2 ++ [i]))

end Programs

/-- A plan says in order what is called. -/
abbrev CallPlan : Type := List (Invocation → Prop)

/-- The calls that a plan asks for, all of them. -/
def CallPlan.Complete (plan : CallPlan) (made : List Invocation) : Prop :=
  List.Forall₂ (fun asked i => asked i) plan made

/-- The calls that a plan asks for, the first few of them. -/
def CallPlan.Begun (plan : CallPlan) (made : List Invocation) : Prop :=
  ∃ done rest : CallPlan, plan = done ++ rest ∧ done.Complete made

theorem CallPlan.Complete.begun {plan : CallPlan} {made : List Invocation}
    (h : plan.Complete made) : plan.Begun made :=
  ⟨plan, [], (List.append_nil plan).symm, h⟩

theorem CallPlan.Begun.append {plan : CallPlan} {made : List Invocation} (h : plan.Begun made)
    (more : CallPlan) : CallPlan.Begun (plan ++ more) made := by
  obtain ⟨done, rest, rfl, complete⟩ := h
  exact ⟨done, rest ++ more, List.append_assoc done rest more, complete⟩

theorem CallPlan.Complete.append {plan more : CallPlan} {made later : List Invocation}
    (h : plan.Complete made) (h' : more.Complete later) :
    CallPlan.Complete (plan ++ more) (made ++ later) := List.rel_append h h'

theorem CallPlan.Complete.append_begun {plan more : CallPlan} {made later : List Invocation}
    (h : plan.Complete made) (h' : more.Begun later) :
    CallPlan.Begun (plan ++ more) (made ++ later) := by
  obtain ⟨done, rest, rfl, complete⟩ := h'
  exact ⟨plan ++ done, rest, (List.append_assoc plan done rest).symm, h.append complete⟩

/-- A task makes the calls of a plan: the first few, and all of them when it succeeds. -/
def Task.Planned (calls : σ → List Invocation) (t : Task σ ε α) (plan : CallPlan) : Prop :=
  ∀ ⦃w w' : Workspace σ⦄ ⦃r : Except ε α⦄, t w = (r, w') →
    ∃ made, calls w'.memory = calls w.memory ++ made ∧ plan.Begun made ∧
      ∀ a, r = .ok a → plan.Complete made

namespace Task.Planned

variable {calls : σ → List Invocation}

theorem of_memory {t : Task σ ε α} (h : ∀ w, (t w).2.memory = w.memory) :
    Planned calls t [] := by
  intro w w' r result
  have kept := h w
  rw [result] at kept
  have none : CallPlan.Complete [] [] := .nil
  exact ⟨[], by rw [kept, List.append_nil], none.begun, fun _ _ => none⟩

theorem pure (a : α) : Planned calls (Pure.pure a : Task σ ε α) [] := of_memory fun _ => rfl

theorem throw (e : ε) : Planned calls (MonadExcept.throw e : Task σ ε α) [] :=
  of_memory fun _ => rfl

theorem look (f : Workspace σ → Except ε α) : Planned calls (Task.look f) [] :=
  of_memory fun _ => rfl

theorem note (level : Level) (origin text : String) :
    Planned calls (Task.note level origin text : Task σ ε Unit) [] :=
  of_memory fun _ => rfl

theorem mapError {t : Task σ ε α} {plan : CallPlan} (h : Planned calls t plan) (f : ε → ε') :
    Planned calls (t.mapError f) plan := by
  intro w w' r result
  cases r with
  | ok a =>
      obtain ⟨made, kept, begun, complete⟩ := h (mapError_eq_ok_iff.mp result)
      exact ⟨made, kept, begun, fun _ _ => complete a rfl⟩
  | error e =>
      obtain ⟨cause, failed, -⟩ := mapError_eq_error_iff.mp result
      obtain ⟨made, kept, begun, -⟩ := h failed
      refine ⟨made, kept, begun, ?_⟩
      intro a same
      cases same

theorem bind {t : Task σ ε α} {f : α → Task σ ε β} {plan more : CallPlan}
    (h : Planned calls t plan) (h' : ∀ a, Planned calls (f a) more) :
    Planned calls (t >>= f) (plan ++ more) := by
  intro w w' r result
  rcases first : t w with ⟨e | a, w₁⟩
  · rw [bind_of_error first] at result
    cases result
    obtain ⟨made, kept, begun, -⟩ := h first
    refine ⟨made, kept, begun.append more, ?_⟩
    intro b same
    cases same
  · rw [bind_of_ok first] at result
    obtain ⟨made, kept, -, complete⟩ := h first
    obtain ⟨later, kept', begun, complete'⟩ := h' a result
    refine ⟨made ++ later, ?_, (complete a rfl).append_begun begun, ?_⟩
    · rw [kept', kept, List.append_assoc]
    · exact fun b same => (complete a rfl).append (complete' b same)

theorem bind_nil {t : Task σ ε α} {f : α → Task σ ε β} {plan : CallPlan}
    (h : Planned calls t plan) (h' : ∀ a, Planned calls (f a) []) :
    Planned calls (t >>= f) plan := by
  have whole := h.bind h'
  rwa [List.append_nil] at whole

theorem nil_bind {t : Task σ ε α} {f : α → Task σ ε β} {plan : CallPlan}
    (h : Planned calls t []) (h' : ∀ a, Planned calls (f a) plan) :
    Planned calls (t >>= f) plan := h.bind h'

end Task.Planned

section Tools

variable {programs : Programs σ} {calls : σ → List Invocation}

theorem Programs.Records.launch (h : programs.Records calls) {asked : Invocation → Prop}
    {i : Invocation} (answers : asked i) : Task.Planned calls (programs.launch i) [asked] := by
  intro w w' r result
  have kept := h i w
  rw [result] at kept
  have one : CallPlan.Complete [asked] [i] := .cons answers .nil
  exact ⟨[i], kept, one.begun, fun _ _ => one⟩

theorem Programs.Records.run (h : programs.Records calls) (tool : String)
    {asked : Invocation → Prop} {i : Invocation} (answers : asked i) :
    Task.Planned calls (programs.run tool i) [asked] := by
  refine ((h.launch answers).mapError _).bind_nil fun c => ?_
  cases c.success tool with
  | ok c => exact .pure c
  | error e => exact .throw e

/-- A call of a package manager where it was found, to work in a directory. -/
structure PackageManager.IsCall (programs : Programs σ) (m : PackageManager) (root : Path)
    (args : List String) (i : Invocation) : Prop where
  found : ∃ w, programs.find? m.program w = some i.program
  arguments : i.arguments = args
  directory : i.directory = some root
  input : i.input = none

theorem PackageManager.run_planned (h : programs.Records calls) (m : PackageManager) (root : Path)
    (args : List String) :
    Task.Planned calls (m.run programs root args) [m.IsCall programs root args] := by
  intro w w' r result
  rcases found : programs.find? m.program w with _ | bin
  · -- A manager that is missing is not called, and the task fails.
    have missing : m.run programs root args w = (.error (.notFound m.program), w) := by
      refine Task.bind_of_error (Task.look_eq_iff.mpr ⟨?_, rfl⟩) _
      rw [found]
    rw [missing] at result
    cases result
    refine ⟨[], (List.append_nil _).symm, ⟨[], _, rfl, .nil⟩, ?_⟩
    intro a same
    cases same
  · have answers : m.IsCall programs root args ⟨bin, args, some root, none⟩ :=
      ⟨⟨w, found⟩, rfl, rfl, rfl⟩
    have called : m.run programs root args w
        = (programs.run m.program ⟨bin, args, some root, none⟩ >>= fun _ => pure ()) w := by
      refine Task.bind_of_ok (Task.look_eq_iff.mpr ⟨?_, rfl⟩) _
      rw [found]
    rw [called] at result
    exact (h.run m.program answers).bind_nil (fun _ => .pure ()) result

namespace Repository

def gitCall (dir : Option Path) (args : List String) (i : Invocation) : Prop :=
  i = ⟨⟨"git"⟩, args, dir, none⟩

theorem git_planned (h : programs.Records calls) (dir : Option Path) (args : List String) :
    Task.Planned calls (programs.run "git" ⟨⟨"git"⟩, args, dir, none⟩) [gitCall dir args] :=
  h.run "git" rfl

theorem dropHistory_planned (history : Path) :
    Task.Planned calls (dropHistory history : Task σ ToolError Unit) [] := by
  refine .of_memory fun w => ?_
  unfold dropHistory
  split
  · rfl
  · rfl
  · rfl
  · split <;> rfl

def cloneArguments (template branch : String) (destination : Path) : List String :=
  ["clone", "--recursive", "--single-branch", "--branch", branch, template, destination.text]

theorem clone_planned (h : programs.Records calls) (template branch : String)
    (destination : Path) :
    Task.Planned calls (clone programs template branch destination)
      [gitCall none (cloneArguments template branch destination)] := by
  refine (Task.Planned.look _).nil_bind fun _ => ?_
  exact (git_planned h none _).bind_nil fun _ => dropHistory_planned _

theorem steps_planned (h : programs.Records calls) (dir : Path) (list : List (List String)) :
    Task.Planned calls (steps programs dir list) (list.map (gitCall (some dir))) := by
  induction list with
  | nil => exact .pure ()
  | cons args list ih =>
      exact (git_planned h (some dir) args).bind fun _ => ih

end Repository

end Tools

end Restyle
