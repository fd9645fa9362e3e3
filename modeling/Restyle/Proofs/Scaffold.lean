import Mathlib.Data.List.Nodup
import Restyle.Proofs.Migration.Calls
import Restyle.Proofs.Path.Components
import Restyle.Scaffold
/-!
How a new project comes about. Its stages are attempted in their order, each where the one before it
has ended and only if that one succeeded, and the last one counts for nothing. Nothing is done for a
name that is refused or taken, and a name that is accepted is one step below the parent directory.
-/

namespace Restyle

namespace Scaffold

variable {σ : Type}

inductive Stage where
  | clone | install | add | addForDevelopment | migrate | init
deriving DecidableEq, Repr

def stylingStages : Style → List Stage
  | .tailwind => []
  | .styled => [.add, .addForDevelopment, .migrate]

def stages (s : Scaffold) : List Stage := .clone :: .install :: stylingStages s.style

def plan (s : Scaffold) : List Stage := s.stages ++ [.init]

theorem plan_nodup (s : Scaffold) : s.plan.Nodup := by
  unfold plan stages
  cases s.style <;> decide

theorem stages_nodup (s : Scaffold) : s.stages.Nodup :=
  (List.nodup_append.mp s.plan_nodup).1

def perform (s : Scaffold) (programs : Programs σ) (manager : PackageManager) :
    Stage → Task σ ScaffoldError (Option Migration.Report)
  | .clone => do
    Task.note .information origin s!"creating project name={s.name} style={s.style.title}"
    (Repository.clone programs s.template s.branch s.destination).mapError .tool
    return none
  | .install => do
    Task.note .information origin
      ("installing packages manager=" ++ Text.quoted manager.program)
    (manager.install programs s.destination).mapError .tool
    return none
  | .add => do
    (manager.add programs s.destination styledPackages).mapError .tool
    return none
  | .addForDevelopment => do
    (manager.addForDevelopment programs s.destination styledDevelopmentPackages).mapError .tool
    return none
  | .migrate => do
    let report ← (Migration.runProject programs s.destination {} false).mapError .migration
    return some report
  | .init => do
    (Repository.init programs s.destination commitMessage).mapError .tool
    return none

/-- A stage that was attempted, between the workspaces where it began and ended. -/
structure Attempt (σ : Type) where
  stage : Stage
  before : Workspace σ
  result : Except ScaffoldError (Option Migration.Report)
  after : Workspace σ

def Attempt.Succeeds (a : Attempt σ) : Prop := ∃ report, a.result = .ok report

/-- The attempts at stages: each begins where the one before it has ended, and there is none after
one that fails. -/
inductive Attempts (perform : Stage → Task σ ScaffoldError (Option Migration.Report)) :
    Workspace σ → List Stage → List (Attempt σ) → Workspace σ → Prop where
  | done (w : Workspace σ) : Attempts perform w [] [] w
  | stop {stage : Stage} {w w' : Workspace σ} {e : ScaffoldError} (rest : List Stage)
      (failed : perform stage w = (.error e, w')) :
      Attempts perform w (stage :: rest) [⟨stage, w, .error e, w'⟩] w'
  | next {stage : Stage} {w w₁ w' : Workspace σ} {report : Option Migration.Report}
      {rest : List Stage} {attempts : List (Attempt σ)}
      (first : perform stage w = (.ok report, w₁)) (later : Attempts perform w₁ rest attempts w') :
      Attempts perform w (stage :: rest) (⟨stage, w, .ok report, w₁⟩ :: attempts) w'

namespace Attempts

variable {perform : Stage → Task σ ScaffoldError (Option Migration.Report)}
variable {w w' : Workspace σ} {stages : List Stage} {attempts : List (Attempt σ)}

theorem order (h : Attempts perform w stages attempts w') :
    attempts.map (·.stage) <+: stages := by
  induction h with
  | done w => exact List.prefix_rfl
  | stop rest failed => exact ⟨rest, rfl⟩
  | next first later ih => exact List.cons_prefix_cons.mpr ⟨rfl, ih⟩

/-- Only the last attempt may fail. -/
theorem earlier (h : Attempts perform w stages attempts w') :
    ∀ a ∈ attempts.dropLast, a.Succeeds := by
  induction h with
  | done w => exact fun a none => absurd none List.not_mem_nil
  | stop rest failed => exact fun a none => absurd none List.not_mem_nil
  | @next stage w w₁ w' report rest attempts first later ih =>
      intro a member
      cases attempts with
      | nil => exact absurd member List.not_mem_nil
      | cons b attempts =>
          rw [List.dropLast_cons_of_ne_nil (List.cons_ne_nil b attempts)] at member
          rcases List.mem_cons.mp member with rfl | member
          · exact ⟨report, rfl⟩
          · exact ih a member

theorem exists_last {stage : Stage} {rest : List Stage}
    (h : Attempts perform w (stage :: rest) attempts w') : ∃ a, attempts.getLast? = some a := by
  cases h with
  | stop rest failed => exact ⟨_, rfl⟩
  | next first later => exact ⟨_, List.getLast?_cons⟩

theorem performed (h : Attempts perform w stages attempts w') :
    ∀ a ∈ attempts, perform a.stage a.before = (a.result, a.after) := by
  induction h with
  | done w => exact fun a none => absurd none List.not_mem_nil
  | stop rest failed =>
      intro a member
      rw [List.mem_singleton.mp member]
      exact failed
  | next first later ih =>
      intro a member
      rcases List.mem_cons.mp member with rfl | member
      · exact first
      · exact ih a member

theorem append {w₁ : Workspace σ} {more : List Stage} {others : List (Attempt σ)}
    (h : Attempts perform w stages attempts w₁) (succeeded : ∀ a ∈ attempts, a.Succeeds)
    (h' : Attempts perform w₁ more others w') :
    Attempts perform w (stages ++ more) (attempts ++ others) w' := by
  induction h with
  | done w => exact h'
  | stop rest failed =>
      obtain ⟨report, same⟩ := succeeded _ (List.mem_singleton_self _)
      cases same
  | next first later ih =>
      exact .next first (ih (fun a member => succeeded a (List.mem_cons_of_mem _ member)) h')

theorem stopped (h : Attempts perform w stages attempts w') {a : Attempt σ} {e : ScaffoldError}
    (member : a ∈ attempts) (failed : a.result = .error e) (more : List Stage) :
    Attempts perform w (stages ++ more) attempts w' := by
  induction h with
  | done w => exact absurd member List.not_mem_nil
  | stop rest failed => exact .stop (rest ++ more) failed
  | next first later ih =>
      rcases List.mem_cons.mp member with rfl | member
      · cases failed
      · exact .next first (ih member)

end Attempts

/-- What a stage calls, but for the migration, which calls its tools as often as it needs. -/
def callPlan (s : Scaffold) (programs : Programs σ) (manager : PackageManager) : Stage → CallPlan
  | .clone => [Repository.gitCall none
      (Repository.cloneArguments s.template s.branch s.destination)]
  | .install => [manager.IsCall programs s.destination manager.installArguments]
  | .add => [manager.IsCall programs s.destination (manager.addArguments styledPackages)]
  | .addForDevelopment => [manager.IsCall programs s.destination
      (manager.addForDevelopmentArguments styledDevelopmentPackages)]
  | .migrate => []
  | .init => (Repository.initialSteps commitMessage).map (Repository.gitCall (some s.destination))

/-- The calls of an attempt: those of the migration to its compiler and formatter, those of any
other stage by its plan, all of them if it succeeds. -/
structure Makes (s : Scaffold) (programs : Programs σ) (manager : PackageManager) (a : Attempt σ)
    (made : List Invocation) : Prop where
  migration : a.stage = .migrate → ∀ i ∈ made, Migration.IsCall s.destination {} i
  begun : a.stage ≠ .migrate → (s.callPlan programs manager a.stage).Begun made
  complete : a.stage ≠ .migrate → a.Succeeds → (s.callPlan programs manager a.stage).Complete made

section Calling

variable {programs : Programs σ} {calls : σ → List Invocation}

theorem perform_planned (h : programs.Records calls) (s : Scaffold) (manager : PackageManager)
    {stage : Stage} (other : stage ≠ .migrate) :
    Task.Planned calls (s.perform programs manager stage) (s.callPlan programs manager stage) := by
  cases stage with
  | clone =>
      refine (Task.Planned.note ..).nil_bind fun _ => ?_
      exact ((Repository.clone_planned h ..).mapError _).bind_nil fun _ => .pure none
  | install =>
      refine (Task.Planned.note ..).nil_bind fun _ => ?_
      exact ((PackageManager.run_planned h manager ..).mapError _).bind_nil fun _ => .pure none
  | add => exact ((PackageManager.run_planned h manager ..).mapError _).bind_nil fun _ => .pure none
  | addForDevelopment =>
      exact ((PackageManager.run_planned h manager ..).mapError _).bind_nil fun _ => .pure none
  | migrate => exact absurd rfl other
  | init => exact ((Repository.steps_planned h ..).mapError _).bind_nil fun _ => .pure none

theorem perform_migrate_called (h : programs.Records calls) (s : Scaffold)
    (manager : PackageManager) :
    (s.perform programs manager .migrate).Keeps
      (Workspace.Called calls (Migration.IsCall s.destination {})) := by
  have c := Task.Keeps.composes (R := Workspace.Called calls (Migration.IsCall s.destination {}))
    ScaffoldError .refl .trans
  exact c.bind ((Migration.runProject_called h s.destination {} false).mapError _) fun _ => c.pure _

theorem perform_makes (h : programs.Records calls) (s : Scaffold) (manager : PackageManager)
    {a : Attempt σ} (performed : s.perform programs manager a.stage a.before = (a.result, a.after)) :
    ∃ made, calls a.after.memory = calls a.before.memory ++ made ∧
      s.Makes programs manager a made := by
  by_cases migration : a.stage = .migrate
  · rw [migration] at performed
    obtain ⟨made, kept, each⟩ := (perform_migrate_called h s manager).apply performed
    exact ⟨made, kept, fun _ => each, fun other => absurd migration other,
      fun other => absurd migration other⟩
  · obtain ⟨made, kept, begun, complete⟩ := perform_planned h s manager migration performed
    refine ⟨made, kept, fun same => absurd same migration, fun _ => begun, ?_⟩
    rintro - ⟨report, succeeded⟩
    exact complete report succeeded

/-- The calls of the attempts follow on one another. -/
theorem Attempts.makes (h : programs.Records calls) {s : Scaffold} {manager : PackageManager}
    {w w' : Workspace σ} {stages : List Stage} {attempts : List (Attempt σ)}
    (attempted : Attempts (s.perform programs manager) w stages attempts w') :
    ∃ made : List (List Invocation), List.Forall₂ (s.Makes programs manager) attempts made ∧
      calls w'.memory = calls w.memory ++ made.flatten := by
  induction attempted with
  | done w => exact ⟨[], .nil, (List.append_nil _).symm⟩
  | @stop stage w w' e rest failed =>
      obtain ⟨made, kept, makes⟩ :=
        perform_makes h s manager (a := ⟨stage, w, .error e, w'⟩) failed
      refine ⟨[made], .cons makes .nil, ?_⟩
      rw [List.flatten_singleton]
      exact kept
  | @next stage w w₁ w' report rest attempts first later ih =>
      obtain ⟨made, kept, makes⟩ :=
        perform_makes h s manager (a := ⟨stage, w, .ok report, w₁⟩) first
      obtain ⟨more, each, kept'⟩ := ih
      refine ⟨made :: more, .cons makes each, ?_⟩
      rw [kept', kept, List.flatten_cons, List.append_assoc]

end Calling

def performAll (perform : Stage → Task σ ScaffoldError (Option Migration.Report)) :
    List Stage → Option Migration.Report → Task σ ScaffoldError (Option Migration.Report)
  | [], report => pure report
  | stage :: rest, _ => do
    let report ← perform stage
    performAll perform rest report

theorem attempts_of_performAll
    {perform : Stage → Task σ ScaffoldError (Option Migration.Report)} {stages : List Stage}
    {report : Option Migration.Report} {r : Except ScaffoldError (Option Migration.Report)}
    {w w' : Workspace σ} (h : performAll perform stages report w = (r, w')) :
    ∃ attempts, Attempts perform w stages attempts w' ∧
      (attempts.getLast?.map (·.result)).getD (.ok report) = r ∧
      ((∃ report', r = .ok report') →
        attempts.map (·.stage) = stages ∧ ∀ a ∈ attempts, a.Succeeds) := by
  induction stages generalizing report w with
  | nil =>
      cases h
      exact ⟨[], .done _, rfl, fun _ => ⟨rfl, fun a none => absurd none List.not_mem_nil⟩⟩
  | cons stage rest ih =>
      rcases first : perform stage w with ⟨e | report₁, w₁⟩
      · rw [performAll, Task.bind_of_error first] at h
        cases h
        refine ⟨[⟨stage, w, .error e, _⟩], .stop rest first, rfl, ?_⟩
        rintro ⟨report', same⟩
        cases same
      · rw [performAll, Task.bind_of_ok first] at h
        obtain ⟨attempts, later, last, whole⟩ := ih h
        refine ⟨⟨stage, w, .ok report₁, w₁⟩ :: attempts, .next first later, ?_, ?_⟩
        · rw [← last]
          cases attempts with
          | nil => rfl
          | cons b attempts => rw [List.getLast?_cons_cons, List.getLast?_cons]; rfl
        · intro succeeded
          obtain ⟨order, each⟩ := whole succeeded
          refine ⟨congrArg (stage :: ·) order, ?_⟩
          intro a member
          rcases List.mem_cons.mp member with rfl | member
          · exact ⟨report₁, rfl⟩
          · exact each a member

theorem install_applyStyle (s : Scaffold) (programs : Programs σ) (manager : PackageManager) :
    (do
      Task.note .information origin
        ("installing packages manager=" ++ Text.quoted manager.program)
      (manager.install programs s.destination).mapError ScaffoldError.tool
      s.applyStyle programs manager)
      = performAll (s.perform programs manager) (.install :: stylingStages s.style) none := by
  unfold applyStyle stylingStages
  cases s.style with
  | tailwind => simp only [performAll, perform, bind_pure]
  | styled => simp only [performAll, perform, bind_assoc, pure_bind, bind_pure]

def conclude (s : Scaffold) (programs : Programs σ) (report : Option Migration.Report) :
    Task σ ScaffoldError (Option Migration.Report) := do
  s.commit programs
  Task.note .information origin s!"project ready dest={s.destination.text}"
  return report

theorem run_eq (s : Scaffold) (programs : Programs σ) :
    s.run programs = s.check >>= fun _ => s.perform programs default .clone >>= fun _ =>
      (Task.look fun w => .ok (PackageManager.detect programs w)) >>= fun manager =>
        performAll (s.perform programs manager) (.install :: stylingStages s.style) none >>=
          s.conclude programs := by
  unfold run conclude
  simp only [← install_applyStyle, perform, bind_assoc, pure_bind]

theorem check_of_refused {s : Scaffold} {reason : Project.NameRejection}
    (refused : Project.checkName s.name = .error reason) (w : Workspace σ) :
    s.check w = (.error (.name reason), w) := by
  unfold check
  rw [refused]
  rfl

theorem check_of_taken {s : Scaffold} {w : Workspace σ}
    (accepted : Project.checkName s.name = .ok ())
    (taken : w.tree.isPresent w.here s.destination = true) :
    s.check w = (.error (.taken s.destination), w) := by
  unfold check
  rw [accepted]
  exact Task.look_eq_iff.mpr ⟨if_pos taken, rfl⟩

theorem check_of_free {s : Scaffold} {w : Workspace σ}
    (accepted : Project.checkName s.name = .ok ())
    (free : w.tree.isPresent w.here s.destination = false) : s.check w = (.ok (), w) := by
  unfold check
  rw [accepted]
  refine Task.look_eq_iff.mpr ⟨if_neg ?_, rfl⟩
  rw [free]
  exact Bool.false_ne_true

theorem conclude_apply (s : Scaffold) (programs : Programs σ) (manager : PackageManager)
    (report : Option Migration.Report) (w : Workspace σ) :
    ∃ r w' notices, s.perform programs manager .init w = (r, w') ∧
      s.conclude programs report w = (.ok report, { w' with log := w'.log ++ notices }) := by
  let ready : Notice := ⟨.information, origin, s!"project ready dest={s.destination.text}"⟩
  rcases made : Repository.init programs s.destination commitMessage w with ⟨e | _, w'⟩
  · let warning : Notice :=
      ⟨.warning, origin, "could not initialize git repository: " ++ e.message⟩
    refine ⟨.error (.tool e), w', [warning] ++ [ready],
      Task.bind_of_error (Task.mapError_of_error made _) _, ?_⟩
    have committed : s.commit programs w = (.ok (), { w' with log := w'.log ++ [warning] }) := by
      refine Task.bind_of_ok (a := Except.error e) ?_ _
      unfold Task.outcome
      rw [made]
    refine (Task.bind_of_ok committed _).trans ?_
    exact congrArg (fun log => (Except.ok report, { w' with log := log }))
      (List.append_assoc w'.log _ _)
  · refine ⟨.ok none, w', [ready], Task.bind_of_ok (Task.mapError_of_ok made _) _, ?_⟩
    have committed : s.commit programs w = (.ok (), w') := by
      refine Task.bind_of_ok (a := Except.ok ()) ?_ _
      unfold Task.outcome
      rw [made]
    exact Task.bind_of_ok committed _

/-- A run that begins attempts its stages. It ends with the first one that fails, and goes on to the
repository if there is none. -/
theorem run_begun (s : Scaffold) (programs : Programs σ) {w : Workspace σ}
    (accepted : Project.checkName s.name = .ok ())
    (free : w.tree.isPresent w.here s.destination = false) :
    ∃ manager attempts r w₁,
      Attempts (s.perform programs manager) w s.stages attempts w₁ ∧
      (∀ a ∈ attempts, a.stage = .clone → a.Succeeds →
        manager = PackageManager.detect programs a.after) ∧
      (∃ a, attempts.getLast? = some a ∧ a.result = r) ∧
      ((∃ report, r = .ok report) →
        attempts.map (·.stage) = s.stages ∧ ∀ a ∈ attempts, a.Succeeds) ∧
      s.run programs w = match r with
        | .ok report => s.conclude programs report w₁
        | .error e => (.error e, w₁) := by
  have begun := Task.bind_of_ok (check_of_free accepted free) fun _ =>
    s.perform programs default .clone >>= fun _ =>
      (Task.look fun w => .ok (PackageManager.detect programs w)) >>= fun manager =>
        performAll (s.perform programs manager) (.install :: stylingStages s.style) none >>=
          s.conclude programs
  rw [← run_eq] at begun
  rcases cloned : s.perform programs default .clone w with ⟨e | report, w₁⟩
  · refine ⟨default, [⟨.clone, w, .error e, w₁⟩], .error e, w₁, .stop _ cloned, ?_, ⟨_, rfl, rfl⟩,
      ?_, ?_⟩
    · rintro a member - ⟨report, succeeded⟩
      rw [List.mem_singleton.mp member] at succeeded
      cases succeeded
    · rintro ⟨report, same⟩
      cases same
    · exact begun.trans (Task.bind_of_error cloned _)
  · let manager := PackageManager.detect programs w₁
    rcases performed : performAll (s.perform programs manager)
      (.install :: stylingStages s.style) none w₁ with ⟨r, w₂⟩
    obtain ⟨attempts, later, last, whole⟩ := attempts_of_performAll performed
    refine ⟨manager, ⟨.clone, w, .ok report, w₁⟩ :: attempts, r, w₂, .next cloned later, ?_, ?_,
      ?_, ?_⟩
    · intro a member clone succeeded
      rcases List.mem_cons.mp member with rfl | member
      · rfl
      · have among := later.order.subset (List.mem_map_of_mem member)
        rw [clone] at among
        exact absurd among (List.nodup_cons.mp s.stages_nodup).1
    · obtain ⟨a, final⟩ := later.exists_last
      rw [final] at last
      cases attempts with
      | nil => cases final
      | cons b attempts => exact ⟨a, List.getLast?_cons_cons.trans final, last⟩
    · intro succeeded
      obtain ⟨order, each⟩ := whole succeeded
      refine ⟨congrArg (Stage.clone :: ·) order, ?_⟩
      intro a member
      rcases List.mem_cons.mp member with rfl | member
      · exact ⟨report, rfl⟩
      · exact each a member
    · refine begun.trans ((Task.bind_of_ok cloned _).trans ?_)
      refine (Task.bind_of_ok (Task.look_eq_iff.mpr ⟨rfl, rfl⟩) _).trans ?_
      cases r with
      | error e => exact Task.bind_of_error performed _
      | ok report => exact Task.bind_of_ok performed _

theorem isName_of_accepted {name : String} (accepted : Project.checkName name = .ok ()) :
    Path.IsName name := by
  unfold Project.checkName at accepted
  split at accepted
  · cases accepted
  rename_i c cs letters
  split at accepted
  · cases accepted
  rename_i visible
  split at accepted
  · cases accepted
  rename_i single
  have no_dot : c ≠ '.' := fun dot => visible (beq_iff_eq.mpr dot)
  refine ⟨?_, ?_, ?_⟩
  · intro slash
    rw [letters] at slash
    exact single (List.any_eq_true.mpr ⟨'/', slash, rfl⟩)
  · rw [letters, Path.isIdle]
    simp [no_dot]
  · rw [letters]
    exact fun parent => no_dot (List.cons.inj parent).1

theorem components_destination {s : Scaffold} (accepted : Project.checkName s.name = .ok ()) :
    s.destination.components = s.parent.components ++ [.name s.name] :=
  Path.components_push_name (isName_of_accepted accepted) s.parent

theorem perform_report {s : Scaffold} {programs : Programs σ} {manager : PackageManager}
    {stage : Stage} {w w' : Workspace σ} {report : Option Migration.Report}
    (h : s.perform programs manager stage w = (.ok report, w')) :
    report.isSome = true ↔ stage = .migrate := by
  cases stage with
  | migrate =>
      obtain ⟨result, w₁, -, h⟩ := Task.bind_eq_ok_iff.mp h
      obtain ⟨rfl, -⟩ := Task.pure_eq_ok_iff.mp h
      exact ⟨fun _ => rfl, fun _ => rfl⟩
  | clone =>
      obtain ⟨-, w₁, -, h⟩ := Task.bind_eq_ok_iff.mp h
      obtain ⟨-, w₂, -, h⟩ := Task.bind_eq_ok_iff.mp h
      obtain ⟨rfl, -⟩ := Task.pure_eq_ok_iff.mp h
      simp
  | install =>
      obtain ⟨-, w₁, -, h⟩ := Task.bind_eq_ok_iff.mp h
      obtain ⟨-, w₂, -, h⟩ := Task.bind_eq_ok_iff.mp h
      obtain ⟨rfl, -⟩ := Task.pure_eq_ok_iff.mp h
      simp
  | _ =>
      obtain ⟨-, w₁, -, h⟩ := Task.bind_eq_ok_iff.mp h
      obtain ⟨rfl, -⟩ := Task.pure_eq_ok_iff.mp h
      simp

theorem migrate_last {s : Scaffold} (h : .migrate ∈ s.stages) :
    s.stages.getLast? = some .migrate := by
  unfold stages at h ⊢
  cases style : s.style with
  | tailwind => simp [style, stylingStages] at h
  | styled => rfl

theorem migrate_last_iff {s : Scaffold} :
    s.stages.getLast? = some .migrate ↔ s.style = .styled := by
  unfold stages
  cases s.style <;> decide

/-- How a run goes that begins in a workspace: by attempts at the stages of its plan, with the package
manager that is found when the template is there, whatever its outcome. -/
structure Proceeds (s : Scaffold) (programs : Programs σ) (w : Workspace σ)
    (manager : PackageManager) (attempts : List (Attempt σ))
    (r : Except ScaffoldError (Option Migration.Report)) (w' : Workspace σ) : Prop where
  attempted : ∃ w₁ notices, Attempts (s.perform programs manager) w s.plan attempts w₁ ∧
    w' = { w₁ with log := w₁.log ++ notices }
  order : attempts.map (·.stage) <+: s.plan
  earlier : ∀ a ∈ attempts.dropLast, a.Succeeds
  detected : ∀ a ∈ attempts, a.stage = .clone → a.Succeeds →
    manager = PackageManager.detect programs a.after
  succeeds : (∃ report, r = .ok report) ↔
    ∀ stage ∈ s.stages, ∃ a ∈ attempts, a.stage = stage ∧ a.Succeeds
  initializes : (∃ report, r = .ok report) ↔ ∃ a ∈ attempts, a.stage = .init
  reports : ∀ report, r = .ok report → (report.isSome = true ↔ s.style = .styled)
  migrated : ∀ a ∈ attempts, a.stage = .migrate → a.Succeeds → a.result = r
  fails : ∀ e, r = .error e → ∃ a, attempts.getLast? = some a ∧ a.result = .error e
  calls : ∀ calls : σ → List Invocation, programs.Records calls →
    ∃ made : List (List Invocation), List.Forall₂ (s.Makes programs manager) attempts made ∧
      calls w'.memory = calls w.memory ++ made.flatten

section Proceeding

variable {s : Scaffold} {programs : Programs σ} {w w₁ w' : Workspace σ} {manager : PackageManager}
variable {attempts : List (Attempt σ)}

theorem Attempts.stage_mem (attempted : Attempts (s.perform programs manager) w s.stages attempts w')
    {a : Attempt σ} (member : a ∈ attempts) : a.stage ∈ s.stages :=
  attempted.order.subset (List.mem_map_of_mem member)

theorem Attempts.unique (attempted : Attempts (s.perform programs manager) w s.stages attempts w')
    {a b : Attempt σ} (member : a ∈ attempts) (member' : b ∈ attempts) (same : a.stage = b.stage) :
    a = b := by
  have once : (attempts.map (·.stage)).Nodup := s.stages_nodup.sublist attempted.order.sublist
  exact List.inj_on_of_nodup_map once member member' same

theorem Attempts.last (attempted : Attempts (s.perform programs manager) w s.stages attempts w')
    {a : Attempt σ} (member : a ∈ attempts) (final : s.stages.getLast? = some a.stage) :
    attempts.getLast? = some a := by
  obtain ⟨rest, whole⟩ := attempted.order
  rcases List.eq_nil_or_concat rest with rfl | ⟨more, stage, rfl⟩
  · rw [List.append_nil] at whole
    rw [← whole, List.getLast?_map, Option.map_eq_some_iff] at final
    obtain ⟨b, last, same⟩ := final
    rw [last, attempted.unique (List.mem_of_getLast? last) member same]
  · have apart := s.stages_nodup
    rw [← whole, List.concat_eq_append] at apart final
    rw [← List.append_assoc, List.getLast?_concat, Option.some.injEq] at final
    have behind : a.stage ∈ more ++ [stage] :=
      List.mem_append_right more (List.mem_singleton.mpr final.symm)
    exact absurd rfl
      ((List.nodup_append.mp apart).2.2 a.stage (List.mem_map_of_mem member) a.stage behind)

theorem init_not_mem_stages (s : Scaffold) : Stage.init ∉ s.stages := fun member =>
  (List.nodup_append.mp s.plan_nodup).2.2 _ member _ (List.mem_singleton_self _) rfl

theorem proceeds_of_error {e : ScaffoldError}
    (attempted : Attempts (s.perform programs manager) w s.stages attempts w')
    (detected : ∀ a ∈ attempts, a.stage = .clone → a.Succeeds →
      manager = PackageManager.detect programs a.after)
    {a : Attempt σ} (last : attempts.getLast? = some a) (failed : a.result = .error e) :
    s.Proceeds programs w manager attempts (.error e) w' := by
  have member := List.mem_of_getLast? last
  have all := attempted.stopped member failed [.init]
  have never : ¬ ∃ report, (Except.error e : Except ScaffoldError (Option Migration.Report))
      = .ok report := by
    rintro ⟨report, same⟩
    cases same
  have unfinished : ¬ a.Succeeds := by
    rintro ⟨report, succeeded⟩
    rw [failed] at succeeded
    cases succeeded
  refine ⟨⟨w', [], all, by rw [List.append_nil]⟩, all.order, all.earlier, detected, ?_, ?_, ?_, ?_,
    ?_, fun calls records => all.makes records⟩
  · refine ⟨fun ok => absurd ok never, fun every => ?_⟩
    obtain ⟨b, among, same, succeeded⟩ := every a.stage (attempted.stage_mem member)
    rw [attempted.unique among member same] at succeeded
    exact absurd succeeded unfinished
  · refine ⟨fun ok => absurd ok never, ?_⟩
    rintro ⟨b, among, init⟩
    exact absurd (init ▸ attempted.stage_mem among) s.init_not_mem_stages
  · rintro report same
    cases same
  · intro b among migration succeeded
    have final := migrate_last (migration ▸ attempted.stage_mem among)
    rw [← migration] at final
    have same : b = a := Option.some.inj ((attempted.last among final).symm.trans last)
    exact absurd (same ▸ succeeded) unfinished
  · rintro e' same
    exact ⟨a, last, failed.trans same⟩

theorem proceeds_of_ok {report : Option Migration.Report} {a : Attempt σ} {notices : List Notice}
    {r : Except ScaffoldError (Option Migration.Report)}
    (attempted : Attempts (s.perform programs manager) w s.stages attempts w₁)
    (detected : ∀ a ∈ attempts, a.stage = .clone → a.Succeeds →
      manager = PackageManager.detect programs a.after)
    (last : attempts.getLast? = some a) (result : a.result = .ok report)
    (whole : attempts.map (·.stage) = s.stages) (each : ∀ a ∈ attempts, a.Succeeds)
    (init : s.perform programs manager .init w₁ = (r, w')) :
    s.Proceeds programs w manager (attempts ++ [⟨.init, w₁, r, w'⟩]) (.ok report)
      { w' with log := w'.log ++ notices } := by
  have one : Attempts (s.perform programs manager) w₁ [.init] [⟨.init, w₁, r, w'⟩] w' := by
    cases r with
    | error e => exact .stop [] init
    | ok nothing => exact .next init (.done w')
  have all := attempted.append each one
  have before : ∀ b ∈ attempts ++ [⟨.init, w₁, r, w'⟩], b.stage ≠ .init → b ∈ attempts := by
    intro b among other
    rcases List.mem_append.mp among with among | final
    · exact among
    · exact absurd (congrArg Attempt.stage (List.mem_singleton.mp final)) other
  refine ⟨⟨w', notices, all, rfl⟩, all.order, all.earlier, ?_, ?_, ?_, ?_, ?_, ?_, ?_⟩
  · intro b among clone
    exact detected b (before b among (by rw [clone]; decide)) clone
  · refine ⟨fun _ stage member => ?_, fun _ => ⟨report, rfl⟩⟩
    rw [← whole] at member
    obtain ⟨b, among, same⟩ := List.mem_map.mp member
    exact ⟨b, List.mem_append_left _ among, same, each b among⟩
  · exact ⟨fun _ => ⟨_, List.mem_append_right _ (List.mem_singleton_self _), rfl⟩,
      fun _ => ⟨report, rfl⟩⟩
  · intro report' same
    cases same
    have performed := attempted.performed a (List.mem_of_getLast? last)
    rw [result] at performed
    rw [perform_report performed, ← migrate_last_iff, ← whole, List.getLast?_map, last]
    exact (Option.some_inj (a := a.stage)).symm
  · intro b among migration succeeded
    have member := before b among (by rw [migration]; decide)
    have final := migrate_last (migration ▸ attempted.stage_mem member)
    rw [← migration] at final
    rw [Option.some.inj ((attempted.last member final).symm.trans last), result]
  · intro e same
    cases same
  · intro calls records
    exact all.makes records

end Proceeding

/-- A new project whose name is refused or taken changes nothing and starts no program. A name that
is accepted is that of the destination, one step below the parent directory, and if it is free the
run goes through its stages one by one, whatever the programs do. -/
theorem run_proceeds (s : Scaffold) (programs : Programs σ) (w : Workspace σ) :
    (∀ reason, Project.checkName s.name = .error reason →
      s.run programs w = (.error (.name reason), w)) ∧
    (Project.checkName s.name = .ok () →
      s.destination.components = s.parent.components ++ [.name s.name] ∧
      (w.tree.isPresent w.here s.destination = true →
        s.run programs w = (.error (.taken s.destination), w)) ∧
      (w.tree.isPresent w.here s.destination = false →
        ∃ manager attempts, s.Proceeds programs w manager attempts (s.run programs w).1
          (s.run programs w).2)) := by
  refine ⟨?_, fun accepted => ⟨components_destination accepted, ?_, ?_⟩⟩
  · intro reason refused
    rw [run_eq]
    exact Task.bind_of_error (check_of_refused refused w) _
  · intro taken
    rw [run_eq]
    exact Task.bind_of_error (check_of_taken accepted taken) _
  · intro free
    obtain ⟨manager, attempts, r, w₁, attempted, detected, ⟨a, last, result⟩, whole, done⟩ :=
      s.run_begun programs accepted free
    rw [done]
    cases r with
    | error e => exact ⟨manager, attempts, proceeds_of_error attempted detected last result⟩
    | ok report =>
        obtain ⟨order, each⟩ := whole ⟨report, rfl⟩
        obtain ⟨r, w', notices, init, concluded⟩ := s.conclude_apply programs manager report w₁
        dsimp only
        rw [concluded]
        exact ⟨manager, _, proceeds_of_ok attempted detected last result order each init⟩

/-- A project in a directory where only npm is installed, and where no repository can be made. -/
def remote : Programs Unit where
  find? name _ := if name == "npm" then some ⟨"/bin/npm"⟩ else none
  launch i := fun w =>
    (.ok ⟨if i.arguments.head? == some "init" then 1 else 0, "", ""⟩, w)

def app : Scaffold :=
  { name := "app", parent := ⟨"/p"⟩, style := .tailwind, template := "t", branch := "b" }

def appStart : Workspace (Unit × List Invocation) :=
  { tree := .empty, here := [], memory := ((), []) }

theorem run_proceeds_app :
    Project.checkName app.name = .ok () ∧
    appStart.tree.isPresent appStart.here app.destination = false ∧
    app.destination.components = app.parent.components ++ [.name "app"] ∧
    (app.run remote.recorded appStart).1 = .ok none ∧
    (∃ manager attempts, app.Proceeds remote.recorded appStart manager attempts
      (app.run remote.recorded appStart).1 (app.run remote.recorded appStart).2) ∧
    (app.run remote.recorded appStart).2.memory.2 =
      [⟨⟨"git"⟩, ["clone", "--recursive", "--single-branch", "--branch", "b", "t", "/p/app"], none,
          none⟩,
        ⟨⟨"/bin/npm"⟩, ["install"], some ⟨"/p/app"⟩, none⟩,
        ⟨⟨"git"⟩, ["init", "--quiet"], some ⟨"/p/app"⟩, none⟩] := by
  obtain ⟨-, begins⟩ := run_proceeds app remote.recorded appStart
  have accepted : Project.checkName app.name = .ok () := rfl
  have free : appStart.tree.isPresent appStart.here app.destination = false := by decide +kernel
  obtain ⟨below, -, proceeds⟩ := begins accepted
  exact ⟨accepted, free, below, by decide +kernel, proceeds free, by decide +kernel⟩

end Scaffold

end Restyle
