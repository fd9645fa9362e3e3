import Restyle.Proofs.Migration.Outcome
import Restyle.Proofs.Migration.Steps
/-!
Dry runs. A dry run calls its tools and does nothing else, and it foretells the report of a migration
that writes, although that one reads files behind its own writes.
-/

namespace Restyle.Migration

open Component (Collection Styled)
open Sheet (StyleTable)

variable {σ : Type} {m : Migration σ} {w w' : Workspace σ}
variable {compile : String → Path → Except ToolError String}
variable {format : String → Path → Path → Except ToolError String}

theorem persist_of_dry (dry : m.dryRun = true) (p : Path) (s : String) :
    m.persist p s = pure false := by
  unfold persist
  rw [if_pos dry]

theorem settle_of_dry (dry : m.dryRun = true) (file : Path) (source text : String)
    (w : Workspace σ) : m.settle file source text w = (.ok false, w) := by
  unfold settle
  rw [persist_of_dry dry]
  split <;> rfl

section Keeping

variable {R : Workspace σ → Workspace σ → Prop}

theorem stepsHave_keeps (dry : m.dryRun = true) (refl : ∀ w, R w w)
    (trans : ∀ w w' w'', R w w' → R w' w'' → R w w'')
    (formats : ∀ s p, (m.formatter.format s p m.root).Keeps R) :
    m.StepsHave fun α (t : Task σ MigrationError α) => t.Keeps R where
  toComposes := Task.Keeps.composes MigrationError refl trans
  throws _ := .throw refl _
  reads file := .mapError (.look refl _) _
  formats p s := (formats s p).mapError _
  persists p s := by
    rw [persist_of_dry dry]
    exact .pure refl false

theorem run_keeps (dry : m.dryRun = true) (refl : ∀ w, R w w)
    (trans : ∀ w w' w'', R w w' → R w' w'' → R w w'')
    (compiles : ∀ s, (m.compiler.compile s m.root).Keeps R)
    (formats : ∀ s p, (m.formatter.format s p m.root).Keeps R) : m.run.Keeps R := by
  rw [run_eq_carryOut]
  exact (Task.Keeps.composes MigrationError refl trans).bind (prepare_keeps refl trans compiles)
    fun p => (stepsHave_keeps dry refl trans formats).carryOut p.1 p.2

end Keeping

def rehearsal (m : Migration σ) : Migration σ := { m with dryRun := true }

def FileReport.unwritten (f : FileReport) : FileReport := { f with written := false }

/-- The report of a dry run in place of a run that writes. -/
def Report.rehearsed (r : Report) : Report :=
  { r with dryRun := true, files := r.files.map FileReport.unwritten }

theorem rehearsal_format (formats : m.formatter.Computes format) {p : Path} {s text : String}
    (h : m.format p s w = (.ok text, w')) (v : Workspace σ) :
    m.rehearsal.format p s v = (.ok text, v) :=
  format_of_ok (m := m.rehearsal) formats (format_ok formats h).1 v

theorem rehearsal_rewriteFile (formats : m.formatter.Computes format) {table : StyleTable}
    {components components' : Collection} {file : Path} {report : FileReport} {v : Workspace σ}
    (reads : ∀ s, w.tree.readText w.here file = .ok s → v.tree.readText v.here file = .ok s)
    (h : m.rewriteFile table components file w = (.ok (components', report), w')) :
    m.rehearsal.rewriteFile table components file v = (.ok (components', report.unwritten), v) := by
  obtain ⟨l, source, drafted, text, w₁, written, language, read, made, formatted, -, rfl, rfl⟩ :=
    rewriteFile_steps h
  have drafted_too : m.rehearsal.draft table components file source = .ok drafted := made
  exact rewriteFile_of_steps language (reads source read) drafted_too
    (rehearsal_format formats formatted v) (settle_of_dry rfl file source text v)

theorem rehearsal_rewriteAll (real : m.dryRun = false) (formats : m.formatter.Computes format)
    {table : StyleTable} {components : Collection} {files : List Path} {rewriting : Rewriting}
    {v : Workspace σ}
    (reads : ∀ file ∈ files, ∀ s, w.tree.readText w.here file = .ok s →
      v.tree.readText v.here file = .ok s)
    (apart : files.Pairwise fun p q => p.place w.here ≠ q.place w.here)
    (h : m.rewriteAll table components files w = (.ok rewriting, w')) :
    m.rehearsal.rewriteAll table components files v
      = (.ok { rewriting with files := rewriting.files.map FileReport.unwritten }, v) := by
  -- What a file writes is elsewhere than the files to come, which read as at first.
  induction files generalizing components w rewriting with
  | nil =>
      cases h
      rfl
  | cons file files ih =>
      obtain ⟨⟨components₁, report⟩, w₁, first, h⟩ := Task.bind_eq_ok_iff.mp h
      obtain ⟨rest, w₂, later, h⟩ := Task.bind_eq_ok_iff.mp h
      cases h
      obtain ⟨others, apart⟩ := List.pairwise_cons.mp apart
      obtain ⟨source, text, revises, -, -⟩ := rewriteFile_ok real first
      have journaled := revises.journaled real formats.quiet
      have still : ∀ next ∈ files, ∀ s, w₁.tree.readText w₁.here next = .ok s →
          v.tree.readText v.here next = .ok s := by
        intro next member s read
        apply reads next (List.mem_cons_of_mem file member) s
        refine (journaled.readText_iff ?_).mp read
        intro x written
        rw [Revision.eq_file_of_mem_writes _ written]
        exact (others next member).symm
      rw [← journaled.here] at apart
      have here := rehearsal_rewriteFile formats (reads file List.mem_cons_self) first
      exact (Task.bind_of_ok here _).trans ((Task.bind_of_ok (ih still apart later) _).trans rfl)

theorem rehearsal_appendAll (formats : m.formatter.Computes format) {companion : Path}
    {text : String} {cs : List Styled} (h : m.appendAll companion text cs w = (.ok (), w'))
    (v : Workspace σ) : m.rehearsal.appendAll companion text cs v = (.ok (), v) := by
  induction cs generalizing text w with
  | nil => rfl
  | cons c cs ih =>
      obtain ⟨text', w₁, formatted, h⟩ := Task.bind_eq_ok_iff.mp h
      obtain ⟨written, w₂, -, h⟩ := Task.bind_eq_ok_iff.mp h
      have persisted : m.rehearsal.persist companion text' v = (.ok false, v) := by
        rw [persist_of_dry rfl]
        rfl
      exact (Task.bind_of_ok (rehearsal_format formats formatted v) _).trans
        ((Task.bind_of_ok persisted _).trans (ih h))

theorem rehearsal_writeGroups (formats : m.formatter.Computes format)
    {groups : List (Path × List Styled)} {reports : List StyleFileReport}
    (h : groups.mapM (fun g => m.writeStyleFile g.1 g.2) w = (.ok reports, w'))
    (v : Workspace σ) :
    groups.mapM (fun g => m.rehearsal.writeStyleFile g.1 g.2) v = (.ok reports, v) := by
  induction groups generalizing w reports with
  | nil =>
      rw [List.mapM_nil] at h ⊢
      cases h
      rfl
  | cons g groups ih =>
      rw [List.mapM_cons] at h ⊢
      obtain ⟨report, w₁, first, h⟩ := Task.bind_eq_ok_iff.mp h
      obtain ⟨more, w₂, later, h⟩ := Task.bind_eq_ok_iff.mp h
      cases h
      obtain ⟨_, w₃, appended, first⟩ := Task.bind_eq_ok_iff.mp first
      cases first
      have here : m.rehearsal.writeStyleFile g.1 g.2 v = (.ok (m.styleReport g), v) :=
        (Task.bind_of_ok (rehearsal_appendAll formats appended v) _).trans rfl
      exact (Task.bind_of_ok here _).trans ((Task.bind_of_ok (ih later) _).trans rfl)

theorem rehearsal_carryOut (real : m.dryRun = false) (formats : m.formatter.Computes format)
    {styles : Styles} {files : List Path} {report : Report}
    (apart : files.Pairwise fun p q => p.place w.here ≠ q.place w.here)
    (h : m.carryOut styles files w = (.ok report, w')) :
    m.rehearsal.carryOut styles files w = (.ok report.rehearsed, w) := by
  obtain ⟨rewriting, w₁, rewritten, h⟩ := Task.bind_eq_ok_iff.mp h
  obtain ⟨reports, w₂, styled, h⟩ := Task.bind_eq_ok_iff.mp h
  obtain ⟨sheet, w₃, replaced, h⟩ := Task.bind_eq_ok_iff.mp h
  cases h
  obtain ⟨written, w₄, -, replaced⟩ := Task.bind_eq_ok_iff.mp replaced
  cases replaced
  have rewritten := rehearsal_rewriteAll real formats (fun _ _ _ read => read) apart rewritten
  have styled := rehearsal_writeGroups formats styled w
  have replaced : m.rehearsal.replaceSheet styles w = (.ok (m.shown styles.sheet), w) := by
    unfold replaceSheet
    rw [persist_of_dry rfl]
    rfl
  have dropped : (Rewriting.mk rewriting.components
      (rewriting.files.map FileReport.unwritten)).droppedTokens = rewriting.droppedTokens := by
    unfold Rewriting.droppedTokens
    rw [List.flatMap_map]
    rfl
  refine (Task.bind_of_ok rewritten _).trans ((Task.bind_of_ok styled _).trans ?_)
  refine (Task.bind_of_ok replaced _).trans ?_
  rw [Task.pure_apply]
  unfold Migration.report Report.rehearsed
  rw [dropped]
  rfl

/-- With tools that are functions a dry run leaves everything as it is, whether it succeeds or fails.
Where no source directory is inside another, it gives the report of a migration that succeeds, but
for what that one has written. -/
theorem rehearsal_run (compiles : m.compiler.Computes compile)
    (formats : m.formatter.Computes format) (w : Workspace σ) :
    (∀ r w', m.rehearsal.run w = (r, w') → w' = w) ∧
    (m.dryRun = false → w.tree.ProperNames → m.DisjointSources →
      ∀ report w', m.run w = (.ok report, w') →
        m.rehearsal.run w = (.ok report.rehearsed, w)) := by
  refine ⟨?_, ?_⟩
  · intro r w' result
    have keeps : m.rehearsal.run.Keeps Eq :=
      run_keeps rfl Eq.refl (fun _ _ _ => Eq.trans) (compile_keeps_eq (m := m.rehearsal) compiles)
        (format_keeps_eq (m := m.rehearsal) formats)
    exact (keeps.apply result).symm
  · intro real proper disjoint report w' done
    rw [run_eq_carryOut] at done ⊢
    obtain ⟨⟨styles, files⟩, w₁, prepared, carried⟩ := Task.bind_eq_ok_iff.mp done
    obtain ⟨rfl, -, chosen⟩ := prepare_computed compiles prepared
    have same : m.rehearsal.prepare = m.prepare := rfl
    rw [same]
    exact (Task.bind_of_ok prepared _).trans
      (rehearsal_carryOut real formats (targets_apart proper disjoint chosen) carried)

theorem rehearsal_run_small :
    small.compiler.Computes (fun _ _ => .ok "") ∧ small.formatter.Computes (fun s _ _ => .ok s) ∧
    small.dryRun = false ∧ smallStart.tree.ProperNames ∧ small.DisjointSources ∧
    ∃ report, small.run smallStart = (.ok report, smallEnd) ∧
      small.rehearsal.run smallStart = (.ok report.rehearsed, smallStart) := by
  have compiles : small.compiler.Computes fun _ _ => .ok "" := fun _ _ _ => rfl
  have formats : small.formatter.Computes fun s _ _ => .ok s := fun _ _ _ _ => rfl
  have proper : smallStart.tree.ProperNames := by decide
  obtain ⟨report, done⟩ := small_run
  exact ⟨compiles, formats, rfl, proper, small_disjoint, report, done,
    (rehearsal_run compiles formats smallStart).2 rfl proper small_disjoint report smallEnd done⟩

end Restyle.Migration
