import Restyle.Proofs.Migration.Steps
import Restyle.Proofs.Rewrite.Binding
/-!
No element is without its component. Synthesis covers every element it is given, whatever the
collection holds by then, and a file is rewritten with the elements it was synthesized for. So the
check that each element finds its component never fails in a migration.
-/

namespace Restyle

open Component (Collection Styled Synthesizer FileSynthesis)
open Markup (Element)
open Sheet (StyleTable)

def RewriteError.IsInconsistent : RewriteError → Prop
  | inconsistent _ _ => True
  | _ => False

def MigrationError.IsInconsistent : MigrationError → Prop
  | inconsistent _ _ => True
  | _ => False

theorem MigrationError.isInconsistent_ofRewrite (file : Path) (cause : RewriteError) :
    (ofRewrite file cause).IsInconsistent ↔ cause.IsInconsistent := by
  cases cause <;> exact Iff.rfl

namespace Rewrite

theorem not_isInconsistent_of_verify {l : Language} {before : Nat} {content : String}
    {e : RewriteError} (failed : verify l before content = .error e) : ¬ e.IsInconsistent := by
  unfold verify at failed
  dsimp only at failed
  split at failed
  · cases failed
    exact not_false
  · cases failed

theorem not_isInconsistent_of_found {attr : String} {file : Path} {source : String} {l : Language}
    {cs : Collection} {e : RewriteError}
    (found : ∀ d ∈ Markup.scan attr file source (l.parse source),
      ∃ c, cs.find? file d.classes.value = some c)
    (failed : run attr file source l cs = .error e) : ¬ e.IsInconsistent := by
  by_cases owns : cs.forFile file = []
  · rw [run_of_unowned owns] at failed
    cases failed
  obtain ⟨edits, made, -⟩ := editsFor_of_found attr found
  rw [run_of_owned owns, made] at failed
  -- What is left are the languages without markup, the order of the edits and the faults.
  split at failed
  · dsimp only at failed
    split at failed
    · cases failed
      exact not_false
    · split at failed
      · rename_i faulty
        cases failed
        exact not_isInconsistent_of_verify faulty
      · cases failed
  · cases failed
    exact not_false

/-- Right after a source was scanned and synthesized, whatever was made before, every element of it
finds a component, and rewriting it does not fail for want of one. -/
theorem run_of_synthesized (s : Synthesizer) (attr : String) (file : Path) (source : String)
    (l : Language) (cs : Collection) :
    (∀ d ∈ Markup.scan attr file source (l.parse source), ∃ c,
      (s.synthesizeFile file (Markup.scan attr file source (l.parse source)) cs).2.find? file
        d.classes.value = some c) ∧
    ∀ e, run attr file source l
        (s.synthesizeFile file (Markup.scan attr file source (l.parse source)) cs).2 = .error e →
      ¬ e.IsInconsistent := by
  have found : ∀ d ∈ Markup.scan attr file source (l.parse source), ∃ c,
      (s.synthesizeFile file (Markup.scan attr file source (l.parse source)) cs).2.find? file
        d.classes.value = some c := fun d member =>
    ((Component.synthesizeFile_covers s file _ cs).1 d member).find?
  exact ⟨found, fun e => not_isInconsistent_of_found found⟩

end Rewrite

namespace Migration

variable {σ : Type} {m : Migration σ}

theorem draft_consistent {table : StyleTable} {components : Collection} {file : Path}
    {source : String} {e : MigrationError}
    (failed : m.draft table components file source = .error e) : ¬ e.IsInconsistent := by
  unfold draft at failed
  cases language : Language.ofExtension (file.extension?.getD "") with
  | error cause =>
      rw [language] at failed
      cases failed
      exact not_false
  | ok l =>
      rw [language] at failed
      cases scanned : Markup.scanSource m.config.classAttribute file source l with
      | error cause =>
          simp only [Except.mapError, ok_bind, scanned] at failed
          cases failed
          exact not_false
      | ok elements =>
          have whole := (Markup.scanSource_eq_ok_iff.mp scanned).2
          simp only [Except.mapError, ok_bind, scanned, whole] at failed
          split at failed
          · rename_i cause rewriting
            cases failed
            rw [MigrationError.isInconsistent_ofRewrite]
            exact (Rewrite.run_of_synthesized _ _ _ _ _ _).2 cause rewriting
          · cases failed

theorem files_consistent {α : Type} (p : Path) (t : Task σ FileError α) :
    (t.mapError (MigrationError.files p)).FailsOnly (¬ ·.IsInconsistent) := by
  refine .mapError ?_ t
  exact fun cause => not_false

theorem persist_consistent (m : Migration σ) (p : Path) (s : String) :
    (m.persist p s).FailsOnly (¬ ·.IsInconsistent) := by
  have c := Task.FailsOnly.composes σ (¬ MigrationError.IsInconsistent ·)
  unfold persist
  split
  · exact c.pure false
  · exact c.bind (files_consistent p _) fun _ => c.pure true

theorem finish_consistent (m : Migration σ) (file : Path) (source : String)
    (drafted : FileSynthesis × Collection × Rewritten) :
    (m.finish file source drafted).FailsOnly (¬ ·.IsInconsistent) := by
  have c := Task.FailsOnly.composes σ (¬ MigrationError.IsInconsistent ·)
  have formats : (m.format file drafted.2.2.content).FailsOnly (¬ ·.IsInconsistent) := by
    refine .mapError ?_ _
    exact fun cause => not_false
  refine c.bind formats fun text => c.bind ?_ fun written => c.pure _
  unfold settle
  split
  · exact persist_consistent m file text
  · exact c.pure false

theorem rewriteFile_consistent (m : Migration σ) (table : StyleTable) (components : Collection)
    (file : Path) :
    (m.rewriteFile table components file).FailsOnly (¬ ·.IsInconsistent) := by
  intro w w' e failed
  rw [rewriteFile_eq] at failed
  split at failed
  · cases failed
    exact not_false
  split at failed
  · cases failed
    exact not_false
  split at failed
  · rename_i drafting
    cases failed
    exact draft_consistent drafting
  · exact finish_consistent m file _ _ failed

theorem rewriteAll_consistent (m : Migration σ) (table : StyleTable) (components : Collection)
    (files : List Path) :
    (m.rewriteAll table components files).FailsOnly (¬ ·.IsInconsistent) := by
  have c := Task.FailsOnly.composes σ (¬ MigrationError.IsInconsistent ·)
  induction files generalizing components with
  | nil => exact c.pure _
  | cons file files ih =>
      exact c.bind (rewriteFile_consistent m table components file) fun made =>
        c.bind (ih made.1) fun rest => c.pure _

/-- The check of the components never fails in a migration. Right after a source was scanned and
synthesized, on any collection, each of its elements finds a component and the rewriting does not
fail for want of one; and so no list of files, with repeats or without, makes the rewriting of the
files fail for it. -/
theorem rewriteFiles_consistent :
    (∀ (s : Synthesizer) (attr : String) (file : Path) (source : String) (l : Language)
        (cs : Collection),
      (∀ d ∈ Markup.scan attr file source (l.parse source), ∃ c,
        (s.synthesizeFile file (Markup.scan attr file source (l.parse source)) cs).2.find? file
          d.classes.value = some c) ∧
      ∀ p message, Rewrite.run attr file source l
          (s.synthesizeFile file (Markup.scan attr file source (l.parse source)) cs).2
        ≠ .error (.inconsistent p message)) ∧
    ∀ {σ : Type} (m : Migration σ) (styles : Styles) (files : List Path) (w : Workspace σ) p message,
      (m.rewriteFiles styles files w).1 ≠ .error (.inconsistent p message) := by
  refine ⟨?_, ?_⟩
  · intro s attr file source l cs
    obtain ⟨found, sound⟩ := Rewrite.run_of_synthesized s attr file source l cs
    exact ⟨found, fun p message failed => sound _ failed trivial⟩
  · intro σ m styles files w p message failed
    rcases result : m.rewriteFiles styles files w with ⟨r, w'⟩
    rw [result] at failed
    rw [show r = .error (.inconsistent p message) from failed] at result
    exact rewriteAll_consistent m styles.table [] files result trivial

end Migration

end Restyle
