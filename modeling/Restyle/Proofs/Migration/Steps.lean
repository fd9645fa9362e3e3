import Restyle.Proofs.Migration.Styling
/-!
The stages that write, taken together. They are made of few kinds of steps, and what all of these
steps have in common the stages have, too.
-/

namespace Restyle

/-- There are no styles to work with, or the configuration is wrong. -/
def MigrationError.IsEarly : MigrationError → Prop
  | compile _ | config _ => True
  | _ => False

theorem MigrationError.not_isEarly_ofRewrite (file : Path) (cause : RewriteError) :
    ¬ (ofRewrite file cause).IsEarly := by
  cases cause <;> exact not_false

namespace Migration

open Component (Collection Styled)
open Sheet (StyleTable)

variable {σ : Type} {m : Migration σ}

/-- The stages that write, for styles and targets. -/
def carryOut (m : Migration σ) (styles : Styles) (files : List Path) :
    Task σ MigrationError Report := do
  let rewriting ← m.rewriteFiles styles files
  let styleFiles ← m.writeStyleFiles rewriting.components
  let sheet ← m.replaceSheet styles
  return m.report styles rewriting styleFiles sheet

theorem run_eq_carryOut (m : Migration σ) :
    m.run = m.prepare >>= fun p => m.carryOut p.1 p.2 := run_eq m

theorem draft_late {table : StyleTable} {components : Collection} {file : Path} {source : String}
    {e : MigrationError} (failed : m.draft table components file source = .error e) : ¬ e.IsEarly := by
  unfold draft at failed
  generalize Markup.scanSource m.config.classAttribute file source = scan at failed
  generalize Rewrite.run m.config.classAttribute file source = rewrite at failed
  cases language : Language.ofExtension (file.extension?.getD "") with
  | error cause =>
      rw [language] at failed
      cases failed
      exact not_false
  | ok l =>
      rw [language] at failed
      cases scanned : scan l with
      | error cause =>
          simp only [Except.mapError, ok_bind, scanned] at failed
          cases failed
          exact not_false
      | ok elements =>
          simp only [Except.mapError, ok_bind, scanned] at failed
          split at failed
          · cases failed
            exact MigrationError.not_isEarly_ofRewrite _ _
          · cases failed

theorem rewriteFile_eq_bind (m : Migration σ) (table : StyleTable) (components : Collection)
    (file : Path) :
    m.rewriteFile table components file
      = (Task.look fun _ => (Language.ofExtension (file.extension?.getD "")).mapError
          (.unsupported (m.shown file))) >>= fun _ =>
        (Task.readText file).mapError (.files file) >>= fun source =>
          (Task.look fun _ => m.draft table components file source) >>= m.finish file source := by
  funext w
  rw [rewriteFile_eq]
  generalize m.draft table components file = draft
  cases Language.ofExtension (file.extension?.getD "") with
  | error cause => rfl
  | ok l =>
      have reading : Task.readText file w = (w.tree.readText w.here file, w) :=
        Task.readText_apply file w
      refine .trans ?_ (Task.bind_of_ok (a := l) rfl _).symm
      cases read : w.tree.readText w.here file with
      | error cause =>
          rw [read] at reading
          exact (Task.bind_of_error (Task.mapError_of_error reading _) _).symm
      | ok source =>
          rw [read] at reading
          refine .trans ?_ (Task.bind_of_ok (Task.mapError_of_ok reading _) _).symm
          dsimp only
          cases draft source <;> rfl

/-- A property of the steps that the stages are made of. -/
structure StepsHave (m : Migration σ) (Q : (α : Type) → Task σ MigrationError α → Prop) :
    Prop extends Task.Composes Q where
  throws {α : Type} {e : MigrationError} (late : ¬ e.IsEarly) : Q α (throw e)
  reads (file : Path) : Q String ((Task.readText file).mapError (.files file))
  formats (p : Path) (s : String) : Q String (m.format p s)
  persists (p : Path) (s : String) : Q Bool (m.persist p s)

namespace StepsHave

variable {Q : (α : Type) → Task σ MigrationError α → Prop}

theorem settled (h : m.StepsHave Q) {α : Type} {r : Except MigrationError α}
    (late : ∀ e, r = .error e → ¬ e.IsEarly) : Q α (Task.look fun _ => r) := by
  cases r with
  | error e => exact h.throws (late e rfl)
  | ok a => exact h.pure a

theorem finish (h : m.StepsHave Q) (file : Path) (source : String)
    (drafted : Component.FileSynthesis × Collection × Rewritten) :
    Q (Collection × FileReport) (m.finish file source drafted) := by
  refine h.bind (h.formats file _) fun text => h.bind ?_ fun written => h.pure _
  unfold settle
  split
  · exact h.persists file text
  · exact h.pure false

theorem rewriteFile (h : m.StepsHave Q) (table : StyleTable) (components : Collection)
    (file : Path) : Q (Collection × FileReport) (m.rewriteFile table components file) := by
  rw [rewriteFile_eq_bind]
  refine h.bind (h.settled ?_) fun _ => h.bind (h.reads file) fun source =>
    h.bind (h.settled fun e => draft_late) fun drafted => h.finish file source drafted
  intro e unsupported
  cases language : Language.ofExtension (file.extension?.getD "") with
  | error cause =>
      rw [language] at unsupported
      cases unsupported
      exact not_false
  | ok l =>
      rw [language] at unsupported
      cases unsupported

theorem rewriteAll (h : m.StepsHave Q) (table : StyleTable) (components : Collection)
    (files : List Path) : Q Rewriting (m.rewriteAll table components files) := by
  induction files generalizing components with
  | nil => exact h.pure _
  | cons file files ih =>
      exact h.bind (h.rewriteFile table components file) fun made =>
        h.bind (ih made.1) fun rest => h.pure _

theorem appendAll (h : m.StepsHave Q) (companion : Path) (text : String) (cs : List Styled) :
    Q Unit (m.appendAll companion text cs) := by
  induction cs generalizing text with
  | nil => exact h.pure ()
  | cons c cs ih =>
      exact h.bind (h.formats companion _) fun text =>
        h.bind (h.persists companion text) fun _ => ih text

theorem writeStyleFiles (h : m.StepsHave Q) (components : Collection) :
    Q (List StyleFileReport) (m.writeStyleFiles components) :=
  h.mapM (fun (companion, owned) =>
    h.bind (h.appendAll companion m.header owned) fun _ => h.pure _) components.byCompanion

theorem carryOut (h : m.StepsHave Q) (styles : Styles) (files : List Path) :
    Q Report (m.carryOut styles files) :=
  h.bind (h.rewriteAll styles.table [] files) fun rewriting =>
    h.bind (h.writeStyleFiles rewriting.components) fun _ =>
      h.bind (h.bind (h.persists styles.sheet styles.baseCss) fun _ => h.pure _) fun _ => h.pure _

end StepsHave

end Migration

end Restyle
