import Restyle.Proofs.Migration.Styling
/-!
Migrations that differ in their tools. Where the tools of one fail those of the other may go on; what
the first has written by then comes first in what the second writes.
-/

namespace Restyle.Migration

open Component (Collection Styled FileSynthesis)
open Sheet (StyleTable)

variable {σ : Type} {m m' : Migration σ}

/-- `m'` is the migration `m` with tools that give what those of `m` give, and may go on where those
fail. -/
structure Outlasts (m' m : Migration σ) : Prop where
  root : m'.root = m.root
  config : m'.config = m.config
  dryRun : m'.dryRun = m.dryRun
  compiler : m'.compiler.Quiet
  formatter : m'.formatter.Quiet
  compiled : ∀ {source css : String} {root : Path} {w w' : Workspace σ},
    m.compiler.compile source root w = (.ok css, w') →
      m'.compiler.compile source root w = (.ok css, w')
  formatted : ∀ {source text : String} {file root : Path} {w w' : Workspace σ},
    m.formatter.format source file root w = (.ok text, w') →
      m'.formatter.format source file root w = (.ok text, w')

theorem persist_grows (m : Migration σ) (p : Path) (s : String) : (m.persist p s).Grows := by
  unfold persist
  split
  · exact (Task.Quiet.pure false).grows
  · exact (((Task.Continues.refl (Task.writeText_grows p s)).mapError (MigrationError.files p)).bind
      fun _ => .refl (Task.Quiet.pure true).grows).grows

namespace Outlasts

open Restyle.Task (Continues)

theorem shown_eq (h : m'.Outlasts m) (p : Path) : m'.shown p = m.shown p := by
  rw [shown, shown, h.root]

theorem format (h : m'.Outlasts m) (quiet : m.formatter.Quiet) (p : Path) (s : String) :
    (m.format p s).Continues (m'.format p s) := by
  rw [Migration.format, Migration.format, h.shown_eq, h.root]
  exact (Continues.of_quiet (quiet _ _ _) (h.formatter _ _ _) h.formatted).mapError _

theorem compile (h : m'.Outlasts m) (quiet : m.compiler.Quiet) (source : String) :
    (m.compile source).Continues (m'.compile source) := by
  rw [Migration.compile, Migration.compile, h.root]
  exact (Continues.of_quiet (quiet _ _) (h.compiler _ _) h.compiled).mapError _

theorem persist (h : m'.Outlasts m) (p : Path) (s : String) :
    (m.persist p s).Continues (m'.persist p s) := by
  have same : m'.persist p s = m.persist p s := by
    rw [Migration.persist, Migration.persist, h.dryRun]
  rw [same]
  exact .refl (persist_grows m p s)

theorem extractStyles (h : m'.Outlasts m) (quiet : m.compiler.Quiet) :
    m.extractStyles.Continues m'.extractStyles := by
  unfold Migration.extractStyles
  have place : ∀ p, m'.place p = m.place p := by
    intro p
    unfold Migration.place
    rw [h.root]
  rw [place, h.config]
  refine (Continues.refl (place_quiet m _).grows).bind fun sheet => ?_
  refine (Continues.refl ((readText_quiet sheet).mapError _).grows).bind fun source => ?_
  refine (h.compile quiet source).bind fun css => ?_
  exact (h.compile quiet _).bind fun baseCss => .refl (Task.Quiet.pure _).grows

theorem targets (h : m'.Outlasts m) : m.targets.Continues m'.targets := by
  have same : m'.targets = m.targets := by
    unfold Migration.targets Migration.targetsIn Migration.place
    rw [h.root, h.config]
  rw [same]
  exact .refl (targets_quiet m).grows

theorem draft_eq (h : m'.Outlasts m) (table : StyleTable) (components : Collection) (file : Path)
    (source : String) :
    m'.draft table components file source = m.draft table components file source := by
  unfold draft
  rw [h.shown_eq, h.config]

theorem finish (h : m'.Outlasts m) (quiet : m.formatter.Quiet) (file : Path) (source : String)
    (drafted : FileSynthesis × Collection × Rewritten) :
    (m.finish file source drafted).Continues (m'.finish file source drafted) := by
  unfold Migration.finish settle
  rw [h.shown_eq]
  refine (h.format quiet file _).bind fun text => ?_
  refine Continues.bind ?_ fun written => .refl (Task.Quiet.pure _).grows
  split
  · exact h.persist file text
  · exact .refl (Task.Quiet.pure _).grows

/-- A migration and one that outlasts it draft a file alike and part only where it is formatted. -/
theorem rewriteFile_cases (h : m'.Outlasts m) (table : StyleTable) (components : Collection)
    (file : Path) (w : Workspace σ) :
    (∃ e, m.rewriteFile table components file w = (.error e, w) ∧
      m'.rewriteFile table components file w = (.error e, w)) ∨
    ∃ source drafted, m.rewriteFile table components file w = m.finish file source drafted w ∧
      m'.rewriteFile table components file w = m'.finish file source drafted w := by
  rw [rewriteFile_eq, rewriteFile_eq, h.shown_eq]
  cases Language.ofExtension (file.extension?.getD "") with
  | error e => exact .inl ⟨_, rfl, rfl⟩
  | ok l =>
      cases w.tree.readText w.here file with
      | error e => exact .inl ⟨_, rfl, rfl⟩
      | ok source =>
          dsimp only
          rw [h.draft_eq]
          cases m.draft table components file source with
          | error e => exact .inl ⟨_, rfl, rfl⟩
          | ok drafted => exact .inr ⟨source, drafted, rfl, rfl⟩

theorem rewriteFile (h : m'.Outlasts m) (quiet : m.formatter.Quiet) (table : StyleTable)
    (components : Collection) (file : Path) :
    (m.rewriteFile table components file).Continues (m'.rewriteFile table components file) := by
  constructor
  · intro w w' a done
    rcases h.rewriteFile_cases table components file w with
      ⟨e, failed, -⟩ | ⟨source, drafted, here, there⟩
    · rw [failed] at done
      cases done
    · rw [there]
      exact (h.finish quiet file source drafted).ok (here ▸ done)
  · intro w w' e failed
    rcases h.rewriteFile_cases table components file w with
      ⟨e', here, there⟩ | ⟨source, drafted, here, there⟩
    · rw [there]
      rw [here] at failed
      cases failed
      exact List.prefix_rfl
    · rw [there]
      exact (h.finish quiet file source drafted).error (here ▸ failed)
  · intro w
    rcases h.rewriteFile_cases table components file w with
      ⟨e, -, there⟩ | ⟨source, drafted, -, there⟩
    · exact there ▸ List.prefix_rfl
    · rw [there]
      exact (h.finish quiet file source drafted).grows w

theorem rewriteAll (h : m'.Outlasts m) (quiet : m.formatter.Quiet) (table : StyleTable)
    (components : Collection) (files : List Path) :
    (m.rewriteAll table components files).Continues (m'.rewriteAll table components files) := by
  induction files generalizing components with
  | nil => exact .refl (Task.Quiet.pure _).grows
  | cons file files ih =>
      exact (h.rewriteFile quiet table components file).bind fun result =>
        (ih result.1).bind fun rest => .refl (Task.Quiet.pure _).grows

theorem appendAll (h : m'.Outlasts m) (quiet : m.formatter.Quiet) (companion : Path)
    (text : String) (cs : List Styled) :
    (m.appendAll companion text cs).Continues (m'.appendAll companion text cs) := by
  induction cs generalizing text with
  | nil => exact .refl (Task.Quiet.pure _).grows
  | cons c cs ih =>
      exact (h.format quiet companion _).bind fun text =>
        (h.persist companion text).bind fun _ => ih text

theorem writeStyleFile (h : m'.Outlasts m) (quiet : m.formatter.Quiet) (companion : Path)
    (owned : List Styled) :
    (m.writeStyleFile companion owned).Continues (m'.writeStyleFile companion owned) := by
  unfold Migration.writeStyleFile
  rw [h.shown_eq, h.config]
  exact (h.appendAll quiet companion _ owned).bind fun _ => .refl (Task.Quiet.pure _).grows

theorem writeStyleFiles (h : m'.Outlasts m) (quiet : m.formatter.Quiet) (components : Collection) :
    (m.writeStyleFiles components).Continues (m'.writeStyleFiles components) := by
  unfold Migration.writeStyleFiles
  apply Continues.mapM
  intro g
  exact h.writeStyleFile quiet g.1 g.2

theorem replaceSheet (h : m'.Outlasts m) (styles : Styles) :
    (m.replaceSheet styles).Continues (m'.replaceSheet styles) := by
  unfold Migration.replaceSheet
  rw [h.shown_eq]
  exact (h.persist _ _).bind fun _ => .refl (Task.Quiet.pure _).grows

theorem run (h : m'.Outlasts m) (compiler : m.compiler.Quiet) (formatter : m.formatter.Quiet) :
    m.run.Continues m'.run := by
  unfold Migration.run
  refine (h.extractStyles compiler).bind fun styles => ?_
  refine h.targets.bind fun files => ?_
  refine (h.rewriteAll formatter styles.table [] files).bind fun rewriting => ?_
  refine (h.writeStyleFiles formatter rewriting.components).bind fun styleFiles => ?_
  refine (h.replaceSheet styles).bind fun sheet => ?_
  have same : m'.report styles rewriting styleFiles sheet
      = m.report styles rewriting styleFiles sheet := by
    rw [report, report, h.root, h.dryRun]
  rw [same]
  exact .refl (Task.Quiet.pure _).grows

end Outlasts

end Restyle.Migration
