import Restyle.Proofs.Migration.Outlasting
import Restyle.Proofs.Migration.Targets
import Restyle.Proofs.Rewrite.Outcome
/-!
Migrations that fail. What was written by then comes in order: the files that have become others, in
the order of the targets, then the style files, each one component longer with every version, and
before the stylesheet of the project is replaced. Nothing is written in part or out of its turn.
-/

namespace Restyle.Migration

open Component (Collection Styled)

variable {σ : Type} {m : Migration σ} {w w' : Workspace σ}

/-- How far a migration came before it failed: before the first file, at the file behind some that
were rewritten, at a style file behind others, which has had some versions and has more behind it,
or at the stylesheet. -/
inductive Stop where
  | preparing
  | rewriting (done : List Revision)
  | styling (targets : List Revision) (done : List StyleFile) (last : StyleFile) (later : List Path)
  | replacing (targets : List Revision) (done : List StyleFile)

def Stop.writes : Stop → List (Path × String)
  | preparing => []
  | rewriting done => done.flatMap Revision.writes
  | styling targets done last _ =>
      targets.flatMap Revision.writes ++ (done.flatMap StyleFile.writes ++ last.writes)
  | replacing targets done => targets.flatMap Revision.writes ++ done.flatMap StyleFile.writes

/-- A migration fails with an error where it stops, after all that comes before. -/
inductive StopsAt (m : Migration σ) (w : Workspace σ) :
    Stop → MigrationError → Workspace σ → Prop where
  | preparing {e : MigrationError} {w' : Workspace σ}
      (failed : m.prepare w = (.error e, w')) : StopsAt m w .preparing e w'
  | rewriting {styles : Styles} {files later : List Path} {done : List Revision} {next : Path}
      {components : Collection} {w₁ w₂ w' : Workspace σ} {e : MigrationError}
      (prepared : m.prepare w = (.ok (styles, files), w₁))
      (order : files = done.map (·.file) ++ next :: later)
      (revised : m.Revisions styles.table [] w₁ done components w₂)
      (failed : m.rewriteFile styles.table components next w₂ = (.error e, w')) :
      StopsAt m w (.rewriting done) e w'
  | styling {styles : Styles} {files : List Path} {targets : List Revision}
      {components : Collection} {before later : List (Path × List Styled)} {companion : Path}
      {appended rest : List Styled} {next : Styled} {done : List StyleFile}
      {versions : List String} {w₁ w₂ w₃ w₄ w' : Workspace σ} {e : MigrationError}
      (prepared : m.prepare w = (.ok (styles, files), w₁))
      (order : files = targets.map (·.file))
      (revised : m.Revisions styles.table [] w₁ targets components w₂)
      (grouped : components.byCompanion
        = before ++ (companion, appended ++ next :: rest) :: later)
      (styled : m.StyleFiles before w₂ done w₃)
      (grown : m.Versions companion m.header appended w₃ versions w₄)
      (failed : m.appendOne companion (versions.getLastD m.header) next w₄ = (.error e, w')) :
      StopsAt m w (.styling targets done ⟨companion, versions⟩ (later.map (·.1))) e w'
  | replacing {styles : Styles} {files : List Path} {targets : List Revision}
      {components : Collection} {done : List StyleFile} {w₁ w₂ w₃ w' : Workspace σ}
      {e : MigrationError}
      (prepared : m.prepare w = (.ok (styles, files), w₁))
      (order : files = targets.map (·.file))
      (revised : m.Revisions styles.table [] w₁ targets components w₂)
      (styled : m.StyleFiles components.byCompanion w₂ done w₃)
      (failed : m.replaceSheet styles w₃ = (.error e, w')) :
      StopsAt m w (.replacing targets done) e w'

theorem stopsAt_of_run {e : MigrationError} (real : m.dryRun = false)
    (failed : m.run w = (.error e, w')) : ∃ stop, m.StopsAt w stop e w' := by
  rw [run_eq] at failed
  rcases Task.bind_eq_error_iff.mp failed with failed | ⟨⟨styles, files⟩, w₁, prepared, failed⟩
  · exact ⟨.preparing, .preparing failed⟩
  rcases Task.bind_eq_error_iff.mp failed with failed | ⟨rewriting, w₂, rewritten, failed⟩
  · obtain ⟨done, next, later, components, w₂, revised, order, failed⟩ :=
      rewriteAll_error real failed
    exact ⟨.rewriting done, .rewriting prepared order revised failed⟩
  obtain ⟨targets, revised, order, -⟩ := rewriteAll_ok real rewritten
  rcases Task.bind_eq_error_iff.mp failed with failed | ⟨reports, w₃, styled, failed⟩
  · obtain ⟨before, companion, owned, later, done, w₃, grouped, styled, failed⟩ :=
      writeGroups_error failed
    obtain ⟨appended, next, rest, versions, w₄, rfl, grown, failed⟩ := writeStyleFile_error failed
    exact ⟨_, .styling prepared order.symm revised grouped styled grown failed⟩
  obtain ⟨-, done, styled⟩ := writeGroups_ok styled
  rcases Task.bind_eq_error_iff.mp failed with failed | ⟨sheet, w₄, -, failed⟩
  · exact ⟨_, .replacing prepared order.symm revised styled failed⟩
  · cases failed

theorem StopsAt.journaled {stop : Stop} {e : MigrationError} (real : m.dryRun = false)
    (compiler : m.compiler.Quiet) (formatter : m.formatter.Quiet) (h : m.StopsAt w stop e w') :
    w.Journaled w' stop.writes := by
  -- The stages behind one another write what they say; the step that fails writes nothing.
  cases h with
  | preparing failed => exact .of_sameFiles ((prepare_quiet compiler).apply failed)
  | rewriting prepared order revised failed =>
      have start := (prepare_quiet compiler).apply prepared
      have revisions := Workspace.Journaled.same_trans start (revised.journaled real formatter)
      exact revisions.trans_same (rewriteFile_error formatter failed)
  | styling prepared order revised grouped styled grown failed =>
      have start := (prepare_quiet compiler).apply prepared
      have revisions := Workspace.Journaled.same_trans start (revised.journaled real formatter)
      have holds := revised.holds_groups real formatter
      rw [grouped] at holds
      have files := styled.journaled real formatter
        fun g member => holds g (List.mem_append_left _ member)
      have holds_last := files.holds (holds _ (List.mem_append_right _ List.mem_cons_self))
      have last := grown.journaled real formatter holds_last
      exact (revisions.trans (files.trans last)).trans_same (appendOne_error formatter failed)
  | replacing prepared order revised styled failed =>
      have start := (prepare_quiet compiler).apply prepared
      have revisions := Workspace.Journaled.same_trans start (revised.journaled real formatter)
      have files := styled.journaled real formatter (revised.holds_groups real formatter)
      rw [replaceSheet_error failed]
      exact revisions.trans files

theorem StopsAt.places_apart {done : List Revision} {e : MigrationError}
    (compiler : m.compiler.Quiet) (proper : w.tree.ProperNames)
    (h : m.StopsAt w (.rewriting done) e w')
    (apart : done.Pairwise fun r s => r.file.same s.file = false) :
    done.Pairwise fun r s => r.file.place w.here ≠ s.file.place w.here := by
  cases h with
  | rewriting prepared order revised failed =>
      obtain ⟨w₀, extracted, chosen⟩ := prepare_ok prepared
      have start := (extractStyles_quiet compiler).apply extracted
      rw [← start.tree] at proper
      obtain ⟨rooted, straight⟩ := targets_straight proper chosen
      have target : ∀ r ∈ done, Path.Straight rooted r.file.components := by
        intro r member
        apply straight
        rw [order]
        exact List.mem_append_left _ (List.mem_map_of_mem member)
      refine apart.imp_of_mem ?_
      intro r s member member' other one
      have same := Path.same_iff.mpr (Path.same_of_place (target r member) (target s member') one)
      rw [same] at other
      cases other

theorem StopsAt.holds_last {targets : List Revision} {done : List StyleFile} {last : StyleFile}
    {later : List Path} {text : String}
    (h : w.Journaled w' (Stop.writes (.styling targets done last later)))
    (had : last.versions.getLast? = some text) :
    w'.tree.find? (last.companion.place w'.here) = some (.file (.text text) false) := by
  obtain ⟨earlier, versions⟩ := List.getLast?_eq_some_iff.mp had
  have writes : Stop.writes (.styling targets done last later)
      = (targets.flatMap Revision.writes ++ (done.flatMap StyleFile.writes
        ++ earlier.map (last.companion, ·))) ++ [(last.companion, text)] := by
    rw [Stop.writes, StyleFile.writes, versions, List.map_append, List.map_singleton]
    simp only [List.append_assoc]
  rw [h.tree, h.here, writes, asFiles_append]
  exact overlay_of_last fun x none => absurd none List.not_mem_nil

theorem StopsAt.companions_apart {targets : List Revision} {done : List StyleFile}
    {last : StyleFile} {later : List Path} {e : MigrationError}
    (h : m.StopsAt w (.styling targets done last later) e w') :
    (done.map (·.companion) ++ last.companion :: later).Pairwise fun p q => p.same q = false := by
  cases h with
  | @styling styles files _ components before later companion appended rest next _ versions w₁ w₂
      w₃ w₄ _ _ prepared order revised grouped styled grown failed =>
      have apart := (Component.Collection.grouped_byCompanion components).apart
      rwa [grouped, List.map_append, List.map_cons, ← styled.companions] at apart

/-- A migration that fails has written in order what comes before its failure, and nothing else: the
targets that were rewritten where they changed, then the style files with all their versions, the
last one perhaps with only its first ones, and never the stylesheet. Any migration that goes on
where its tools fail begins with the same writes; if it succeeds, it has written all targets that
changed, all style files with all their versions, and the stylesheet. Where the targets are
different, each one before the one that fails holds its formatted rewrite and all other files are as
before. A style file at which it fails holds the version for the components before the one that
fails. -/
theorem failed_run_writes {e : MigrationError} (real : m.dryRun = false)
    (compiler : m.compiler.Quiet) (formatter : m.formatter.Quiet)
    (failed : m.run w = (.error e, w')) :
    (∀ m' : Migration σ, m'.Outlasts m → w'.writes <+: (m'.run w).2.writes ∧
      ∀ report w'', m'.run w = (.ok report, w'') →
        ∃ styles files w₁ rs components styleFiles, m'.prepare w = (.ok (styles, files), w₁) ∧
          m'.Completes styles files w₁ rs components styleFiles w'' ∧
          w''.writes = w.writes ++ (rs.flatMap Revision.writes ++
            (styleFiles.flatMap StyleFile.writes ++ [(styles.sheet, styles.baseCss)]))) ∧
    ∃ stop, m.StopsAt w stop e w' ∧ w'.writes = w.writes ++ stop.writes ∧
      (∀ l, w'.tree.find? l = overlay w.here w.tree.find? (asFiles stop.writes) l) ∧
      match stop with
      | .rewriting done =>
          w.tree.ProperNames → (done.Pairwise fun r s => r.file.same s.file = false) →
            (∀ r ∈ done, w.tree.readText w.here r.file = .ok r.source ∧
              w'.tree.readText w'.here r.file = .ok r.text) ∧
            ∀ l, (∀ r ∈ done, l ≠ r.file.place w.here) → w'.tree.find? l = w.tree.find? l
      | .styling _ done last later =>
          (∀ text, last.versions.getLast? = some text →
            w'.tree.find? (last.companion.place w'.here) = some (.file (.text text) false)) ∧
          (done.map (·.companion) ++ last.companion :: later).Pairwise fun p q => p.same q = false
      | _ => True := by
  refine ⟨?_, ?_⟩
  · intro m' outlasts
    refine ⟨(outlasts.run compiler formatter).error failed, ?_⟩
    intro report w'' succeeded
    obtain ⟨styles, files, w₁, rs, components, styleFiles, prepared, completed, journaled⟩ :=
      run_journaled (outlasts.dryRun.trans real) outlasts.compiler outlasts.formatter succeeded
    exact ⟨styles, files, w₁, rs, components, styleFiles, prepared, completed, journaled.writes⟩
  obtain ⟨stop, stopped⟩ := stopsAt_of_run real failed
  have journaled := stopped.journaled real compiler formatter
  refine ⟨stop, stopped, journaled.writes, journaled.tree, ?_⟩
  cases stop with
  | preparing => trivial
  | rewriting done =>
      intro proper apart
      have apart := stopped.places_apart compiler proper apart
      refine ⟨?_, ?_⟩
      · cases stopped with
        | rewriting prepared order revised failed =>
            have start := (prepare_quiet compiler).apply prepared
            have stays := rewriteFile_error formatter failed
            rw [← start.here] at apart
            rw [← start.tree, ← start.here, stays.tree, stays.here]
            exact revised.readText real formatter apart
      · intro l others
        rw [journaled.tree]
        apply overlay_of_ne
        intro x written
        obtain ⟨y, member, rfl⟩ := List.mem_map.mp written
        obtain ⟨r, among, writes⟩ := List.mem_flatMap.mp member
        rw [r.eq_file_of_mem_writes writes]
        exact others r among
  | styling targets done last later =>
      exact ⟨fun text had => StopsAt.holds_last journaled had, stopped.companions_apart⟩
  | replacing targets done => trivial

/-- A project with a file that is no text behind one that is formatted. -/
def halfTree : FileTree where
  entries := [(["p"], .directory), (["p", "s.css"], .file (.text "") false),
    (["p", "src"], .directory), (["p", "src", "A.jsx"], .file (.text "a") false),
    (["p", "src", "B.jsx"], .file (.binary [255]) false)]
  nodup := by decide

def halfWorkspace : Workspace Unit := { tree := halfTree, here := [], memory := () }

def half : Migration Unit where
  root := ⟨"/p"⟩
  config :=
    { sourceDirs := ["src"], targetNames := ["A", "B"], extensions := ["jsx"]
      globalStylesheet := "s.css" }
  compiler := ⟨"none", fun _ _ => pure ""⟩
  formatter := ⟨"semicolon", fun source _ _ => pure (source ++ ";")⟩
  dryRun := false

def halfWritten : Workspace Unit :=
  { halfWorkspace with
    tree := halfTree.set ["p", "src", "A.jsx"] (.file (.text "a;") false)
    writes := [(⟨"/p/src/A.jsx"⟩, "a;")] }

theorem half_targets : half.targets halfWorkspace
    = (.ok [⟨"/p/src/A.jsx"⟩, ⟨"/p/src/B.jsx"⟩], halfWorkspace) := by
  have sources : half.Sources [⟨"/p/src"⟩] := rfl
  have located : halfTree.locate [] ⟨"/p/src"⟩ = .ok ["p", "src"] := rfl
  have listed : Project.listFiles halfTree [] ⟨"/p/src"⟩
      = [⟨"/p/src/A.jsx"⟩, ⟨"/p/src/B.jsx"⟩] := by
    rw [Project.listFiles_of_located located rfl, Project.visit_of_files (by decide) (by decide)]
    rfl
  have below : half.targetsBelow halfTree [] ⟨"/p/src"⟩
      = [⟨"/p/src/A.jsx"⟩, ⟨"/p/src/B.jsx"⟩] := by
    unfold targetsBelow
    rw [listed]
    rfl
  rw [targets_of_sources sources, List.flatMap_singleton]
  exact congrArg (fun files => (Except.ok files, halfWorkspace)) below

theorem half_rewriteFile (table : Sheet.StyleTable) :
    half.rewriteFile table [] ⟨"/p/src/A.jsx"⟩ halfWorkspace
      = (.ok ([], ⟨⟨"src/A.jsx"⟩, [], 0, [], true⟩), halfWritten) := by
  have language : Language.ofExtension ((⟨"/p/src/A.jsx"⟩ : Path).extension?.getD "")
      = .ok .jsx := rfl
  have read : halfWorkspace.tree.readText halfWorkspace.here ⟨"/p/src/A.jsx"⟩ = .ok "a" := rfl
  have scanned : (Markup.scanSource half.config.classAttribute ⟨"/p/src/A.jsx"⟩ "a"
      .jsx).toOption = some [] := by decide
  have drafted : half.draft table [] ⟨"/p/src/A.jsx"⟩ "a"
      = .ok (⟨[], 0, []⟩, [], ⟨"a", 0, []⟩) := by
    unfold draft
    rw [language]
    dsimp only [Except.mapError, ok_bind]
    rw [ok_of_toOption scanned]
    rfl
  have formatted : half.format ⟨"/p/src/A.jsx"⟩ "a" halfWorkspace = (.ok "a;", halfWorkspace) := rfl
  have settled : half.settle ⟨"/p/src/A.jsx"⟩ "a" "a;" halfWorkspace = (.ok true, halfWritten) :=
    settle_of_changed (by decide) rfl
  exact rewriteFile_of_steps language read drafted formatted settled

theorem half_run : half.run halfWorkspace
    = (.error (.files ⟨"/p/src/B.jsx"⟩ .notText), halfWritten) := by
  have extracted : half.extractStyles halfWorkspace
      = (.ok ⟨Sheet.StyleTable.ofCss "", "", ⟨"/p/s.css"⟩⟩, halfWorkspace) := rfl
  have prepared : half.prepare halfWorkspace = (.ok (⟨Sheet.StyleTable.ofCss "", "", ⟨"/p/s.css"⟩⟩,
      [⟨"/p/src/A.jsx"⟩, ⟨"/p/src/B.jsx"⟩]), halfWorkspace) :=
    (Task.bind_of_ok extracted _).trans ((Task.bind_of_ok half_targets _).trans rfl)
  have stopped : ∀ table, half.rewriteFile table [] ⟨"/p/src/B.jsx"⟩ halfWritten
      = (.error (.files ⟨"/p/src/B.jsx"⟩ .notText), halfWritten) := by
    intro table
    have language : Language.ofExtension ((⟨"/p/src/B.jsx"⟩ : Path).extension?.getD "")
        = .ok .jsx := rfl
    have read : halfWritten.tree.readText halfWritten.here ⟨"/p/src/B.jsx"⟩
        = .error .notText := rfl
    rw [rewriteFile_eq, language, read]
  rw [run_eq]
  refine (Task.bind_of_ok prepared _).trans (Task.bind_of_error ?_ _)
  exact (Task.bind_of_ok (half_rewriteFile _) _).trans
    (Task.bind_of_error (Task.bind_of_error (stopped _) _) _)

theorem failed_run_writes_half :
    half.compiler.Quiet ∧ half.formatter.Quiet ∧
    half.run halfWorkspace = (.error (.files ⟨"/p/src/B.jsx"⟩ .notText), halfWritten) ∧
    ∃ stop, half.StopsAt halfWorkspace stop (.files ⟨"/p/src/B.jsx"⟩ .notText) halfWritten ∧
      stop.writes = [(⟨"/p/src/A.jsx"⟩, "a;")] := by
  have compiler : half.compiler.Quiet := fun _ _ => .pure ""
  have formatter : half.formatter.Quiet := fun source _ _ => .pure (source ++ ";")
  obtain ⟨-, stop, stopped, writes, -⟩ := failed_run_writes rfl compiler formatter half_run
  exact ⟨compiler, formatter, half_run, stop, stopped, writes.symm⟩

end Restyle.Migration
