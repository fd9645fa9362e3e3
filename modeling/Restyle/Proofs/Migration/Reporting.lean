import Restyle.Proofs.Migration.DryRun
import Restyle.Proofs.Migration.Repeats
import Restyle.Proofs.Rewrite.Exports
/-!
What a report says of the components. The reports of the files, those of the style files and the
tokens without styles come from different stages, and all tell of the one collection that the
rewriting has made.
-/

namespace Restyle.Migration

open Component (Collection Styled FileSynthesis unresolved)
open Component.Collection (Partition partition_byCompanion)
open Sheet (StyleTable)

variable {σ : Type} {m : Migration σ} {w w' : Workspace σ}

/-- Puts a token behind those recorded so far, unless it is among them. -/
def recordDropped (seen : List String) (token : String) : List String :=
  if seen.contains token then seen else seen ++ [token]

theorem foldl_recordDropped (tokens : List String) :
    tokens.foldl recordDropped [] = tokens.eraseDups := by
  induction tokens using List.reverseRecOn with
  | nil => rfl
  | append_singleton tokens token ih =>
      rw [List.foldl_append, List.foldl_cons, List.foldl_nil, ih, OrderedTable.eraseDups_concat,
        recordDropped]
      simp only [List.contains_iff_mem, List.mem_eraseDups]

/-- The reports of files that have been rewritten one after the other: each file has its report, and
the reports list the components `new` that were appended and the tokens these have no style for. -/
structure Accounts (m : Migration σ) (table : StyleTable) (components : Collection)
    (files : List Path) (reports : List FileReport) (components' : Collection)
    (new : List Styled) : Prop where
  appended : components' = components ++ new
  listed : reports.map (·.path) = files.map m.shown
  created : reports.flatMap (·.components) = new.map (·.name)
  dropped : reports.flatMap (·.droppedTokens) = new.flatMap fun c => unresolved table c.classNames

theorem Accounts.nil (table : StyleTable) (components : Collection) :
    m.Accounts table components [] [] components [] :=
  ⟨(List.append_nil components).symm, rfl, rfl, rfl⟩

theorem Accounts.append {table : StyleTable} {components components₁ components₂ : Collection}
    {files more : List Path} {reports reports' : List FileReport} {new later : List Styled}
    (h : m.Accounts table components files reports components₁ new)
    (h' : m.Accounts table components₁ more reports' components₂ later) :
    m.Accounts table components (files ++ more) (reports ++ reports') components₂
      (new ++ later) := by
  refine ⟨?_, ?_, ?_, ?_⟩
  · rw [h'.appended, h.appended, List.append_assoc]
  · rw [List.map_append, List.map_append, h.listed, h'.listed]
  · rw [List.flatMap_append, List.map_append, h.created, h'.created]
  · rw [List.flatMap_append, List.flatMap_append, h.dropped, h'.dropped]

theorem draft_extends {table : StyleTable} {components : Collection} {file : Path}
    {source : String} {drafted : FileSynthesis × Collection × Rewritten}
    (h : m.draft table components file source = .ok drafted) :
    ∃ new, drafted.2.1 = components ++ new ∧ drafted.1.created = new.map (·.name) ∧
      drafted.1.droppedTokens = new.flatMap fun c => unresolved table c.classNames := by
  obtain ⟨l, elements, -, -, made, -⟩ := draft_eq_ok_iff.mp h
  obtain ⟨new, extended⟩ := Component.synthesizeFile_extends
    ⟨table, m.config.componentSuffix⟩ file elements components
  rw [← made] at extended
  exact ⟨new, extended.appended, extended.created, extended.dropped⟩

theorem rewriteFile_accounts {table : StyleTable} {components components' : Collection}
    {file : Path} {report : FileReport}
    (h : m.rewriteFile table components file w = (.ok (components', report), w')) :
    ∃ new, m.Accounts table components [file] [report] components' new := by
  obtain ⟨l, source, drafted, text, w₁, written, -, -, made, -, -, rfl, rfl⟩ :=
    rewriteFile_steps h
  obtain ⟨new, appended, created, dropped⟩ := draft_extends made
  refine ⟨new, appended, rfl, ?_, ?_⟩
  · rw [List.flatMap_singleton, created]
  · rw [List.flatMap_singleton, dropped]

/-- However many files are rewritten, and however often one comes back, their reports list the
components in the order of their creation. -/
theorem rewriteAll_accounts {table : StyleTable} {components : Collection} {files : List Path}
    {rewriting : Rewriting}
    (h : m.rewriteAll table components files w = (.ok rewriting, w')) :
    ∃ new, m.Accounts table components files rewriting.files rewriting.components new := by
  induction files generalizing components w rewriting with
  | nil =>
      cases h
      exact ⟨[], .nil table components⟩
  | cons file files ih =>
      obtain ⟨⟨components₁, report⟩, w₁, first, h⟩ := Task.bind_eq_ok_iff.mp h
      obtain ⟨rest, w₂, later, h⟩ := Task.bind_eq_ok_iff.mp h
      cases h
      obtain ⟨new, here⟩ := rewriteFile_accounts first
      obtain ⟨more, there⟩ := ih later
      exact ⟨new ++ more, here.append there⟩

/-- A report that tells of a collection of components: its files list them in the order of their
creation, its style files list each of them once, under its companion, and the tokens without styles
are those of the files, recorded one after the other. -/
structure Describes (m : Migration σ) (report : Report) (components : Collection) : Prop where
  created : report.files.flatMap (·.components) = components.map (·.name)
  counted : report.componentCount = components.length
  grouped : Partition components components.byCompanion
  styled : report.styleFiles = components.byCompanion.map m.styleReport
  once : (report.styleFiles.flatMap (·.components)).Perm (components.map (·.name))
  dropped : report.droppedTokens
    = (report.files.flatMap (·.droppedTokens)).foldl recordDropped []

theorem describes_report {styles : Styles} {rewriting : Rewriting} (sheet : Path)
    (created : rewriting.files.flatMap (·.components) = rewriting.components.map (·.name)) :
    m.Describes (m.report styles rewriting (rewriting.components.byCompanion.map m.styleReport)
      sheet) rewriting.components := by
  have grouped := partition_byCompanion rewriting.components
  refine ⟨created, ?_, grouped, rfl, ?_, (foldl_recordDropped _).symm⟩
  · have count := congrArg List.length created
    rwa [List.length_map] at count
  · have names : (rewriting.components.byCompanion.map m.styleReport).flatMap (·.components)
        = (rewriting.components.byCompanion.flatMap (·.2)).map (·.name) := by
      rw [List.flatMap_map, List.map_flatMap]
      rfl
    change ((rewriting.components.byCompanion.map m.styleReport).flatMap (·.components)).Perm _
    rw [names]
    exact grouped.complete.map _

/-- The report of a run that succeeds, dry or not, tells of the components that its rewriting has
made. -/
theorem run_describes {report : Report} (h : m.run w = (.ok report, w')) :
    ∃ styles files rewriting w₁ w₂, m.prepare w = (.ok (styles, files), w₁) ∧
      m.rewriteFiles styles files w₁ = (.ok rewriting, w₂) ∧
      report.files.map (·.path) = files.map m.shown ∧
      report.files.flatMap (·.droppedTokens)
        = rewriting.components.flatMap (fun c => unresolved styles.table c.classNames) ∧
      m.Describes report rewriting.components := by
  rw [run_eq] at h
  obtain ⟨⟨styles, files⟩, w₁, prepared, rewriting⟩ := Task.bind_eq_ok_iff.mp h
  obtain ⟨result, w₂, rewritten, styling⟩ := Task.bind_eq_ok_iff.mp rewriting
  obtain ⟨reports, w₃, styled, replacing⟩ := Task.bind_eq_ok_iff.mp styling
  obtain ⟨sheet, w₄, -, reporting⟩ := Task.bind_eq_ok_iff.mp replacing
  obtain ⟨rfl, -⟩ := Task.pure_eq_ok_iff.mp reporting
  obtain ⟨rfl, -⟩ := writeGroups_ok styled
  obtain ⟨new, accounts⟩ := rewriteAll_accounts rewritten
  have all : result.components = new := accounts.appended
  rw [← all] at accounts
  exact ⟨styles, files, result, w₁, w₂, prepared, rewritten, accounts.listed, accounts.dropped,
    describes_report sheet accounts.created⟩

/-- A dry run over a target that is listed twice: the second time its element has its component. -/
def rehearsedReport : Report where
  projectRoot := ⟨"/p"⟩
  dryRun := true
  styleTableClasses := 0
  files := [⟨⟨"src/A.jsx"⟩, ["AStyle"], 0, ["p"], false⟩, ⟨⟨"src/A.jsx"⟩, [], 1, [], false⟩]
  styleFiles := [⟨⟨"src/A.style.jsx"⟩, ["AStyle"]⟩]
  globalStylesheet := some ⟨"s.css"⟩
  droppedTokens := ["p"]

theorem small_draft_again : small.draft (StyleTable.ofCss "") [smallComponent] ⟨"/p/src/A.jsx"⟩
    smallSource = .ok (⟨[], 1, []⟩, [smallComponent], ⟨smallRewritten, 1, ["AStyle"]⟩) := by
  obtain ⟨staged, scanned, -, result⟩ := small_stages
  have made : (⟨StyleTable.ofCss "", small.config.componentSuffix⟩ :
      Component.Synthesizer).synthesizeFile ⟨"/p/src/A.jsx"⟩ smallElements [smallComponent]
        = (⟨[], 1, []⟩, [smallComponent]) := by
    decide +kernel
  have rewritten : Rewrite.run small.config.classAttribute ⟨"/p/src/A.jsx"⟩ smallSource .jsx
      [smallComponent] = .ok ⟨smallRewritten, 1, ["AStyle"]⟩ := by
    rw [← result]
    exact Rewrite.run_of_staged staged
  rw [draft_eq_ok_iff]
  exact ⟨.jsx, smallElements, rfl, ok_of_toOption scanned, made.symm, rewritten⟩

theorem rehearsed_rewriteFile {components components' : Collection} {synthesis : FileSynthesis}
    (drafted : small.draft (StyleTable.ofCss "") components ⟨"/p/src/A.jsx"⟩ smallSource
      = .ok (synthesis, components', ⟨smallRewritten, 1, ["AStyle"]⟩)) :
    doubled.rehearsal.rewriteFile (StyleTable.ofCss "") components ⟨"/p/src/A.jsx"⟩ smallStart
      = (.ok (components', ⟨⟨"src/A.jsx"⟩, synthesis.created, synthesis.reused,
          synthesis.droppedTokens, false⟩), smallStart) := by
  have language : Language.ofExtension ((⟨"/p/src/A.jsx"⟩ : Path).extension?.getD "")
      = .ok .jsx := rfl
  have read : smallStart.tree.readText smallStart.here ⟨"/p/src/A.jsx"⟩ = .ok smallSource := rfl
  exact rewriteFile_of_steps (m := doubled.rehearsal) language read drafted rfl
    (settle_of_dry rfl _ _ _ _)

theorem rehearsed_run : doubled.rehearsal.run smallStart = (.ok rehearsedReport, smallStart) := by
  have extracted : doubled.rehearsal.extractStyles smallStart
      = (.ok ⟨StyleTable.ofCss "", "", ⟨"/p/s.css"⟩⟩, smallStart) := rfl
  have prepared : doubled.rehearsal.prepare smallStart
      = (.ok (⟨StyleTable.ofCss "", "", ⟨"/p/s.css"⟩⟩,
          [⟨"/p/src/A.jsx"⟩, ⟨"/p/src/A.jsx"⟩]), smallStart) :=
    (Task.bind_of_ok extracted _).trans ((Task.bind_of_ok doubled_targets _).trans rfl)
  have again : doubled.rehearsal.rewriteAll (StyleTable.ofCss "") [smallComponent]
      [⟨"/p/src/A.jsx"⟩] smallStart
        = (.ok ⟨[smallComponent], [⟨⟨"src/A.jsx"⟩, [], 1, [], false⟩]⟩, smallStart) :=
    (Task.bind_of_ok (rehearsed_rewriteFile small_draft_again) _).trans rfl
  have rewritten : doubled.rehearsal.rewriteAll (StyleTable.ofCss "") []
      [⟨"/p/src/A.jsx"⟩, ⟨"/p/src/A.jsx"⟩] smallStart
        = (.ok ⟨[smallComponent], rehearsedReport.files⟩, smallStart) :=
    (Task.bind_of_ok (rehearsed_rewriteFile small_draft) _).trans
      ((Task.bind_of_ok again _).trans rfl)
  have styled : doubled.rehearsal.writeStyleFiles [smallComponent] smallStart
      = (.ok [⟨⟨"src/A.style.jsx"⟩, ["AStyle"]⟩], smallStart) := rfl
  rw [run_eq]
  refine (Task.bind_of_ok prepared _).trans ?_
  refine (Task.bind_of_ok rewritten _).trans ?_
  exact (Task.bind_of_ok styled _).trans rfl

theorem run_describes_rehearsed :
    doubled.rehearsal.run smallStart = (.ok rehearsedReport, smallStart) ∧
    rehearsedReport.files.map (·.path) = [⟨"src/A.jsx"⟩, ⟨"src/A.jsx"⟩] ∧
    ∃ components : Collection, doubled.rehearsal.Describes rehearsedReport components ∧
      components.map (·.name) = ["AStyle"] ∧ rehearsedReport.componentCount = 1 := by
  obtain ⟨styles, files, rewriting, w₁, w₂, -, -, -, -, described⟩ := run_describes rehearsed_run
  exact ⟨rehearsed_run, rfl, rewriting.components, described, described.created.symm, rfl⟩

end Restyle.Migration
