import Restyle.Proofs.Migration.Stages
/-!
The stages after the rewriting. Each style file is written once for each of its components, one
component longer every time, and the stylesheet is replaced last.
-/

namespace Restyle.Migration

open Component (Collection Styled)

variable {σ : Type} {m : Migration σ} {w w' : Workspace σ}

theorem persist_journaled {p : Path} {s : String} {written : Bool} (real : m.dryRun = false)
    (holds : w.tree.Holds w.here p) (h : m.persist p s w = (.ok written, w')) :
    w.Journaled w' [(p, s)] :=
  Task.writeText_ok holds (persist_ok real h).2

/-- Adds one component to the text of a style file, which is formatted and written. -/
def appendOne (m : Migration σ) (companion : Path) (text : String) (c : Styled) :
    Task σ MigrationError String := do
  let text ← m.format companion (text ++ "\n" ++ c.definition)
  let _ ← m.persist companion text
  return text

theorem appendAll_cons (m : Migration σ) (companion : Path) (text : String) (c : Styled)
    (cs : List Styled) :
    m.appendAll companion text (c :: cs)
      = m.appendOne companion text c >>= fun text => m.appendAll companion text cs := by
  simp only [appendAll, appendOne, bind_assoc, pure_bind]

theorem appendOne_ok {companion : Path} {text text' : String} {c : Styled}
    (h : m.appendOne companion text c w = (.ok text', w')) :
    ∃ w₁ written, m.format companion (text ++ "\n" ++ c.definition) w = (.ok text', w₁) ∧
      m.persist companion text' w₁ = (.ok written, w') := by
  obtain ⟨formatted, w₁, format, h⟩ := Task.bind_eq_ok_iff.mp h
  obtain ⟨written, w₂, persist, h⟩ := Task.bind_eq_ok_iff.mp h
  cases h
  exact ⟨w₁, written, format, persist⟩

theorem appendOne_journaled {companion : Path} {text text' : String} {c : Styled}
    (real : m.dryRun = false) (quiet : m.formatter.Quiet)
    (holds : w.tree.Holds w.here companion)
    (h : m.appendOne companion text c w = (.ok text', w')) :
    w.Journaled w' [(companion, text')] := by
  obtain ⟨w₁, written, format, persist⟩ := appendOne_ok h
  have same := (format_quiet quiet _ _).apply format
  have holds₁ : w₁.tree.Holds w₁.here companion := by
    rw [same.tree, same.here]
    exact holds
  exact .same_trans same (persist_journaled real holds₁ persist)

theorem appendOne_error {companion : Path} {text : String} {c : Styled} {e : MigrationError}
    (quiet : m.formatter.Quiet) (h : m.appendOne companion text c w = (.error e, w')) :
    w.SameFiles w' := by
  rcases Task.bind_eq_error_iff.mp h with failed | ⟨formatted, w₁, format, h⟩
  · exact (format_quiet quiet _ _).apply failed
  · have same := (format_quiet quiet _ _).apply format
    rcases Task.bind_eq_error_iff.mp h with failed | ⟨written, w₂, -, h⟩
    · rw [persist_error failed]
      exact same
    · cases h

/-- The texts of a style file as its components are added one after another. -/
inductive Versions (m : Migration σ) (companion : Path) :
    String → List Styled → Workspace σ → List String → Workspace σ → Prop where
  | nil (text : String) (w : Workspace σ) : Versions m companion text [] w [] w
  | cons {text text' : String} {c : Styled} {cs : List Styled} {w w₁ w' : Workspace σ}
      {texts : List String} (first : m.appendOne companion text c w = (.ok text', w₁))
      (later : Versions m companion text' cs w₁ texts w') :
      Versions m companion text (c :: cs) w (text' :: texts) w'

theorem Versions.length {companion : Path} {text : String} {cs : List Styled}
    {texts : List String} (h : m.Versions companion text cs w texts w') :
    texts.length = cs.length := by
  induction h with
  | nil text w => rfl
  | cons first later ih => rw [List.length_cons, List.length_cons, ih]

theorem Versions.journaled {companion : Path} {text : String} {cs : List Styled}
    {texts : List String} (real : m.dryRun = false) (quiet : m.formatter.Quiet)
    (h : m.Versions companion text cs w texts w') (holds : w.tree.Holds w.here companion) :
    w.Journaled w' (texts.map (companion, ·)) := by
  induction h with
  | nil text w => exact .refl w
  | cons first later ih =>
      have here := appendOne_journaled real quiet holds first
      exact here.trans (ih (here.holds holds))

theorem appendAll_ok {companion : Path} {text : String} {cs : List Styled}
    (h : m.appendAll companion text cs w = (.ok (), w')) :
    ∃ texts, m.Versions companion text cs w texts w' := by
  induction cs generalizing text w with
  | nil =>
      cases h
      exact ⟨[], .nil text _⟩
  | cons c cs ih =>
      rw [appendAll_cons] at h
      obtain ⟨text', w₁, first, h⟩ := Task.bind_eq_ok_iff.mp h
      obtain ⟨texts, later⟩ := ih h
      exact ⟨text' :: texts, .cons first later⟩

theorem appendAll_error {companion : Path} {text : String} {cs : List Styled} {e : MigrationError}
    (h : m.appendAll companion text cs w = (.error e, w')) :
    ∃ appended next rest texts w₁, cs = appended ++ next :: rest ∧
      m.Versions companion text appended w texts w₁ ∧
      m.appendOne companion (texts.getLastD text) next w₁ = (.error e, w') := by
  induction cs generalizing text w with
  | nil => cases h
  | cons c cs ih =>
      rw [appendAll_cons] at h
      rcases Task.bind_eq_error_iff.mp h with failed | ⟨text', w₁, first, h⟩
      · exact ⟨[], c, cs, [], w, rfl, .nil text w, failed⟩
      · obtain ⟨appended, next, rest, texts, w₂, rfl, versions, failed⟩ := ih h
        refine ⟨c :: appended, next, rest, text' :: texts, w₂, rfl, .cons first versions, ?_⟩
        rw [List.getLastD_cons]
        exact failed

/-- A style file with the texts it has had, oldest first. -/
structure StyleFile where
  companion : Path
  versions : List String

def StyleFile.writes (f : StyleFile) : List (Path × String) := f.versions.map (f.companion, ·)

def header (m : Migration σ) : String := styleFileHeader m.config.clientDirective

/-- Style files are written one after another, each from its header on. -/
inductive StyleFiles (m : Migration σ) :
    List (Path × List Styled) → Workspace σ → List StyleFile → Workspace σ → Prop where
  | nil (w : Workspace σ) : StyleFiles m [] w [] w
  | cons {companion : Path} {owned : List Styled} {groups : List (Path × List Styled)}
      {w w₁ w' : Workspace σ} {versions : List String} {files : List StyleFile}
      (first : m.Versions companion m.header owned w versions w₁)
      (later : StyleFiles m groups w₁ files w') :
      StyleFiles m ((companion, owned) :: groups) w (⟨companion, versions⟩ :: files) w'

theorem StyleFile.eq_companion_of_mem_writes (f : StyleFile) {x : Path × String}
    (h : x ∈ f.writes) : x.1 = f.companion := by
  obtain ⟨text, -, rfl⟩ := List.mem_map.mp h
  rfl

theorem StyleFiles.companions {groups : List (Path × List Styled)} {files : List StyleFile}
    (h : m.StyleFiles groups w files w') : files.map (·.companion) = groups.map (·.1) := by
  induction h with
  | nil w => rfl
  | cons first later ih => rw [List.map_cons, List.map_cons, ih]

theorem StyleFiles.journaled {groups : List (Path × List Styled)} {files : List StyleFile}
    (real : m.dryRun = false) (quiet : m.formatter.Quiet) (h : m.StyleFiles groups w files w')
    (holds : ∀ g ∈ groups, w.tree.Holds w.here g.1) :
    w.Journaled w' (files.flatMap StyleFile.writes) := by
  induction h with
  | nil w => exact .refl w
  | @cons companion owned groups w w₁ w' versions files first later ih =>
      have here := first.journaled real quiet (holds (companion, owned) List.mem_cons_self)
      have still : ∀ g ∈ groups, w₁.tree.Holds w₁.here g.1 :=
        fun g member => here.holds (holds g (List.mem_cons_of_mem (companion, owned) member))
      rw [List.flatMap_cons]
      exact here.trans (ih still)

/-- After the rewriting the directories of all style files are there. -/
theorem Revisions.holds_groups {table : Sheet.StyleTable} {components : Collection}
    {rs : List Revision} (real : m.dryRun = false) (quiet : m.formatter.Quiet)
    (h : m.Revisions table [] w rs components w') :
    ∀ g ∈ components.byCompanion, w'.tree.Holds w'.here g.1 := by
  intro g member
  obtain ⟨c, created, name⟩ := (Component.Collection.grouped_byCompanion components).named g.1
    (List.mem_map_of_mem member)
  rw [name]
  exact h.holds_companion real quiet (fun _ none => absurd none List.not_mem_nil) c created

def styleReport (m : Migration σ) (g : Path × List Styled) : StyleFileReport :=
  ⟨m.shown g.1, g.2.map (·.name)⟩

theorem writeStyleFile_ok {companion : Path} {owned : List Styled} {report : StyleFileReport}
    (h : m.writeStyleFile companion owned w = (.ok report, w')) :
    report = m.styleReport (companion, owned) ∧
      ∃ texts, m.Versions companion m.header owned w texts w' := by
  obtain ⟨_, w₁, appended, h⟩ := Task.bind_eq_ok_iff.mp h
  cases h
  exact ⟨rfl, appendAll_ok appended⟩

theorem writeStyleFile_error {companion : Path} {owned : List Styled} {e : MigrationError}
    (h : m.writeStyleFile companion owned w = (.error e, w')) :
    ∃ appended next rest texts w₁, owned = appended ++ next :: rest ∧
      m.Versions companion m.header appended w texts w₁ ∧
      m.appendOne companion (texts.getLastD m.header) next w₁ = (.error e, w') := by
  rcases Task.bind_eq_error_iff.mp h with failed | ⟨_, w₁, -, h⟩
  · exact appendAll_error failed
  · cases h

theorem writeGroups_ok {groups : List (Path × List Styled)} {reports : List StyleFileReport}
    (h : groups.mapM (fun g => m.writeStyleFile g.1 g.2) w = (.ok reports, w')) :
    reports = groups.map m.styleReport ∧ ∃ files, m.StyleFiles groups w files w' := by
  induction groups generalizing w reports with
  | nil =>
      rw [List.mapM_nil] at h
      cases h
      exact ⟨rfl, [], .nil _⟩
  | cons g groups ih =>
      rw [List.mapM_cons] at h
      obtain ⟨report, w₁, first, h⟩ := Task.bind_eq_ok_iff.mp h
      obtain ⟨more, w₂, later, h⟩ := Task.bind_eq_ok_iff.mp h
      cases h
      obtain ⟨rfl, texts, versions⟩ := writeStyleFile_ok first
      obtain ⟨rfl, files, written⟩ := ih later
      exact ⟨rfl, ⟨g.1, texts⟩ :: files, .cons versions written⟩

theorem writeGroups_error {groups : List (Path × List Styled)} {e : MigrationError}
    (h : groups.mapM (fun g => m.writeStyleFile g.1 g.2) w = (.error e, w')) :
    ∃ done companion owned later files w₁, groups = done ++ (companion, owned) :: later ∧
      m.StyleFiles done w files w₁ ∧ m.writeStyleFile companion owned w₁ = (.error e, w') := by
  induction groups generalizing w with
  | nil =>
      rw [List.mapM_nil] at h
      cases h
  | cons g groups ih =>
      rw [List.mapM_cons] at h
      rcases Task.bind_eq_error_iff.mp h with failed | ⟨report, w₁, first, h⟩
      · exact ⟨[], g.1, g.2, groups, [], w, rfl, .nil w, failed⟩
      · rcases Task.bind_eq_error_iff.mp h with failed | ⟨more, w₂, -, h⟩
        · obtain ⟨-, texts, versions⟩ := writeStyleFile_ok first
          obtain ⟨done, companion, owned, later, files, w₂, rfl, written, failed⟩ := ih failed
          exact ⟨g :: done, companion, owned, later, ⟨g.1, texts⟩ :: files, w₂, rfl,
            .cons versions written, failed⟩
        · cases h

theorem replaceSheet_ok {styles : Styles} {sheet : Path}
    (h : m.replaceSheet styles w = (.ok sheet, w')) :
    ∃ written, m.persist styles.sheet styles.baseCss w = (.ok written, w') := by
  obtain ⟨written, w₁, persist, h⟩ := Task.bind_eq_ok_iff.mp h
  cases h
  exact ⟨written, persist⟩

theorem replaceSheet_error {styles : Styles} {e : MigrationError}
    (h : m.replaceSheet styles w = (.error e, w')) : w' = w := by
  rcases Task.bind_eq_error_iff.mp h with failed | ⟨written, w₁, -, h⟩
  · exact persist_error failed
  · cases h

theorem run_eq (m : Migration σ) :
    m.run = m.prepare >>= fun p => m.rewriteFiles p.1 p.2 >>= fun rewriting =>
      m.writeStyleFiles rewriting.components >>= fun styleFiles =>
        m.replaceSheet p.1 >>= fun sheet => pure (m.report p.1 rewriting styleFiles sheet) := by
  simp only [run, prepare, bind_assoc, pure_bind]

/-- What a migration that succeeds has done: it has rewritten files, written style files and replaced
the stylesheet. -/
structure Completes (m : Migration σ) (styles : Styles) (files : List Path) (w : Workspace σ)
    (rs : List Revision) (components : Collection) (styleFiles : List StyleFile)
    (w' : Workspace σ) : Prop where
  order : rs.map (·.file) = files
  stages : ∃ w₁ w₂ written, m.Revisions styles.table [] w rs components w₁ ∧
    m.StyleFiles components.byCompanion w₁ styleFiles w₂ ∧
    m.persist styles.sheet styles.baseCss w₂ = (.ok written, w')

theorem run_ok {report : Report} (real : m.dryRun = false) (h : m.run w = (.ok report, w')) :
    ∃ styles files w₁ rs components styleFiles, m.prepare w = (.ok (styles, files), w₁) ∧
      m.Completes styles files w₁ rs components styleFiles w' ∧
      report.files.map (fun f => (f.path, f.written))
        = rs.map fun r => (m.shown r.file, r.text != r.source) := by
  rw [run_eq] at h
  obtain ⟨⟨styles, files⟩, w₁, prepared, rewriting⟩ := Task.bind_eq_ok_iff.mp h
  obtain ⟨result, w₂, rewritten, styling⟩ := Task.bind_eq_ok_iff.mp rewriting
  obtain ⟨reports, w₃, styled, replacing⟩ := Task.bind_eq_ok_iff.mp styling
  obtain ⟨sheet, w₄, replaced, reporting⟩ := Task.bind_eq_ok_iff.mp replacing
  obtain ⟨rfl, rfl⟩ := Task.pure_eq_ok_iff.mp reporting
  obtain ⟨rs, revised, order, written⟩ := rewriteAll_ok real rewritten
  obtain ⟨-, styleFiles, versions⟩ := writeGroups_ok styled
  obtain ⟨flag, persisted⟩ := replaceSheet_ok replaced
  exact ⟨styles, files, w₁, rs, result.components, styleFiles, prepared,
    ⟨order, w₂, w₃, flag, revised, versions, persisted⟩, written⟩

theorem Completes.journaled {styles : Styles} {files : List Path} {rs : List Revision}
    {components : Collection} {styleFiles : List StyleFile} (real : m.dryRun = false)
    (quiet : m.formatter.Quiet) (holds : w.tree.Holds w.here styles.sheet)
    (h : m.Completes styles files w rs components styleFiles w') :
    w.Journaled w' (rs.flatMap Revision.writes ++
      (styleFiles.flatMap StyleFile.writes ++ [(styles.sheet, styles.baseCss)])) := by
  obtain ⟨w₁, w₂, written, revised, styled, persisted⟩ := h.stages
  have first := revised.journaled real quiet
  have second := styled.journaled real quiet (revised.holds_groups real quiet)
  have third := persist_journaled real (second.holds (first.holds holds)) persisted
  exact first.trans (second.trans third)

/-- A migration that succeeds has written the targets that changed, in order, then the versions of
the style files, and then the stylesheet. -/
theorem run_journaled {report : Report} (real : m.dryRun = false) (compiler : m.compiler.Quiet)
    (formatter : m.formatter.Quiet) (h : m.run w = (.ok report, w')) :
    ∃ styles files w₁ rs components styleFiles, m.prepare w = (.ok (styles, files), w₁) ∧
      m.Completes styles files w₁ rs components styleFiles w' ∧
      w.Journaled w' (rs.flatMap Revision.writes ++
        (styleFiles.flatMap StyleFile.writes ++ [(styles.sheet, styles.baseCss)])) := by
  obtain ⟨styles, files, w₁, rs, components, styleFiles, prepared, completed, -⟩ := run_ok real h
  have start := (prepare_quiet compiler).apply prepared
  have holds : w₁.tree.Holds w₁.here styles.sheet := by
    rw [start.tree, start.here]
    exact prepare_holds prepared
  exact ⟨styles, files, w₁, rs, components, styleFiles, prepared, completed,
    .same_trans start (completed.journaled real formatter holds)⟩

theorem Revises.rewriteFile {table : Sheet.StyleTable} {components components' : Collection}
    {r : Revision} (h : m.Revises table components w r components' w') :
    ∃ report, m.rewriteFile table components r.file w = (.ok (components', report), w') := by
  obtain ⟨drafted, w₁, written, made, rfl, formatted, settled⟩ := h.finished
  obtain ⟨l, elements, language, -⟩ := draft_eq_ok_iff.mp made
  exact ⟨_, rewriteFile_of_steps language h.read made formatted settled⟩

theorem Revisions.rewriteAll {table : Sheet.StyleTable} {components components' : Collection}
    {rs : List Revision} (h : m.Revisions table components w rs components' w') :
    ∃ reports, m.rewriteAll table components (rs.map (·.file)) w
      = (.ok ⟨components', reports⟩, w') := by
  induction h with
  | nil components w => exact ⟨[], rfl⟩
  | cons first later ih =>
      obtain ⟨report, here⟩ := first.rewriteFile
      obtain ⟨reports, rest⟩ := ih
      exact ⟨report :: reports, (Task.bind_of_ok here _).trans ((Task.bind_of_ok rest _).trans rfl)⟩

theorem Versions.appendAll {companion : Path} {text : String} {cs : List Styled}
    {texts : List String} (h : m.Versions companion text cs w texts w') :
    m.appendAll companion text cs w = (.ok (), w') := by
  induction h with
  | nil text w => rfl
  | cons first later ih =>
      rw [appendAll_cons]
      exact (Task.bind_of_ok first _).trans ih

theorem StyleFiles.writeGroups {groups : List (Path × List Styled)} {files : List StyleFile}
    (h : m.StyleFiles groups w files w') :
    groups.mapM (fun g => m.writeStyleFile g.1 g.2) w = (.ok (groups.map m.styleReport), w') := by
  induction h with
  | nil w => rw [List.mapM_nil, List.map_nil]; rfl
  | @cons companion owned groups w w₁ w' versions files first later ih =>
      have here : m.writeStyleFile companion owned w
          = (.ok (m.styleReport (companion, owned)), w₁) :=
        (Task.bind_of_ok first.appendAll _).trans rfl
      rw [List.mapM_cons]
      exact (Task.bind_of_ok here _).trans ((Task.bind_of_ok ih _).trans rfl)

/-- Stages that follow on one another make a run. -/
theorem Completes.run {styles : Styles} {files : List Path} {w₁ : Workspace σ} {rs : List Revision}
    {components : Collection} {styleFiles : List StyleFile}
    (prepared : m.prepare w = (.ok (styles, files), w₁))
    (h : m.Completes styles files w₁ rs components styleFiles w') :
    ∃ report, m.run w = (.ok report, w') := by
  obtain ⟨w₂, w₃, written, revised, styled, persisted⟩ := h.stages
  obtain ⟨reports, rewritten⟩ := revised.rewriteAll
  rw [h.order] at rewritten
  refine ⟨m.report styles ⟨components, reports⟩ (components.byCompanion.map m.styleReport)
    (m.shown styles.sheet), ?_⟩
  have replaced : m.replaceSheet styles w₃ = (.ok (m.shown styles.sheet), w') :=
    (Task.bind_of_ok persisted _).trans rfl
  rw [run_eq]
  refine (Task.bind_of_ok prepared _).trans ?_
  refine (Task.bind_of_ok rewritten _).trans ?_
  refine (Task.bind_of_ok styled.writeGroups _).trans ?_
  exact (Task.bind_of_ok replaced _).trans rfl

end Restyle.Migration
