import Restyle.Proofs.Migration.Early
/-!
What a migration leaves alone. A task writes to files that it names, and the directories it makes
are new, so what is at any other place stays there. A migration names its targets, the stylesheet
and the companions of the components it makes, and it names a companion without looking whether a
file is there.
-/

namespace Restyle

namespace FileTree

variable {t t' : FileTree} {here l : Location} {n : FileNode}

theorem makeDirectories_find? {cs : List Component} (there : t.find? l = some n)
    (h : t.makeDirectories here cs = .ok t') : t'.find? l = some n := by
  induction cs generalizing t here with
  | nil =>
      cases h
      exact there
  | cons c cs ih =>
      cases c with
      | root | current | parent => exact ih there h
      | name s =>
          rw [makeDirectories] at h
          split at h
          · exact ih there h
          · cases h
          · -- Only this directory is new, and `l` is no new place.
            rename_i new
            refine ih ?_ h
            have below : here ++ [s] ≠ [] := List.append_ne_nil_of_right_ne_nil here (by simp)
            rw [find?_set below, if_neg]
            · exact there
            · rintro rfl
              rw [new] at there
              cases there

theorem write_find? {p : Path} {s : String} (there : t.find? l = some n)
    (elsewhere : l ≠ p.place here) (h : t.write here p s = .ok t') : t'.find? l = some n := by
  cases parent : p.parent? with
  | none =>
      unfold write at h
      rw [parent] at h
      cases h
  | some q =>
  rw [write_eq_put parent, bind_eq_ok_iff] at h
  obtain ⟨made, making, puts⟩ := h
  have still : made.find? l = some n := by
    split at making
    · cases making
      exact there
    · exact makeDirectories_find? there making
  obtain ⟨-, no_directory, rfl⟩ := put_eq_ok puts
  have below : p.place here ≠ [] := by
    intro top
    rw [top] at no_directory
    exact no_directory rfl
  rw [find?_set below, if_neg elsewhere]
  exact still

end FileTree

/-- What is at a place stays, and so does the working directory. -/
structure Workspace.StaysAt {σ : Type} (here l : Location) (n : FileNode) (w w' : Workspace σ) :
    Prop where
  stays : w.here = here → w.tree.find? l = some n → w'.here = here ∧ w'.tree.find? l = some n

namespace Workspace.StaysAt

variable {σ : Type} {here l : Location} {n : FileNode}

theorem refl (w : Workspace σ) : StaysAt here l n w w := ⟨fun at_ there => ⟨at_, there⟩⟩

theorem trans (w w' w'' : Workspace σ) (h : StaysAt here l n w w')
    (h' : StaysAt here l n w' w'') : StaysAt here l n w w'' :=
  ⟨fun at_ there => h'.stays (h.stays at_ there).1 (h.stays at_ there).2⟩

end Workspace.StaysAt

theorem Task.writeText_stays {σ : Type} {here l : Location} {n : FileNode} {p : Path}
    (elsewhere : l ≠ p.place here) (s : String) :
    (Task.writeText p s : Task σ FileError Unit).Keeps (Workspace.StaysAt here l n) := by
  intro w
  constructor
  rintro rfl there
  unfold Task.writeText
  cases written : w.tree.write w.here p s with
  | error e => exact ⟨rfl, there⟩
  | ok t => exact ⟨rfl, FileTree.write_find? there elsewhere written⟩

namespace Migration

open Component (Collection Styled FileSynthesis)
open Sheet (StyleTable)
open Workspace (StaysAt)

variable {σ : Type} {m : Migration σ} {w w' : Workspace σ}

structure ToolsSpare (m : Migration σ) (l : Location) : Prop where
  compiler : ∀ source, (m.compiler.compile source m.root).Keeps
    fun w w' => w'.here = w.here ∧ w.SameAt l w'
  formatter : ∀ source file, (m.formatter.format source file m.root).Keeps
    fun w w' => w'.here = w.here ∧ w.SameAt l w'

theorem stays_of_spared {ε α : Type} {t : Task σ ε α} {here l : Location} {n : FileNode}
    (spared : t.Keeps fun w w' => w'.here = w.here ∧ w.SameAt l w') :
    t.Keeps (StaysAt here l n) := by
  intro w
  obtain ⟨same, kept⟩ := spared w
  exact ⟨fun at_ there => ⟨same.trans at_, Eq.trans kept there⟩⟩

section Stages

variable {here l : Location} {n : FileNode}

theorem stays_composes (σ : Type) (here l : Location) (n : FileNode) :
    Task.Composes fun α (t : Task σ MigrationError α) => t.Keeps (StaysAt here l n) :=
  Task.Keeps.composes MigrationError StaysAt.refl StaysAt.trans

theorem format_stays (spared : m.ToolsSpare l) (p : Path) (s : String) :
    (m.format p s).Keeps (StaysAt here l n) :=
  (stays_of_spared (spared.formatter s p)).mapError _

theorem persist_stays (m : Migration σ) {p : Path} (elsewhere : l ≠ p.place here) (s : String) :
    (m.persist p s).Keeps (StaysAt here l n) := by
  have c := stays_composes σ here l n
  unfold persist
  split
  · exact c.pure false
  · exact c.bind ((Task.writeText_stays elsewhere s).mapError _) fun _ => c.pure true

theorem rewriteFile_stays (spared : m.ToolsSpare l) (table : StyleTable) (components : Collection)
    {file : Path} (elsewhere : l ≠ file.place here) :
    (m.rewriteFile table components file).Keeps (StaysAt here l n) := by
  have c := stays_composes σ here l n
  rw [rewriteFile_eq_bind]
  refine c.bind (.look StaysAt.refl _) fun _ => c.bind (.mapError (.look StaysAt.refl _) _)
    fun source => c.bind (.look StaysAt.refl _) fun drafted =>
      c.bind (format_stays spared file _) fun text => c.bind ?_ fun written => c.pure _
  unfold settle
  split
  · exact persist_stays m elsewhere text
  · exact c.pure false

theorem rewriteAll_stays (spared : m.ToolsSpare l) (table : StyleTable) (components : Collection)
    {files : List Path} (elsewhere : ∀ file ∈ files, l ≠ file.place here) :
    (m.rewriteAll table components files).Keeps (StaysAt here l n) := by
  have c := stays_composes σ here l n
  induction files generalizing components with
  | nil => exact c.pure _
  | cons file files ih =>
      obtain ⟨first, later⟩ := List.forall_mem_cons.mp elsewhere
      exact c.bind (rewriteFile_stays spared table components first) fun made =>
        c.bind (ih made.1 later) fun rest => c.pure _

theorem appendAll_stays (spared : m.ToolsSpare l) {companion : Path}
    (elsewhere : l ≠ companion.place here) (text : String) (cs : List Styled) :
    (m.appendAll companion text cs).Keeps (StaysAt here l n) := by
  have c := stays_composes σ here l n
  induction cs generalizing text with
  | nil => exact c.pure ()
  | cons made cs ih =>
      exact c.bind (format_stays spared companion _) fun text =>
        c.bind (persist_stays m elsewhere text) fun _ => ih text

theorem writeStyleFiles_stays (spared : m.ToolsSpare l) {components : Collection}
    (elsewhere : ∀ made ∈ components, l ≠ made.companion.place here) :
    (m.writeStyleFiles components).Keeps (StaysAt here l n) := by
  have c := stays_composes σ here l n
  have apart : ∀ g ∈ components.byCompanion, l ≠ g.1.place here := by
    intro g member
    obtain ⟨made, created, named⟩ :=
      (Collection.grouped_byCompanion components).named g.1 (List.mem_map_of_mem member)
    rw [named]
    exact elsewhere made created
  unfold writeStyleFiles
  generalize components.byCompanion = groups at apart
  induction groups with
  | nil =>
      rw [List.mapM_nil]
      exact c.pure []
  | cons g groups ih =>
      obtain ⟨first, later⟩ := List.forall_mem_cons.mp apart
      rw [List.mapM_cons]
      exact c.bind (c.bind (appendAll_stays spared first _ g.2) fun _ => c.pure _) fun b =>
        c.bind (ih later) fun bs => c.pure (b :: bs)

theorem replaceSheet_stays (m : Migration σ) {styles : Styles}
    (elsewhere : l ≠ styles.sheet.place here) :
    (m.replaceSheet styles).Keeps (StaysAt here l n) := by
  have c := stays_composes σ here l n
  exact c.bind (persist_stays m elsewhere _) fun _ => c.pure _

theorem prepare_stays (spared : m.ToolsSpare l) : m.prepare.Keeps (StaysAt here l n) :=
  prepare_keeps StaysAt.refl StaysAt.trans fun source => stays_of_spared (spared.compiler source)

end Stages

theorem rewriteFile_companion {table : StyleTable} {components components' : Collection}
    {file : Path} {report : FileReport}
    (h : m.rewriteFile table components file w = (.ok (components', report), w')) :
    ∀ c ∈ components', c ∈ components ∨ c.companion = Component.companionPath file := by
  obtain ⟨l, source, drafted, text, w₁, written, -, -, drafting, -, -, rfl, -⟩ :=
    rewriteFile_steps h
  exact (draft_ok drafting).2

theorem rewriteAll_companion {table : StyleTable} {components : Collection} {files : List Path}
    {rewriting : Rewriting} (h : m.rewriteAll table components files w = (.ok rewriting, w')) :
    ∀ c ∈ rewriting.components, c ∈ components ∨
      ∃ file ∈ files, c.companion = Component.companionPath file := by
  induction files generalizing components w rewriting with
  | nil =>
      cases h
      exact fun c member => .inl member
  | cons file files ih =>
      obtain ⟨⟨components₁, report⟩, w₁, here, h⟩ := Task.bind_eq_ok_iff.mp h
      obtain ⟨rest, w₂, later, h⟩ := Task.bind_eq_ok_iff.mp h
      cases h
      intro c member
      rcases ih later c member with before | ⟨target, among, own⟩
      · rcases rewriteFile_companion here c before with old | own
        · exact .inl old
        · exact .inr ⟨file, List.mem_cons_self, own⟩
      · exact .inr ⟨target, List.mem_cons_of_mem file among, own⟩

/-- The places that a migration names: that of the stylesheet, those of its targets, and for each
target for which it makes a component the one of its companion. -/
def Names (m : Migration σ) (w : Workspace σ) (l : Location) : Prop :=
  ∃ styles files w₁, m.prepare w = (.ok (styles, files), w₁) ∧
    (l = styles.sheet.place w.here ∨ (∃ file ∈ files, l = file.place w.here) ∨
      ∃ rewriting w₂, m.rewriteFiles styles files w₁ = (.ok rewriting, w₂) ∧
        ∃ c ∈ rewriting.components, ∃ file ∈ files,
          c.companion = Component.companionPath file ∧ l = c.companion.place w.here)

/-- What is there before a migration is there behind it, whether it fails or not, except where the
migration names the place, provided that its tools leave the place alone. -/
theorem run_untouched {l : Location} {n : FileNode} {r : Except MigrationError Report}
    (spared : m.ToolsSpare l) (there : w.tree.find? l = some n)
    (unnamed : ¬ m.Names w l) (done : m.run w = (r, w')) : w'.tree.find? l = some n := by
  suffices kept : (m.run w).2.tree.find? l = some n by rwa [done] at kept
  rw [run_eq_carryOut]
  rcases prepared : m.prepare w with ⟨e | ⟨styles, files⟩, w₁⟩
  · rw [Task.bind_of_error prepared]
    exact (((prepare_stays spared).apply prepared).stays rfl there).2
  rw [Task.bind_of_ok prepared]
  have first := ((prepare_stays spared).apply prepared).stays rfl there
  have sheet : l ≠ styles.sheet.place w.here := fun here =>
    unnamed ⟨styles, files, w₁, prepared, .inl here⟩
  have targets : ∀ file ∈ files, l ≠ file.place w.here := fun file member here =>
    unnamed ⟨styles, files, w₁, prepared, .inr (.inl ⟨file, member, here⟩)⟩
  have rewrites := rewriteAll_stays (n := n) spared styles.table [] targets
  unfold carryOut
  rcases rewritten : m.rewriteFiles styles files w₁ with ⟨e | rewriting, w₂⟩
  · rw [Task.bind_of_error rewritten]
    exact ((rewrites.apply rewritten).stays first.1 first.2).2
  rw [Task.bind_of_ok rewritten]
  have second := (rewrites.apply rewritten).stays first.1 first.2
  have companions : ∀ c ∈ rewriting.components, l ≠ c.companion.place w.here := by
    intro c member here
    obtain ⟨file, among, own⟩ := (rewriteAll_companion rewritten c member).resolve_left
      List.not_mem_nil
    exact unnamed ⟨styles, files, w₁, prepared, .inr (.inr ⟨rewriting, w₂, rewritten, c, member,
      file, among, own, here⟩)⟩
  have c := stays_composes σ w.here l n
  have rest : (m.writeStyleFiles rewriting.components >>= fun styleFiles =>
      m.replaceSheet styles >>= fun sheet =>
        (pure (m.report styles rewriting styleFiles sheet) : Task σ MigrationError Report)).Keeps
      (StaysAt w.here l n) :=
    c.bind (writeStyleFiles_stays spared companions) fun _ =>
      c.bind (replaceSheet_stays m sheet) fun _ => c.pure _
  exact ((rest w₂).stays second.1 second.2).2

def olderStyles : String :=
  "import styled from 'styled-components'\n\nexport const AStyle = styled.b`\n`\n"

def olderTree : FileTree where
  entries := [(["p"], .directory), (["p", "s.css"], .file (.text "") false),
    (["p", "notes"], .file (.text "n") false), (["p", "src"], .directory),
    (["p", "src", "A.jsx"], .file (.text smallSource) false),
    (["p", "src", "A.style.jsx"], .file (.text olderStyles) false)]
  nodup := by decide

def olderStart : Workspace Unit := { tree := olderTree, here := [], memory := () }

def olderRevised : Workspace Unit :=
  { olderStart with
    tree := olderTree.set ["p", "src", "A.jsx"] (.file (.text smallRewritten) false)
    writes := [(⟨"/p/src/A.jsx"⟩, smallRewritten)] }

def olderStyled : Workspace Unit :=
  { olderRevised with
    tree := olderRevised.tree.set ["p", "src", "A.style.jsx"] (.file (.text smallStyles) false)
    writes := olderRevised.writes ++ [(⟨"/p/src/A.style.jsx"⟩, smallStyles)] }

def olderEnd : Workspace Unit :=
  { olderStyled with
    tree := olderStyled.tree.set ["p", "s.css"] (.file (.text "") false)
    writes := olderStyled.writes ++ [(⟨"/p/s.css"⟩, "")] }

theorem older_targets : small.targets olderStart = (.ok [⟨"/p/src/A.jsx"⟩], olderStart) := by
  have sources : small.Sources [⟨"/p/src"⟩] := rfl
  have located : olderTree.locate [] ⟨"/p/src"⟩ = .ok ["p", "src"] := rfl
  have listed : Project.listFiles olderTree [] ⟨"/p/src"⟩
      = [⟨"/p/src/A.jsx"⟩, ⟨"/p/src/A.style.jsx"⟩] := by
    rw [Project.listFiles_of_located located rfl, Project.visit_of_files (by decide) (by decide)]
    rfl
  have below : small.targetsBelow olderTree [] ⟨"/p/src"⟩ = [⟨"/p/src/A.jsx"⟩] := by
    unfold targetsBelow
    rw [listed]
    rfl
  rw [targets_of_sources sources, List.flatMap_singleton]
  exact congrArg (fun files => (Except.ok files, olderStart)) below

theorem older_prepare : small.prepare olderStart
    = (.ok (⟨StyleTable.ofCss "", "", ⟨"/p/s.css"⟩⟩, [⟨"/p/src/A.jsx"⟩]), olderStart) := by
  have extracted : small.extractStyles olderStart
      = (.ok ⟨StyleTable.ofCss "", "", ⟨"/p/s.css"⟩⟩, olderStart) := rfl
  exact (Task.bind_of_ok extracted _).trans ((Task.bind_of_ok older_targets _).trans rfl)

theorem older_run : ∃ report, small.run olderStart = (.ok report, olderEnd) := by
  have revised : small.persist ⟨"/p/src/A.jsx"⟩ smallRewritten olderStart
      = (.ok true, olderRevised) := rfl
  have styled : small.persist ⟨"/p/src/A.style.jsx"⟩ smallStyles olderRevised
      = (.ok true, olderStyled) := rfl
  have replaced : small.persist ⟨"/p/s.css"⟩ "" olderStyled = (.ok true, olderEnd) := rfl
  exact small_run_of older_prepare rfl revised styled replaced

theorem small_toolsSpare (l : Location) : small.ToolsSpare l where
  compiler := fun _ _ => ⟨rfl, rfl⟩
  formatter := fun _ _ _ => ⟨rfl, rfl⟩

/-- The notes of the project are no place that the migration names. -/
theorem older_unnamed : ¬ small.Names olderStart ["p", "notes"] := by
  rintro ⟨styles, files, w₁, prepared, named⟩
  rw [older_prepare] at prepared
  cases prepared
  rcases named with sheet | ⟨file, target, here⟩ | ⟨rewriting, w₂, -, c, -, file, target, own, here⟩
  · exact absurd sheet (by decide)
  · rw [List.mem_singleton.mp target] at here
    exact absurd here (by decide)
  · rw [own, List.mem_singleton.mp target] at here
    exact absurd here (by decide)

theorem run_untouched_notes :
    small.ToolsSpare ["p", "notes"] ∧
    olderStart.tree.find? ["p", "notes"] = some (.file (.text "n") false) ∧
    ¬ small.Names olderStart ["p", "notes"] ∧
    (∃ report, small.run olderStart = (.ok report, olderEnd)) ∧
    olderEnd.tree.find? ["p", "notes"] = some (.file (.text "n") false) := by
  have there : olderStart.tree.find? ["p", "notes"] = some (.file (.text "n") false) := rfl
  obtain ⟨report, done⟩ := older_run
  exact ⟨small_toolsSpare _, there, older_unnamed, ⟨report, done⟩,
    run_untouched (small_toolsSpare _) there older_unnamed done⟩

/-- A file that is neither a target nor the stylesheet may change: a style file that was there gives
way to the one of the migration. -/
theorem styles_not_kept : ¬ ∀ (m : Migration Unit) (w w' : Workspace Unit) (report : Report),
    m.dryRun = false → m.run w = (.ok report, w') →
    ∀ l content executable, w.tree.find? l = some (.file content executable) →
      (∀ styles files w₁, m.prepare w = (.ok (styles, files), w₁) →
        l ≠ styles.sheet.place w.here ∧ ∀ file ∈ files, l ≠ file.place w.here) →
      w'.tree.find? l = some (.file content executable) := by
  intro kept
  obtain ⟨report, done⟩ := older_run
  have there : olderStart.tree.find? ["p", "src", "A.style.jsx"]
      = some (.file (.text olderStyles) false) := rfl
  have other : ∀ styles files w₁, small.prepare olderStart = (.ok (styles, files), w₁) →
      ["p", "src", "A.style.jsx"] ≠ styles.sheet.place olderStart.here ∧
        ∀ file ∈ files, ["p", "src", "A.style.jsx"] ≠ file.place olderStart.here := by
    intro styles files w₁ prepared
    rw [older_prepare] at prepared
    cases prepared
    exact ⟨by decide +kernel, by decide +kernel⟩
  have still := kept small olderStart olderEnd report rfl done _ _ _ there other
  have now : olderEnd.tree.find? ["p", "src", "A.style.jsx"]
      = some (.file (.text smallStyles) false) := rfl
  rw [now] at still
  exact absurd still (by decide +kernel)

end Migration

end Restyle
