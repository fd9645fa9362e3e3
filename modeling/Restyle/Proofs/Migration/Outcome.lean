import Restyle.Proofs.Component.Alone
import Restyle.Proofs.Migration.Styling
import Restyle.Proofs.Migration.Targets
/-!
Migrations that succeed with tools that are functions. The files in the end are those of the start
under what each target becomes by itself, then the style files, then the new stylesheet.
-/

namespace Restyle

open Component (Collection Styled FileSynthesis)
open Sheet (StyleTable)

def StyleCompiler.Computes {σ : Type} (c : StyleCompiler σ)
    (f : String → Path → Except ToolError String) : Prop :=
  ∀ source root w, c.compile source root w = (f source root, w)

def Formatter.Computes {σ : Type} (f : Formatter σ)
    (g : String → Path → Path → Except ToolError String) : Prop :=
  ∀ source file root w, f.format source file root w = (g source file root, w)

theorem Formatter.Computes.quiet {σ : Type} {f : Formatter σ}
    {g : String → Path → Path → Except ToolError String} (h : f.Computes g) : f.Quiet := by
  intro source file root w
  rw [h]
  exact .refl w

def FileNode.content? : FileNode → Option Content
  | .file content _ => some content
  | .directory => none

def FileTree.contentAt (t : FileTree) (l : Location) : Option Content :=
  (t.find? l).bind FileNode.content?

def asContents (ws : List (Path × String)) : List (Path × Content) :=
  ws.map fun w => (w.1, .text w.2)

theorem asContents_append (ws more : List (Path × String)) :
    asContents (ws ++ more) = asContents ws ++ asContents more := List.map_append

theorem FileTree.contentAt_of_readText {t : FileTree} {here : Location} {p : Path} {s : String}
    (h : t.readText here p = .ok s) : t.contentAt (p.place here) = some (.text s) := by
  obtain ⟨l, executable, located, found, -⟩ := FileTree.readText_eq_ok_iff.mp h
  rw [← FileTree.eq_place_of_locate located, FileTree.contentAt, found]
  rfl

namespace Workspace.Journaled

variable {σ : Type} {w w' : Workspace σ} {ws : List (Path × String)}

theorem contentAt (h : w.Journaled w' ws) (l : Location) :
    w'.tree.contentAt l = overlay w.here w.tree.contentAt (asContents ws) l := by
  unfold FileTree.contentAt
  rw [h.tree]
  exact overlay_map (f := fun n => n.bind FileNode.content?)
    (g := fun s => .file (.text s) false) (k := .text) (fun _ => rfl) ws l

theorem isDirectoryAt (h : w.Journaled w' ws) (l : Location) :
    w'.tree.isDirectoryAt l = w.tree.isDirectoryAt l := by
  rw [Bool.eq_iff_iff, FileTree.isDirectoryAt, FileTree.isDirectoryAt, beq_iff_eq, beq_iff_eq]
  exact ⟨h.directories_back l, h.directories l⟩

end Workspace.Journaled

namespace Migration

variable {σ : Type} {m : Migration σ} {w w' : Workspace σ}
variable {compile : String → Path → Except ToolError String}
variable {format : String → Path → Path → Except ToolError String}

theorem format_ok (formats : m.formatter.Computes format) {p : Path} {s text : String}
    (h : m.format p s w = (.ok text, w')) : format s p m.root = .ok text ∧ w' = w := by
  have formatted := Task.mapError_eq_ok_iff.mp h
  rw [formats] at formatted
  cases done : format s p m.root with
  | error e =>
      rw [done] at formatted
      cases formatted
  | ok result =>
      rw [done] at formatted
      cases formatted
      exact ⟨rfl, rfl⟩

theorem compile_ok (compiles : m.compiler.Computes compile) {source css : String}
    (h : m.compile source w = (.ok css, w')) : compile source m.root = .ok css ∧ w' = w := by
  have compiled := Task.mapError_eq_ok_iff.mp h
  rw [compiles] at compiled
  cases done : compile source m.root with
  | error e =>
      rw [done] at compiled
      cases compiled
  | ok result =>
      rw [done] at compiled
      cases compiled
      exact ⟨rfl, rfl⟩

theorem format_of_ok (formats : m.formatter.Computes format) {p : Path} {s text : String}
    (h : format s p m.root = .ok text) (w : Workspace σ) : m.format p s w = (.ok text, w) := by
  refine Task.mapError_of_ok ?_ _
  rw [formats, h]

theorem compile_keeps_eq (compiles : m.compiler.Computes compile) (s : String) :
    (m.compiler.compile s m.root).Keeps Eq := by
  intro w
  rw [compiles]

theorem format_keeps_eq (formats : m.formatter.Computes format) (s : String) (p : Path) :
    (m.formatter.format s p m.root).Keeps Eq := by
  intro w
  rw [formats]

/-- A compiler that is a function leaves nothing behind in the stages before the first write. -/
theorem prepare_computed (compiles : m.compiler.Computes compile) {styles : Styles}
    {files : List Path} (h : m.prepare w = (.ok (styles, files), w')) :
    w' = w ∧ m.extractStyles w = (.ok styles, w) ∧ m.targets w = (.ok files, w) := by
  obtain ⟨w₁, extracted, chosen⟩ := prepare_ok h
  have kept := compile_keeps_eq compiles
  obtain rfl := (extractStyles_keeps Eq.refl (fun _ _ _ => Eq.trans) kept).apply extracted
  obtain rfl := (targets_keeps Eq.refl (fun _ _ _ => Eq.trans) m).apply chosen
  exact ⟨rfl, extracted, chosen⟩

/-- What a file becomes by itself: its formatted text and its components. -/
def alone (m : Migration σ) (format : String → Path → Path → Except ToolError String)
    (table : StyleTable) (file : Path) (source : String) :
    Except MigrationError (String × List Styled) := do
  let drafted ← m.draft table [] file source
  let text ← (format drafted.2.2.content file m.root).mapError (.unformatted (m.shown file))
  return (text, drafted.2.1)

/-- A target: what it was, what it becomes by itself, and the components made for it. -/
structure Target extends Revision where
  components : List Styled

theorem draft_append {table : StyleTable} {components : Collection} {file : Path} {source : String}
    {drafted : FileSynthesis × Collection × Rewritten} (others : components.forFile file = [])
    (h : m.draft table components file source = .ok drafted) :
    ∃ own, drafted.2.1 = components ++ own ∧
      m.draft table [] file source = .ok (drafted.1, own, drafted.2.2) ∧
      ∀ g, file.same g = false → Collection.forFile own g = [] := by
  obtain ⟨l, elements, language, scanned, made, rewritten⟩ := draft_eq_ok_iff.mp h
  rw [Component.synthesizeFile_append others] at made
  have synthesis := congrArg Prod.fst made
  have collection := congrArg Prod.snd made
  dsimp only at synthesis collection
  refine ⟨_, collection, ?_, ?_⟩
  · refine draft_eq_ok_iff.mpr ⟨l, elements, language, scanned, ?_, ?_⟩
    · rw [synthesis]
    · rw [← rewritten, collection]
      exact Rewrite.run_congr (Collection.forFile_append_of_none others _).symm source l
  · exact fun g other => Component.forFile_synthesizeFile_of_other other elements

theorem Revises.alone {table : StyleTable} {components components' : Collection} {r : Revision}
    (formats : m.formatter.Computes format) (h : m.Revises table components w r components' w')
    (others : components.forFile r.file = []) :
    ∃ own, components' = components ++ own ∧
      m.alone format table r.file r.source = .ok (r.text, own) ∧
      ∀ g, r.file.same g = false → Collection.forFile own g = [] := by
  obtain ⟨drafted, w₁, written, made, rfl, formatted, -⟩ := h.finished
  obtain ⟨own, collection, drafted_alone, elsewhere⟩ := draft_append others made
  refine ⟨own, collection, ?_, elsewhere⟩
  unfold Migration.alone
  rw [drafted_alone, ok_bind, (format_ok formats formatted).1]
  rfl

/-- Files that are rewritten one after another become what each becomes by itself, if none comes
twice. -/
theorem Revisions.alone {table : StyleTable} {components components' : Collection}
    {rs : List Revision} (formats : m.formatter.Computes format)
    (h : m.Revisions table components w rs components' w')
    (others : ∀ r ∈ rs, components.forFile r.file = [])
    (apart : rs.Pairwise fun r s => r.file.same s.file = false) :
    ∃ ts : List Target, ts.map (·.toRevision) = rs ∧
      components' = components ++ ts.flatMap (·.components) ∧
      ∀ t ∈ ts, m.alone format table t.file t.source = .ok (t.text, t.components) := by
  -- The files to come stay without components, for those of a file are its own.
  induction h with
  | nil components w =>
      exact ⟨[], rfl, (List.append_nil components).symm, fun t none => absurd none List.not_mem_nil⟩
  | @cons components components₁ components' w w₁ w' r rs first later ih =>
      obtain ⟨own, rfl, itself, elsewhere⟩ := first.alone formats (others r List.mem_cons_self)
      obtain ⟨different, apart⟩ := List.pairwise_cons.mp apart
      have still : ∀ s ∈ rs, Collection.forFile (components ++ own) s.file = [] := by
        intro s member
        rw [Collection.forFile_append_of_none (others s (List.mem_cons_of_mem r member))]
        exact elsewhere s.file (different s member)
      obtain ⟨ts, order, collection, each⟩ := ih still apart
      refine ⟨⟨r, own⟩ :: ts, ?_, ?_, ?_⟩
      · rw [List.map_cons, order]
      · rw [collection, List.flatMap_cons, List.append_assoc]
      · intro t member
        rcases List.mem_cons.mp member with rfl | member
        · exact itself
        · exact each t member

/-- The text of a style file with some components: from the header on, each one is added behind a
newline and all is formatted again. -/
def styleText (m : Migration σ) (format : String → Path → Path → Except ToolError String)
    (companion : Path) (owned : List Styled) : Except ToolError String :=
  owned.foldlM (fun text c => format (text ++ "\n" ++ c.definition) companion m.root) m.header

theorem Versions.foldlM {companion : Path} {text : String} {cs : List Styled}
    {texts : List String} (formats : m.formatter.Computes format)
    (h : m.Versions companion text cs w texts w') :
    cs.foldlM (fun text c => format (text ++ "\n" ++ c.definition) companion m.root) text
      = .ok (texts.getLastD text) := by
  induction h with
  | nil text w => rfl
  | cons first later ih =>
      obtain ⟨w₁, written, formatted, -⟩ := appendOne_ok first
      rw [List.foldlM_cons, (format_ok formats formatted).1, ok_bind, List.getLastD_cons]
      exact ih

/-- Of the versions of a style file only the last one counts in the end. -/
theorem Versions.overlay {companion : Path} {text : String} {cs : List Styled}
    {texts : List String} (h : m.Versions companion text cs w texts w') (some_component : cs ≠ [])
    (here : Location) (view : Location → Option Content) :
    overlay here view (asContents (texts.map (companion, ·)))
      = overlay here view (asContents [(companion, texts.getLastD text)]) := by
  have some_text : texts ≠ [] := by
    intro none
    have count := h.length
    rw [none] at count
    exact some_component (List.length_eq_zero_iff.mp count.symm)
  obtain ⟨earlier, last, rfl⟩ := (List.eq_nil_or_concat texts).resolve_left some_text
  rw [List.concat_eq_append, List.getLastD_concat]
  have versions : asContents ((earlier ++ [last]).map (companion, ·))
      = (earlier.map Content.text ++ [Content.text last]).map (companion, ·) := by
    simp [asContents]
  rw [versions]
  exact overlay_same_path companion _ _

/-- The style files of groups of components, with their texts in the end. -/
def styleTexts (m : Migration σ) (format : String → Path → Path → Except ToolError String)
    (groups : List (Path × List Styled)) : Except ToolError (List (Path × String)) :=
  groups.mapM fun g => (m.styleText format g.1 g.2).map (g.1, ·)

theorem StyleFiles.final {groups : List (Path × List Styled)} {files : List StyleFile}
    (formats : m.formatter.Computes format) (h : m.StyleFiles groups w files w')
    (some_component : ∀ g ∈ groups, g.2 ≠ []) :
    ∃ final, m.styleTexts format groups = .ok final ∧
      final.map (·.1) = files.map (·.companion) ∧
      ∀ (here : Location) (view : Location → Option Content),
        overlay here view (asContents (files.flatMap StyleFile.writes))
          = overlay here view (asContents final) := by
  induction h with
  | nil w => exact ⟨[], rfl, rfl, fun here view => rfl⟩
  | @cons companion owned groups w w₁ w' versions files first later ih =>
      obtain ⟨final, styled, companions, same⟩ := ih fun g member =>
        some_component g (List.mem_cons_of_mem (companion, owned) member)
      have text := first.foldlM formats
      have here_ := first.overlay (some_component (companion, owned) List.mem_cons_self)
      refine ⟨(companion, versions.getLastD m.header) :: final, ?_, ?_, ?_⟩
      · unfold styleTexts at styled ⊢
        have done : m.styleText format companion owned = .ok (versions.getLastD m.header) := text
        rw [List.mapM_cons, done, styled]
        rfl
      · rw [List.map_cons, List.map_cons, companions]
      · intro here view
        have split : asContents ((companion, versions.getLastD m.header) :: final)
            = asContents [(companion, versions.getLastD m.header)] ++ asContents final := rfl
        have split' : asContents ((⟨companion, versions⟩ :: files).flatMap StyleFile.writes)
            = asContents (versions.map (companion, ·))
              ++ asContents (files.flatMap StyleFile.writes) := List.map_append
        rw [split, split', overlay_append, overlay_append, here_, same]

theorem overlay_revisions {here : Location} {view : Location → Option Content} {rs : List Revision}
    (sources : ∀ r ∈ rs, view (r.file.place here) = some (.text r.source))
    (apart : rs.Pairwise fun r s => r.file.place here ≠ s.file.place here) :
    overlay here view (asContents (rs.flatMap Revision.writes))
      = overlay here view (asContents (rs.map fun r => (r.file, r.text))) := by
  -- The view changes with each file, but not where the files to come are.
  induction rs generalizing view with
  | nil => rfl
  | cons r rs ih =>
      obtain ⟨different, apart⟩ := List.pairwise_cons.mp apart
      have first : overlay here view (asContents r.writes)
          = overlay here view [(r.file, .text r.text)] := by
        unfold Revision.writes
        split
        · rename_i same
          rw [same, overlay_of_there (sources r List.mem_cons_self)]
          rfl
        · rfl
      have still : ∀ s ∈ rs, overlay here view [(r.file, .text r.text)] (s.file.place here)
          = some (.text s.source) := by
        intro s member
        rw [overlay_of_ne]
        · exact sources s (List.mem_cons_of_mem r member)
        · intro x only
          rw [List.mem_singleton.mp only]
          exact (different s member).symm
      have split : asContents ((r :: rs).flatMap Revision.writes)
          = asContents r.writes ++ asContents (rs.flatMap Revision.writes) := List.map_append
      have split' : asContents ((r :: rs).map fun r => (r.file, r.text))
          = [(r.file, .text r.text)] ++ asContents (rs.map fun r => (r.file, r.text)) := rfl
      rw [split, split', overlay_append, overlay_append, first, ih still apart]

/-- What a migration makes of a project. -/
structure Plan where
  sheet : Path
  css : String
  baseCss : String
  targets : List Target
  styleFiles : List (Path × String)

/-- The files of a plan in the order in which they count: later ones over earlier ones. -/
def Plan.files (p : Plan) : List (Path × String) :=
  p.targets.map (fun t => (t.file, t.text)) ++ (p.styleFiles ++ [(p.sheet, p.baseCss)])

/-- A plan is worked out from the files at the start alone. -/
structure Plan.Of (m : Migration σ) (compile : String → Path → Except ToolError String)
    (format : String → Path → Path → Except ToolError String) (t : FileTree) (here : Location)
    (p : Plan) : Prop where
  resolved : Project.resolve m.root ⟨m.config.globalStylesheet⟩ = .ok p.sheet
  compiled : ∃ source, t.readText here p.sheet = .ok source ∧
    compile source m.root = .ok p.css
  base : compile m.config.baseLayerSource m.root = .ok p.baseCss
  chosen : ∃ dirs, m.Sources dirs ∧ p.targets.map (·.file) = dirs.flatMap (m.targetsBelow t here)
  rewritten : ∀ x ∈ p.targets, t.readText here x.file = .ok x.source ∧
    m.alone format (StyleTable.ofCss p.css) x.file x.source = .ok (x.text, x.components)
  styled : m.styleTexts format
    (Collection.byCompanion (p.targets.flatMap (·.components))) = .ok p.styleFiles

theorem targets_unique {itself : Path → String → Except MigrationError (String × List Styled)}
    {read : Path → Except FileError String} {xs ys : List Target}
    (same : xs.map (·.file) = ys.map (·.file))
    (hx : ∀ x ∈ xs, read x.file = .ok x.source ∧
      itself x.file x.source = .ok (x.text, x.components))
    (hy : ∀ y ∈ ys, read y.file = .ok y.source ∧
      itself y.file y.source = .ok (y.text, y.components)) : xs = ys := by
  induction xs generalizing ys with
  | nil => exact (List.map_eq_nil_iff.mp same.symm).symm
  | cons x xs ih =>
      obtain ⟨y, more, rfl, file, later⟩ := List.map_eq_cons_iff.mp same.symm
      have rest := ih later.symm (fun z member => hx z (List.mem_cons_of_mem x member))
        fun z member => hy z (List.mem_cons_of_mem y member)
      obtain ⟨⟨f, source, text⟩, components⟩ := x
      obtain ⟨⟨f', source', text'⟩, components'⟩ := y
      obtain rfl : f' = f := file
      obtain ⟨readx, madex⟩ := hx _ List.mem_cons_self
      obtain ⟨ready, madey⟩ := hy _ List.mem_cons_self
      obtain rfl : source = source' := Except.ok.inj (readx.symm.trans ready)
      obtain ⟨rfl, rfl⟩ := Prod.mk.inj (Except.ok.inj (madex.symm.trans madey))
      rw [rest]

/-- There is one plan at most. -/
theorem Plan.Of.unique {t : FileTree} {here : Location} {p q : Plan}
    (hp : p.Of m compile format t here) (hq : q.Of m compile format t here) : p = q := by
  have sheet : p.sheet = q.sheet := Except.ok.inj (hp.resolved.symm.trans hq.resolved)
  have base : p.baseCss = q.baseCss := Except.ok.inj (hp.base.symm.trans hq.base)
  have css : p.css = q.css := by
    obtain ⟨source, read, compiled⟩ := hp.compiled
    obtain ⟨source', read', compiled'⟩ := hq.compiled
    rw [← sheet, read] at read'
    cases read'
    exact Except.ok.inj (compiled.symm.trans compiled')
  have targets : p.targets = q.targets := by
    obtain ⟨dirs, sources, chosen⟩ := hp.chosen
    obtain ⟨dirs', sources', chosen'⟩ := hq.chosen
    have same : dirs = dirs' :=
      (List.map_inj_right fun _ _ => Except.ok.inj).mp (sources.symm.trans sources')
    have rewritten := hp.rewritten
    rw [css] at rewritten
    exact targets_unique (chosen.trans (same ▸ chosen'.symm)) rewritten hq.rewritten
  have styled : p.styleFiles = q.styleFiles := by
    have final := hp.styled
    rw [targets, hq.styled] at final
    exact (Except.ok.inj final).symm
  cases p
  cases q
  simp only at sheet base css targets styled
  rw [sheet, base, css, targets, styled]

theorem extractStyles_ok (compiles : m.compiler.Computes compile) {styles : Styles}
    (h : m.extractStyles w = (.ok styles, w')) :
    ∃ source css, Project.resolve m.root ⟨m.config.globalStylesheet⟩ = .ok styles.sheet ∧
      w.tree.readText w.here styles.sheet = .ok source ∧ compile source m.root = .ok css ∧
      compile m.config.baseLayerSource m.root = .ok styles.baseCss ∧
      styles.table = StyleTable.ofCss css ∧ w' = w := by
  obtain ⟨sheet, w₁, placed, reading⟩ := Task.bind_eq_ok_iff.mp h
  obtain ⟨resolved, rfl⟩ := place_ok placed
  obtain ⟨source, w₂, read, compiling⟩ := Task.bind_eq_ok_iff.mp reading
  obtain ⟨found, rfl⟩ := Task.look_eq_iff.mp (Task.mapError_eq_ok_iff.mp read)
  obtain ⟨css, w₃, first, more⟩ := Task.bind_eq_ok_iff.mp compiling
  obtain ⟨compiled, rfl⟩ := compile_ok compiles first
  obtain ⟨baseCss, w₄, second, result⟩ := Task.bind_eq_ok_iff.mp more
  obtain ⟨base, rfl⟩ := compile_ok compiles second
  obtain ⟨rfl, rfl⟩ := Task.pure_eq_ok_iff.mp result
  refine ⟨source, css, resolved, found, compiled, base, ?_, rfl⟩
  dsimp only

theorem byCompanion_ne_nil {components : Collection} {g : Path × List Styled}
    (h : g ∈ components.byCompanion) : g.2 ≠ [] := by
  have grouped := Component.Collection.grouped_byCompanion components
  obtain ⟨c, created, name⟩ := grouped.named g.1 (List.mem_map_of_mem h)
  have owned : c ∈ g.2 := by
    rw [grouped.owned g h, List.mem_filter, name]
    exact ⟨created, Path.same_refl _⟩
  exact List.ne_nil_of_mem owned

theorem overlay_files {here : Location} {view : Location → Option Content} {rs : List Revision}
    {styleFiles : List StyleFile} {p : Plan}
    (sources : ∀ r ∈ rs, view (r.file.place here) = some (.text r.source))
    (apart : rs.Pairwise fun r s => r.file.place here ≠ s.file.place here)
    (targets : p.targets.map (·.toRevision) = rs)
    (styled : ∀ view : Location → Option Content,
      overlay here view (asContents (styleFiles.flatMap StyleFile.writes))
        = overlay here view (asContents p.styleFiles)) :
    overlay here view (asContents (rs.flatMap Revision.writes ++
        (styleFiles.flatMap StyleFile.writes ++ [(p.sheet, p.baseCss)])))
      = overlay here view (asContents p.files) := by
  have texts : p.targets.map (fun t => (t.file, t.text)) = rs.map fun r => (r.file, r.text) := by
    rw [← targets, List.map_map]
    rfl
  rw [Plan.files, texts]
  simp only [asContents_append, overlay_append]
  rw [overlay_revisions sources apart, styled]

theorem mem_files {rs : List Revision} {styleFiles : List StyleFile} {p : Plan}
    (targets : p.targets.map (·.toRevision) = rs)
    (companions : p.styleFiles.map (·.1) = styleFiles.map (·.companion)) {x : Path × String}
    (h : x ∈ rs.flatMap Revision.writes ++
      (styleFiles.flatMap StyleFile.writes ++ [(p.sheet, p.baseCss)])) :
    ∃ y ∈ p.files, x.1 = y.1 := by
  unfold Plan.files
  rcases List.mem_append.mp h with revised | more
  · obtain ⟨r, member, writes⟩ := List.mem_flatMap.mp revised
    rw [← targets] at member
    obtain ⟨t, target, rfl⟩ := List.mem_map.mp member
    exact ⟨(t.file, t.text), List.mem_append_left _ (List.mem_map_of_mem target),
      t.toRevision.eq_file_of_mem_writes writes⟩
  rcases List.mem_append.mp more with styled | sheet
  · obtain ⟨f, member, writes⟩ := List.mem_flatMap.mp styled
    have companion : f.companion ∈ p.styleFiles.map (·.1) := by
      rw [companions]
      exact List.mem_map_of_mem member
    obtain ⟨y, final, same⟩ := List.mem_map.mp companion
    exact ⟨y, List.mem_append_right _ (List.mem_append_left _ final),
      (f.eq_companion_of_mem_writes writes).trans same.symm⟩
  · exact ⟨x, List.mem_append_right _ (List.mem_append_right _ sheet), rfl⟩

/-- A migration that succeeds with tools that are functions leaves just the files of its plan over
those of the start, makes and removes no directory, and reports of each target whether it has
changed. -/
theorem run_outcome {report : Report} (real : m.dryRun = false)
    (compiles : m.compiler.Computes compile) (formats : m.formatter.Computes format)
    (proper : w.tree.ProperNames) (disjoint : m.DisjointSources)
    (done : m.run w = (.ok report, w')) :
    ∃ p : Plan, p.Of m compile format w.tree w.here ∧
      (∀ l, w'.tree.contentAt l = overlay w.here w.tree.contentAt (asContents p.files) l) ∧
      (∀ l, w'.tree.isDirectoryAt l = w.tree.isDirectoryAt l) ∧
      (∀ l, (∀ x ∈ p.files, l ≠ x.1.place w.here) → w'.tree.find? l = w.tree.find? l) ∧
      report.files.map (fun f => (f.path, f.written))
        = p.targets.map fun t => (m.shown t.file, t.text != t.source) := by
  have quiet := formats.quiet
  obtain ⟨styles, files, w₁, rs, components, styleFiles, prepared, completed, written⟩ :=
    run_ok real done
  obtain ⟨w₀, extracted, chosen⟩ := prepare_ok prepared
  obtain ⟨source, css, resolved, read, compiled, base, table, rfl⟩ :=
    extractStyles_ok compiles extracted
  have places := targets_apart proper disjoint chosen
  obtain ⟨dirs, sources, choice, rfl⟩ := targets_ok chosen
  rw [← completed.order, List.pairwise_map] at places
  have paths : rs.Pairwise fun r s => r.file.same s.file = false :=
    places.imp Path.same_of_apart
  obtain ⟨w₂, w₃, flag, revised, styled, persisted⟩ := completed.stages
  have texts := revised.readText real quiet places
  obtain ⟨ts, targets, collection, each⟩ := revised.alone formats (fun _ _ => rfl) paths
  rw [List.nil_append] at collection
  obtain ⟨final, styleTexts, companions, same⟩ := styled.final formats fun g => byCompanion_ne_nil
  have journaled := completed.journaled real quiet (FileTree.holds_of_readText read)
  let plan : Plan := ⟨styles.sheet, css, styles.baseCss, ts, final⟩
  refine ⟨plan, ?_, ?_, ?_, ?_, ?_⟩
  · refine ⟨resolved, ⟨source, read, compiled⟩, base, ⟨dirs, sources, ?_⟩, ?_, ?_⟩
    · rw [← choice, ← completed.order, ← targets, List.map_map]
      rfl
    · intro t member
      have target : t.toRevision ∈ rs := targets ▸ List.mem_map_of_mem member
      rw [← table]
      exact ⟨(texts _ target).1, each t member⟩
    · rw [← collection]
      exact styleTexts
  · intro l
    rw [journaled.contentAt]
    refine congrFun (overlay_files (p := plan) ?_ places targets fun view => same _ view) l
    intro r member
    exact FileTree.contentAt_of_readText (texts r member).1
  · exact journaled.isDirectoryAt
  · intro l others
    rw [journaled.tree]
    apply overlay_of_ne
    intro x member
    obtain ⟨y, writes, rfl⟩ := List.mem_map.mp member
    obtain ⟨z, planned, path⟩ := mem_files (p := plan) targets companions writes
    rw [path]
    exact others z planned
  · rw [written, ← targets, List.map_map]
    rfl

def smallSource : String := "x = <a className=\"p\" />\n"

def smallRewritten : String :=
  "import \x7b AStyle \x7d from './A.style'\nx = <AStyle />\n"

def smallStyles : String :=
  "import styled from 'styled-components'\n\nexport const AStyle = styled.a`\n`\n"

def smallTree : FileTree where
  entries := [(["p"], .directory), (["p", "s.css"], .file (.text "") false),
    (["p", "src"], .directory), (["p", "src", "A.jsx"], .file (.text smallSource) false)]
  nodup := by decide

def small : Migration Unit where
  root := ⟨"/p"⟩
  config :=
    { sourceDirs := ["src"], targetNames := ["A"], extensions := ["jsx"]
      globalStylesheet := "s.css", clientDirective := false }
  compiler := ⟨"none", fun _ _ => pure ""⟩
  formatter := ⟨"none", fun source _ _ => pure source⟩
  dryRun := false

def smallStart : Workspace Unit := { tree := smallTree, here := [], memory := () }

def smallRevised : Workspace Unit :=
  { smallStart with
    tree := smallTree.set ["p", "src", "A.jsx"] (.file (.text smallRewritten) false)
    writes := [(⟨"/p/src/A.jsx"⟩, smallRewritten)] }

def smallStyled : Workspace Unit :=
  { smallRevised with
    tree := smallRevised.tree.set ["p", "src", "A.style.jsx"] (.file (.text smallStyles) false)
    writes := smallRevised.writes ++ [(⟨"/p/src/A.style.jsx"⟩, smallStyles)] }

def smallEnd : Workspace Unit :=
  { smallStyled with
    tree := smallStyled.tree.set ["p", "s.css"] (.file (.text "") false)
    writes := smallStyled.writes ++ [(⟨"/p/s.css"⟩, "")] }

def smallElements : List Markup.Element :=
  [⟨⟨"/p/src/A.jsx"⟩, 0, "a", ⟨5, 6⟩, none, ⟨"p", ⟨7, 20⟩, ⟨6, 20⟩⟩⟩]

def smallComponent : Styled :=
  ⟨"AStyle", ⟨"/p/src/A.jsx"⟩, ⟨"/p/src/A.style.jsx"⟩, "p", "a", "styled.a", ""⟩

def smallImport : Edit :=
  ⟨⟨0, 0⟩, "import \x7b AStyle \x7d from './A.style'\n", "import components", -1⟩

def smallEdits : List Edit :=
  [⟨⟨5, 6⟩, "AStyle", "open a -> AStyle", 0⟩, ⟨⟨6, 20⟩, "", "drop className", 0⟩]

theorem small_targets_of {t : FileTree} (located : t.locate [] ⟨"/p/src"⟩ = .ok ["p", "src"])
    (directory : t.isDirectoryAt ["p", "src"] = true)
    {content : Content} {executable : Bool}
    (alone : t.childrenOf ["p", "src"] = [("A.jsx", .file content executable)]) :
    small.targets { tree := t, here := [], memory := () }
      = (.ok [⟨"/p/src/A.jsx"⟩], { tree := t, here := [], memory := () }) := by
  have sources : small.Sources [⟨"/p/src"⟩] := rfl
  have met : Project.visit t ["p", "src"] = [["A.jsx"]] := by
    rw [Project.visit_of_files, alone]
    · rfl
    · exact alone ▸ List.pairwise_singleton _ _
    · simp [alone]
  have listed : Project.listFiles t [] ⟨"/p/src"⟩ = [⟨"/p/src/A.jsx"⟩] := by
    rw [Project.listFiles_of_located located directory, met]
    rfl
  have below : small.targetsBelow t [] ⟨"/p/src"⟩ = [⟨"/p/src/A.jsx"⟩] := by
    unfold targetsBelow
    rw [listed]
    rfl
  rw [targets_of_sources sources, List.flatMap_singleton]
  exact congrArg (fun files => (Except.ok files, _)) below

theorem small_targets : small.targets smallStart = (.ok [⟨"/p/src/A.jsx"⟩], smallStart) :=
  small_targets_of rfl rfl rfl

def smallSet : EditSet := ⟨smallImport :: smallEdits⟩

theorem small_stages :
    Rewrite.Staged "className" ⟨"/p/src/A.jsx"⟩ smallSource .jsx [smallComponent] smallEdits
      smallImport smallSet ∧
    (Markup.scanSource small.config.classAttribute ⟨"/p/src/A.jsx"⟩ smallSource .jsx).toOption
      = some smallElements ∧
    (⟨StyleTable.ofCss "", small.config.componentSuffix⟩ : Component.Synthesizer).synthesizeFile
      ⟨"/p/src/A.jsx"⟩ smallElements [] = (⟨["AStyle"], 0, ["p"]⟩, [smallComponent]) ∧
    (⟨smallSet.apply smallSource, (Markup.scan "className" ⟨"/p/src/A.jsx"⟩ smallSource
        (Language.jsx.parse smallSource)).length,
      (Collection.forFile [smallComponent] ⟨"/p/src/A.jsx"⟩).map (·.name)⟩ : Rewritten)
        = ⟨smallRewritten, 1, ["AStyle"]⟩ := by
  decide +kernel

theorem small_draft : small.draft (StyleTable.ofCss "") [] ⟨"/p/src/A.jsx"⟩ smallSource
    = .ok (⟨["AStyle"], 0, ["p"]⟩, [smallComponent], ⟨smallRewritten, 1, ["AStyle"]⟩) := by
  obtain ⟨staged, scanned, made, result⟩ := small_stages
  have rewritten : Rewrite.run small.config.classAttribute ⟨"/p/src/A.jsx"⟩ smallSource .jsx
      [smallComponent] = .ok ⟨smallRewritten, 1, ["AStyle"]⟩ := by
    rw [← result]
    exact Rewrite.run_of_staged staged
  rw [draft_eq_ok_iff]
  exact ⟨.jsx, smallElements, rfl, ok_of_toOption scanned, made.symm, rewritten⟩

theorem small_rewriteAll {w w' : Workspace Unit}
    (read : w.tree.readText w.here ⟨"/p/src/A.jsx"⟩ = .ok smallSource)
    (persisted : small.persist ⟨"/p/src/A.jsx"⟩ smallRewritten w = (.ok true, w')) :
    small.rewriteAll (StyleTable.ofCss "") [] [⟨"/p/src/A.jsx"⟩] w
      = (.ok ⟨[smallComponent], [⟨⟨"src/A.jsx"⟩, ["AStyle"], 0, ["p"], true⟩]⟩, w') := by
  have language : Language.ofExtension ((⟨"/p/src/A.jsx"⟩ : Path).extension?.getD "")
      = .ok .jsx := rfl
  have formatted : small.format ⟨"/p/src/A.jsx"⟩ smallRewritten w = (.ok smallRewritten, w) := rfl
  have settled : small.settle ⟨"/p/src/A.jsx"⟩ smallSource smallRewritten w = (.ok true, w') :=
    settle_of_changed (by decide) persisted
  have rewritten := rewriteFile_of_steps language read small_draft formatted settled
  exact (Task.bind_of_ok rewritten _).trans rfl

theorem small_writeStyleFiles {w w' : Workspace Unit}
    (persisted : small.persist ⟨"/p/src/A.style.jsx"⟩ smallStyles w = (.ok true, w')) :
    small.writeStyleFiles [smallComponent] w
      = (.ok [⟨⟨"src/A.style.jsx"⟩, ["AStyle"]⟩], w') := by
  have text : small.header ++ "\n" ++ smallComponent.definition = smallStyles := by
    decide
  have formatted : small.format ⟨"/p/src/A.style.jsx"⟩ smallStyles w = (.ok smallStyles, w) := rfl
  have appended : small.appendAll ⟨"/p/src/A.style.jsx"⟩ small.header [smallComponent] w
      = (.ok (), w') := by
    unfold appendAll
    rw [text]
    exact (Task.bind_of_ok formatted _).trans ((Task.bind_of_ok persisted _).trans rfl)
  have written : small.writeStyleFile ⟨"/p/src/A.style.jsx"⟩ [smallComponent] w
      = (.ok ⟨⟨"src/A.style.jsx"⟩, ["AStyle"]⟩, w') :=
    (Task.bind_of_ok appended _).trans rfl
  change [(⟨"/p/src/A.style.jsx"⟩, [smallComponent])].mapM
    (fun g : Path × List Styled => small.writeStyleFile g.1 g.2) w = _
  rw [List.mapM_cons, List.mapM_nil]
  exact (Task.bind_of_ok written _).trans rfl

theorem small_run_of {w w₁ w₂ w₃ : Workspace Unit}
    (prepared : small.prepare w
      = (.ok (⟨StyleTable.ofCss "", "", ⟨"/p/s.css"⟩⟩, [⟨"/p/src/A.jsx"⟩]), w))
    (read : w.tree.readText w.here ⟨"/p/src/A.jsx"⟩ = .ok smallSource)
    (revised : small.persist ⟨"/p/src/A.jsx"⟩ smallRewritten w = (.ok true, w₁))
    (styled : small.persist ⟨"/p/src/A.style.jsx"⟩ smallStyles w₁ = (.ok true, w₂))
    (replaced : small.persist ⟨"/p/s.css"⟩ "" w₂ = (.ok true, w₃)) :
    ∃ report, small.run w = (.ok report, w₃) := by
  refine ⟨small.report ⟨StyleTable.ofCss "", "", ⟨"/p/s.css"⟩⟩
    ⟨[smallComponent], [⟨⟨"src/A.jsx"⟩, ["AStyle"], 0, ["p"], true⟩]⟩
    [⟨⟨"src/A.style.jsx"⟩, ["AStyle"]⟩] ⟨"s.css"⟩, ?_⟩
  have last : small.replaceSheet ⟨StyleTable.ofCss "", "", ⟨"/p/s.css"⟩⟩ w₂
      = (.ok ⟨"s.css"⟩, w₃) := (Task.bind_of_ok replaced _).trans rfl
  rw [run_eq]
  refine (Task.bind_of_ok prepared _).trans ?_
  refine (Task.bind_of_ok (small_rewriteAll read revised) _).trans ?_
  refine (Task.bind_of_ok (small_writeStyleFiles styled) _).trans ?_
  exact (Task.bind_of_ok last _).trans rfl

theorem small_prepare : small.prepare smallStart
    = (.ok (⟨StyleTable.ofCss "", "", ⟨"/p/s.css"⟩⟩, [⟨"/p/src/A.jsx"⟩]), smallStart) := by
  have extracted : small.extractStyles smallStart
      = (.ok ⟨StyleTable.ofCss "", "", ⟨"/p/s.css"⟩⟩, smallStart) := rfl
  exact (Task.bind_of_ok extracted _).trans ((Task.bind_of_ok small_targets _).trans rfl)

theorem small_run : ∃ report, small.run smallStart = (.ok report, smallEnd) := by
  have revised : small.persist ⟨"/p/src/A.jsx"⟩ smallRewritten smallStart
      = (.ok true, smallRevised) := rfl
  have styled : small.persist ⟨"/p/src/A.style.jsx"⟩ smallStyles smallRevised
      = (.ok true, smallStyled) := rfl
  have replaced : small.persist ⟨"/p/s.css"⟩ "" smallStyled = (.ok true, smallEnd) := rfl
  exact small_run_of small_prepare rfl revised styled replaced

theorem small_disjoint : small.DisjointSources := by
  intro dirs sources
  obtain ⟨p, more, rfl, -, later⟩ := List.map_eq_cons_iff.mp sources.symm
  rw [List.map_eq_nil_iff.mp later]
  exact List.pairwise_singleton _ _

theorem run_outcome_small :
    small.compiler.Computes (fun _ _ => .ok "") ∧ small.formatter.Computes (fun s _ _ => .ok s) ∧
    smallTree.ProperNames ∧ small.DisjointSources ∧
    (∃ report, small.run smallStart = (.ok report, smallEnd)) ∧
    ∃ p : Plan, p.Of small (fun _ _ => .ok "") (fun s _ _ => .ok s) smallTree [] ∧
      ∀ l, smallEnd.tree.contentAt l = overlay [] smallTree.contentAt (asContents p.files) l := by
  have compiles : small.compiler.Computes fun _ _ => .ok "" := fun _ _ _ => rfl
  have formats : small.formatter.Computes fun s _ _ => .ok s := fun _ _ _ _ => rfl
  have proper : smallTree.ProperNames := by decide
  obtain ⟨report, done⟩ := small_run
  obtain ⟨p, plan, contents, -⟩ := run_outcome rfl compiles formats proper small_disjoint done
  exact ⟨compiles, formats, proper, small_disjoint, ⟨report, done⟩, p, plan, contents⟩

end Migration

end Restyle
