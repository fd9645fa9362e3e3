import Mathlib.Data.List.Perm.Basic
import Restyle.Proofs.Migration.Outcome
import Restyle.Proofs.Migration.Steps
/-!
The order of the targets. All files share one collection of components, yet what becomes of a file and
of its style file depends on no other file, so the targets may come in any order.
-/

namespace Restyle.Migration

open Component (Collection Styled FileSynthesis companionPath)
open Component.Collection (groupOf)
open Sheet (StyleTable)
open Relator (RightUnique)

variable {σ : Type} {m : Migration σ} {w w' : Workspace σ}
variable {format : String → Path → Path → Except ToolError String}

/-- A target with what its elements gave. -/
structure Treatment extends Target where
  synthesis : FileSynthesis

def Treatment.report (m : Migration σ) (x : Treatment) : FileReport :=
  ⟨m.shown x.file, x.synthesis.created, x.synthesis.reused, x.synthesis.droppedTokens,
    x.text != x.source⟩

/-- What becomes of a file that is taken by itself. -/
structure Treats (m : Migration σ) (format : String → Path → Path → Except ToolError String)
    (table : StyleTable) (w : Workspace σ) (x : Treatment) : Prop where
  read : w.tree.readText w.here x.file = .ok x.source
  made : ∃ rewritten, m.draft table [] x.file x.source = .ok (x.synthesis, x.components, rewritten) ∧
    format rewritten.content x.file m.root = .ok x.text

namespace Treats

variable {table : StyleTable} {x y : Treatment}

theorem unique (hx : m.Treats format table w x) (hy : m.Treats format table w y)
    (same : x.file = y.file) : x = y := by
  obtain ⟨⟨⟨file, source, text⟩, components⟩, synthesis⟩ := x
  obtain ⟨⟨⟨file', source', text'⟩, components'⟩, synthesis'⟩ := y
  obtain rfl : file = file' := same
  obtain rfl : source = source' := Except.ok.inj (hx.read.symm.trans hy.read)
  obtain ⟨rewritten, drafted, formatted⟩ := hx.made
  obtain ⟨rewritten', drafted', formatted'⟩ := hy.made
  obtain ⟨rfl, more⟩ := Prod.mk.inj (Except.ok.inj (drafted.symm.trans drafted'))
  obtain ⟨rfl, rfl⟩ := Prod.mk.inj more
  obtain rfl : text = text' := Except.ok.inj (formatted.symm.trans formatted')
  rfl

theorem companion (h : m.Treats format table w x) :
    ∀ c ∈ x.components, c.companion = companionPath x.file := by
  obtain ⟨rewritten, drafted, -⟩ := h.made
  intro c member
  exact ((draft_ok drafted).2 c member).resolve_left List.not_mem_nil

theorem extension (h : m.Treats format table w x) : ∃ e, x.file.extension? = some e := by
  obtain ⟨rewritten, drafted, -⟩ := h.made
  obtain ⟨l, elements, language, -⟩ := draft_eq_ok_iff.mp drafted
  cases extension : x.file.extension? with
  | some e => exact ⟨e, rfl⟩
  | none =>
      rw [extension] at language
      cases language

theorem of_later {ws : List (Path × String)} (h : m.Treats format table w' x)
    (journaled : w.Journaled w' ws) (other : ∀ v ∈ ws, x.file.place w.here ≠ v.1.place w.here) :
    m.Treats format table w x where
  read := (journaled.readText_iff other).mp h.read
  made := h.made

end Treats

theorem rewriteFile_treats (real : m.dryRun = false) (formats : m.formatter.Computes format)
    {table : StyleTable} {components components' : Collection} {file : Path} {report : FileReport}
    (others : components.forFile file = [])
    (h : m.rewriteFile table components file w = (.ok (components', report), w')) :
    ∃ x, x.file = file ∧ m.Treats format table w x ∧ components' = components ++ x.components ∧
      report = x.report m ∧ w.Journaled w' x.writes ∧
      ∀ g, file.same g = false → Collection.forFile x.components g = [] := by
  obtain ⟨l, source, drafted, text, w₁, written, -, read, made, formatted, settled, rfl, rfl⟩ :=
    rewriteFile_steps h
  obtain ⟨computed, rfl⟩ := format_ok formats formatted
  obtain ⟨own, collection, drafted_alone, elsewhere⟩ := draft_append others made
  have journaled := settle_ok real (FileTree.holds_of_readText read) settled
  refine ⟨⟨⟨⟨file, source, text⟩, own⟩, drafted.1⟩, rfl, ?_, collection, ?_, journaled, elsewhere⟩
  · exact ⟨read, drafted.2.2, drafted_alone, computed⟩
  · rw [settle_written real settled]
    rfl

theorem rewriteAll_treats (real : m.dryRun = false) (formats : m.formatter.Computes format)
    {table : StyleTable} {components : Collection} {files : List Path} {rewriting : Rewriting}
    (others : ∀ file ∈ files, components.forFile file = [])
    (apart : files.Pairwise fun p q => p.place w.here ≠ q.place w.here)
    (h : m.rewriteAll table components files w = (.ok rewriting, w')) :
    ∃ xs : List Treatment, xs.map (·.file) = files ∧ (∀ x ∈ xs, m.Treats format table w x) ∧
      rewriting.components = components ++ xs.flatMap (·.components) ∧
      rewriting.files = xs.map (·.report m) ∧ w.Journaled w' (xs.flatMap (·.writes)) := by
  induction files generalizing components w rewriting with
  | nil =>
      cases h
      exact ⟨[], rfl, fun _ none => absurd none List.not_mem_nil, (List.append_nil _).symm, rfl,
        .refl _⟩
  | cons file files ih =>
      obtain ⟨⟨components₁, report⟩, w₁, first, h⟩ := Task.bind_eq_ok_iff.mp h
      obtain ⟨rest, w₂, later, h⟩ := Task.bind_eq_ok_iff.mp h
      cases h
      obtain ⟨different, behind⟩ := List.pairwise_cons.mp apart
      obtain ⟨x, rfl, treated, rfl, rfl, journaled, elsewhere⟩ :=
        rewriteFile_treats real formats (others file List.mem_cons_self) first
      have still : ∀ next ∈ files, Collection.forFile (components ++ x.components) next = [] := by
        intro next member
        have before := others next (List.mem_cons_of_mem x.file member)
        rw [Component.Collection.forFile_append_of_none before]
        exact elsewhere next (Path.same_of_apart (different next member))
      rw [← journaled.here] at behind
      obtain ⟨xs, order, each, collection, reports, more⟩ := ih still behind later
      refine ⟨x :: xs, ?_, ?_, ?_, ?_, ?_⟩
      · rw [List.map_cons, order]
      · -- What the file wrote is elsewhere, so the others had their sources from the start on.
        intro y member
        rcases List.mem_cons.mp member with rfl | among
        · exact treated
        · refine (each y among).of_later journaled ?_
          intro v written
          rw [x.eq_file_of_mem_writes written]
          exact (different y.file (order ▸ List.mem_map_of_mem among)).symm
      · rw [collection, List.flatMap_cons, List.append_assoc]
      · rw [List.map_cons, reports]
      · rw [List.flatMap_cons]
        exact journaled.trans more

theorem treatments_perm {table : StyleTable} {xs ys : List Treatment}
    (hx : ∀ x ∈ xs, m.Treats format table w x) (hy : ∀ y ∈ ys, m.Treats format table w y)
    (perm : (xs.map (·.file)).Perm (ys.map (·.file))) : xs.Perm ys := by
  have unique : RightUnique fun file (x : Treatment) => file = x.file ∧ m.Treats format table w x :=
    fun file x y ⟨at_, treated⟩ ⟨at', treated'⟩ => treated.unique treated' (at_.symm.trans at')
  refine List.rel_perm_imp unique ?_ ?_ perm
  · rw [List.forall₂_map_left_iff, List.forall₂_same]
    exact fun x member => ⟨rfl, hx x member⟩
  · rw [List.forall₂_map_left_iff, List.forall₂_same]
    exact fun y member => ⟨rfl, hy y member⟩

/-- A style file with the texts that a group of components gives it. -/
structure HasVersions (m : Migration σ) (g : Path × List Styled) (f : StyleFile) : Prop where
  companion : f.companion = g.1
  versions : ∃ w w', m.Versions g.1 m.header g.2 w f.versions w'

theorem Versions.unique {companion : Path} {text : String} {cs : List Styled}
    {texts texts' : List String} {v v' : Workspace σ} (formats : m.formatter.Computes format)
    (h : m.Versions companion text cs w texts w') (h' : m.Versions companion text cs v texts' v') :
    texts = texts' := by
  induction h generalizing v texts' with
  | nil text w =>
      cases h'
      rfl
  | cons first later ih =>
      cases h' with
      | cons first' later' =>
          obtain ⟨w₁, written, formatted, -⟩ := appendOne_ok first
          obtain ⟨v₁, written', formatted', -⟩ := appendOne_ok first'
          have text := (format_ok formats formatted).1
          rw [(format_ok formats formatted').1] at text
          obtain rfl := Except.ok.inj text
          rw [ih later']

theorem HasVersions.unique {g : Path × List Styled} {f f' : StyleFile}
    (formats : m.formatter.Computes format) (h : m.HasVersions g f) (h' : m.HasVersions g f') :
    f = f' := by
  obtain ⟨companion, versions⟩ := f
  obtain ⟨companion', versions'⟩ := f'
  obtain ⟨w, w', versions⟩ := h.versions
  obtain ⟨v, v', versions'⟩ := h'.versions
  rw [StyleFile.mk.injEq]
  exact ⟨h.companion.trans h'.companion.symm, versions.unique formats versions'⟩

theorem StyleFiles.forall₂ {groups : List (Path × List Styled)} {files : List StyleFile}
    (h : m.StyleFiles groups w files w') : List.Forall₂ m.HasVersions groups files := by
  induction h with
  | nil w => exact .nil
  | cons first later ih => exact .cons ⟨rfl, _, _, first⟩ ih

theorem companions_of_versions {groups : List (Path × List Styled)} {fs : List StyleFile}
    (h : List.Forall₂ m.HasVersions groups fs) : fs.map (·.companion) = groups.map (·.1) := by
  induction h with
  | nil => rfl
  | cons has later ih => rw [List.map_cons, List.map_cons, has.companion, ih]

theorem styleFiles_perm {groups groups' : List (Path × List Styled)} {fs fs' : List StyleFile}
    (formats : m.formatter.Computes format) (h : List.Forall₂ m.HasVersions groups fs)
    (h' : List.Forall₂ m.HasVersions groups' fs') (perm : groups.Perm groups') : fs.Perm fs' :=
  List.rel_perm_imp (fun _ _ _ has has' => has.unique formats has') h h' perm

theorem styleFiles_apart {groups : List (Path × List Styled)} {fs : List StyleFile}
    {here : Location} (h : List.Forall₂ m.HasVersions groups fs)
    (apart : groups.Pairwise fun g k => g.1.place here ≠ k.1.place here) :
    fs.Pairwise fun f k =>
      ∀ v ∈ f.writes, ∀ u ∈ k.writes, v.1.place here ≠ u.1.place here := by
  have companions : (groups.map (·.1)).Pairwise fun p q => p.place here ≠ q.place here :=
    List.pairwise_map.mpr apart
  rw [← companions_of_versions h, List.pairwise_map] at companions
  refine companions.imp ?_
  intro f k different v mv u mu
  rw [f.eq_companion_of_mem_writes mv, k.eq_companion_of_mem_writes mu]
  exact different

def groupsOf (xs : List Treatment) : List (Path × List Styled) :=
  xs.flatMap fun x => groupOf (companionPath x.file) x.components

section Apart

variable {table : StyleTable} {xs : List Treatment}

theorem companions_apart (each : ∀ x ∈ xs, m.Treats format table w x)
    (apart : xs.Pairwise fun x y => x.file.place w.here ≠ y.file.place w.here) :
    xs.Pairwise fun x y =>
      (companionPath x.file).place w.here ≠ (companionPath y.file).place w.here := by
  refine apart.imp_of_mem ?_
  intro x y mx my different same
  obtain ⟨e, extension⟩ := (each x mx).extension
  obtain ⟨e', extension'⟩ := (each y my).extension
  obtain ⟨s, -, name, -⟩ := Path.cutAtDot_of_extension? extension
  obtain ⟨s', -, name', -⟩ := Path.cutAtDot_of_extension? extension'
  exact different (Component.place_of_place_companionPath name name' same)

theorem byCompanion_treatments (each : ∀ x ∈ xs, m.Treats format table w x)
    (apart : xs.Pairwise fun x y => x.file.place w.here ≠ y.file.place w.here) :
    Collection.byCompanion (xs.flatMap (·.components)) = groupsOf xs := by
  refine Component.Collection.byCompanion_flatMap (fun x member => (each x member).companion) ?_
  exact (companions_apart each apart).imp Path.same_of_apart

theorem groups_apart (each : ∀ x ∈ xs, m.Treats format table w x)
    (apart : xs.Pairwise fun x y => x.file.place w.here ≠ y.file.place w.here) :
    (groupsOf xs).Pairwise fun g k => g.1.place w.here ≠ k.1.place w.here := by
  unfold groupsOf
  rw [List.pairwise_flatMap]
  refine ⟨?_, ?_⟩
  · intro x member
    unfold groupOf
    split
    · exact .nil
    · exact List.pairwise_singleton _ _
  · refine (companions_apart each apart).imp ?_
    intro x y different g mg k mk
    rw [Component.Collection.eq_of_mem_groupOf mg, Component.Collection.eq_of_mem_groupOf mk]
    exact different

end Apart

theorem overlay_asFiles_perm {α : Type} {here : Location} {view : Location → Option FileNode}
    {f : α → List (Path × String)} {xs ys : List α} (perm : xs.Perm ys)
    (apart : xs.Pairwise fun x y => ∀ v ∈ f x, ∀ u ∈ f y, v.1.place here ≠ u.1.place here) :
    overlay here view (asFiles (xs.flatMap f)) = overlay here view (asFiles (ys.flatMap f)) := by
  unfold asFiles
  rw [List.map_flatMap, List.map_flatMap]
  refine overlay_flatMap_perm perm (apart.imp ?_)
  intro x y different v mv u mu
  obtain ⟨v', written, rfl⟩ := List.mem_map.mp mv
  obtain ⟨u', written', rfl⟩ := List.mem_map.mp mu
  exact different v' written u' written'

/-- What targets become together. -/
structure Account (m : Migration σ) (format : String → Path → Path → Except ToolError String)
    (styles : Styles) (files : List Path) (w : Workspace σ) (report : Report)
    (xs : List Treatment) (fs : List StyleFile) (w' : Workspace σ) : Prop where
  order : xs.map (·.file) = files
  each : ∀ x ∈ xs, m.Treats format styles.table w x
  styled : List.Forall₂ m.HasVersions (groupsOf xs) fs
  reports : report.files = xs.map (·.report m)
  styleReports : report.styleFiles = (groupsOf xs).map m.styleReport
  journaled : w.Journaled w' (xs.flatMap (·.writes) ++
    (fs.flatMap StyleFile.writes ++ [(styles.sheet, styles.baseCss)]))

theorem carryOut_account (real : m.dryRun = false) (formats : m.formatter.Computes format)
    {styles : Styles} {files : List Path} {report : Report}
    (holds : w.tree.Holds w.here styles.sheet)
    (apart : files.Pairwise fun p q => p.place w.here ≠ q.place w.here)
    (h : m.carryOut styles files w = (.ok report, w')) :
    ∃ xs fs, m.Account format styles files w report xs fs w' := by
  obtain ⟨rewriting, w₁, rewritten, h⟩ := Task.bind_eq_ok_iff.mp h
  obtain ⟨reports, w₂, styled, h⟩ := Task.bind_eq_ok_iff.mp h
  obtain ⟨sheet, w₃, replaced, h⟩ := Task.bind_eq_ok_iff.mp h
  cases h
  obtain ⟨written, persisted⟩ := replaceSheet_ok replaced
  obtain ⟨rs, revised, -, -⟩ := rewriteAll_ok real rewritten
  obtain ⟨xs, rfl, each, collection, fileReports, first⟩ :=
    rewriteAll_treats real formats (fun _ _ => rfl) apart rewritten
  obtain ⟨rfl, fs, versions⟩ := writeGroups_ok styled
  have second := versions.journaled real formats.quiet (revised.holds_groups real formats.quiet)
  have third := persist_journaled real (second.holds (first.holds holds)) persisted
  rw [List.pairwise_map] at apart
  have groups : rewriting.components.byCompanion = groupsOf xs := by
    rw [collection, List.nil_append]
    exact byCompanion_treatments each apart
  rw [groups] at versions
  refine ⟨xs, fs, rfl, each, versions.forall₂, fileReports, ?_, first.trans (second.trans third)⟩
  change rewriting.components.byCompanion.map m.styleReport = _
  rw [groups]

/-- Targets at different places may come in any order. -/
theorem Account.perm (formats : m.formatter.Computes format) {styles : Styles}
    {files files' : List Path} {report report' : Report} {xs ys : List Treatment}
    {fs fs' : List StyleFile} {w'' : Workspace σ}
    (h : m.Account format styles files w report xs fs w')
    (h' : m.Account format styles files' w report' ys fs' w'')
    (apart : files.Pairwise fun p q => p.place w.here ≠ q.place w.here)
    (perm : files.Perm files') :
    (∀ l, w'.tree.find? l = w''.tree.find? l) ∧ report.files.Perm report'.files ∧
      report.styleFiles.Perm report'.styleFiles := by
  rw [← h.order, ← h'.order] at perm
  rw [← h.order, List.pairwise_map] at apart
  have treatments := treatments_perm h.each h'.each perm
  have groups : (groupsOf xs).Perm (groupsOf ys) := treatments.flatMap_right _
  have styled := styleFiles_perm formats h.styled h'.styled groups
  have files_apart : xs.Pairwise fun x y =>
      ∀ v ∈ x.writes, ∀ u ∈ y.writes, v.1.place w.here ≠ u.1.place w.here := by
    refine apart.imp ?_
    intro x y different v mv u mu
    rw [x.eq_file_of_mem_writes mv, y.eq_file_of_mem_writes mu]
    exact different
  refine ⟨?_, ?_, ?_⟩
  · intro l
    rw [h.journaled.tree, h'.journaled.tree]
    simp only [asFiles_append, overlay_append]
    rw [overlay_asFiles_perm treatments files_apart,
      overlay_asFiles_perm styled (styleFiles_apart h.styled (groups_apart h.each apart))]
  · rw [h.reports, h'.reports]
    exact treatments.map _
  · rw [h.styleReports, h'.styleReports]
    exact groups.map _

/-- Two migrations have left the same files, and tell the same of each file and of each style file. -/
structure Agree (w' w'' : Workspace σ) (report report' : Report) : Prop where
  tree (l : Location) : w'.tree.find? l = w''.tree.find? l
  files : report.files.Perm report'.files
  styleFiles : report.styleFiles.Perm report'.styleFiles

def searching (m : Migration σ) (dirs : List String) : Migration σ :=
  { m with config := { m.config with sourceDirs := dirs } }

theorem searching_rewriteFile (m : Migration σ) (dirs : List String) (table : StyleTable)
    (components : Collection) (file : Path) :
    (m.searching dirs).rewriteFile table components file
      = m.rewriteFile table components file := by
  rw [rewriteFile_eq_bind, rewriteFile_eq_bind]
  rfl

theorem searching_rewriteAll (m : Migration σ) (dirs : List String) (table : StyleTable)
    (components : Collection) (files : List Path) :
    (m.searching dirs).rewriteAll table components files = m.rewriteAll table components files := by
  induction files generalizing components with
  | nil => rfl
  | cons file files ih =>
      rw [rewriteAll, rewriteAll]
      simp only [searching_rewriteFile, ih]

theorem searching_appendAll (m : Migration σ) (dirs : List String) (companion : Path)
    (text : String) (cs : List Styled) :
    (m.searching dirs).appendAll companion text cs = m.appendAll companion text cs := by
  induction cs generalizing text with
  | nil => rfl
  | cons c cs ih =>
      rw [appendAll, appendAll]
      simp only [ih]
      rfl

theorem searching_carryOut (m : Migration σ) (dirs : List String) (styles : Styles)
    (files : List Path) :
    (m.searching dirs).carryOut styles files = m.carryOut styles files := by
  have styling : (m.searching dirs).writeStyleFiles = m.writeStyleFiles := by
    funext components
    unfold writeStyleFiles writeStyleFile
    simp only [searching_appendAll]
    rfl
  unfold carryOut rewriteFiles
  rw [searching_rewriteAll, styling]
  rfl

theorem targets_searching {dirs : List String} {files files' : List Path}
    (perm : m.config.sourceDirs.Perm dirs) (h : m.targets w = (.ok files, w'))
    (h' : (m.searching dirs).targets w = (.ok files', w')) : files.Perm files' := by
  obtain ⟨places, sources, rfl, -⟩ := targets_ok h
  obtain ⟨places', sources', rfl, -⟩ := targets_ok h'
  have resolved := perm.map fun dir => Project.resolve m.root ⟨dir⟩
  have resolved' : dirs.map (fun dir => Project.resolve m.root ⟨dir⟩) = places'.map .ok := sources'
  rw [sources, resolved', List.map_perm_map_iff fun _ _ => Except.ok.inj] at resolved
  exact resolved.flatMap_right _

theorem carryOut_perm (real : m.dryRun = false) (formats : m.formatter.Computes format)
    {styles : Styles} {files files' : List Path} {report report' : Report} {w'' : Workspace σ}
    (holds : w.tree.Holds w.here styles.sheet)
    (apart : files.Pairwise fun p q => p.place w.here ≠ q.place w.here)
    (perm : files.Perm files') (h : m.carryOut styles files w = (.ok report, w'))
    (h' : m.carryOut styles files' w = (.ok report', w'')) : Agree w' w'' report report' := by
  have apart' := (perm.pairwise_iff fun different => Ne.symm different).mp apart
  obtain ⟨xs, fs, account⟩ := carryOut_account real formats holds apart h
  obtain ⟨ys, fs', account'⟩ := carryOut_account real formats holds apart' h'
  obtain ⟨tree, files, styleFiles⟩ := account.perm formats account' apart perm
  exact ⟨tree, files, styleFiles⟩

/-- Files are processed independently. Of the components made before, only those of a file itself
count for it, and targets that differ, as those of source directories apart, may come in any order. -/
theorem independent_of_order :
    (∀ (s : Component.Synthesizer) (file : Path) (cs cs' : Collection),
      cs.forFile file = cs'.forFile file →
        (∀ es, ∃ outcome new, s.synthesizeFile file es cs = (outcome, cs ++ new) ∧
          s.synthesizeFile file es cs' = (outcome, cs' ++ new)) ∧
        ∀ attr source l,
          Rewrite.run attr file source l cs = Rewrite.run attr file source l cs') ∧
    ∀ (m : Migration σ) (compile : String → Path → Except ToolError String)
      (format : String → Path → Path → Except ToolError String) (w : Workspace σ),
      m.dryRun = false → m.compiler.Computes compile → m.formatter.Computes format →
      w.tree.ProperNames →
        (∀ styles files files' report report' w' w'', m.prepare w = (.ok (styles, files), w) →
          (files.Pairwise fun p q => p.same q = false) → files.Perm files' →
          m.carryOut styles files w = (.ok report, w') →
          m.carryOut styles files' w = (.ok report', w'') → Agree w' w'' report report') ∧
        ∀ dirs report report' w' w'', m.DisjointSources → m.config.sourceDirs.Perm dirs →
          m.run w = (.ok report, w') → (m.searching dirs).run w = (.ok report', w'') →
          Agree w' w'' report report' := by
  refine ⟨?_, ?_⟩
  · intro s file cs cs' same
    exact ⟨Component.synthesizeFile_congr same, fun attr => Rewrite.run_congr same⟩
  intro m compile format w real compiles formats proper
  refine ⟨?_, ?_⟩
  · intro styles files files' report report' w' w'' prepared different perm done done'
    obtain ⟨-, -, chosen⟩ := prepare_computed compiles prepared
    obtain ⟨rooted, straight⟩ := targets_straight proper chosen
    refine carryOut_perm real formats (prepare_holds prepared) ?_ perm done done'
    refine different.imp_of_mem ?_
    intro p q mp mq other place
    rw [Path.same_iff.mpr (Path.same_of_place (straight p mp) (straight q mq) place)] at other
    cases other
  · intro dirs report report' w' w'' disjoint perm done done'
    rw [run_eq_carryOut] at done done'
    obtain ⟨⟨styles, files⟩, w₁, prepared, carried⟩ := Task.bind_eq_ok_iff.mp done
    obtain ⟨⟨styles', files'⟩, w₂, prepared', carried'⟩ := Task.bind_eq_ok_iff.mp done'
    obtain ⟨rfl, extracted, chosen⟩ := prepare_computed compiles prepared
    obtain ⟨rfl, extracted', chosen'⟩ := prepare_computed (m := m.searching dirs) compiles prepared'
    have again : m.extractStyles w₂ = (.ok styles', w₂) := extracted'
    rw [extracted] at again
    cases again
    rw [searching_carryOut] at carried'
    exact carryOut_perm real formats (prepare_holds prepared) (targets_apart proper disjoint chosen)
      (targets_searching perm chosen chosen') carried carried'

/-- A project with two source directories. Its formatter ends each text with a new line. -/
def pairTree : FileTree where
  entries := [(["p"], .directory), (["p", "s.css"], .file (.text "") false),
    (["p", "lib"], .directory), (["p", "lib", "B.jsx"], .file (.text "b") false),
    (["p", "src"], .directory), (["p", "src", "A.jsx"], .file (.text smallSource) false)]
  nodup := by decide

def pair : Migration Unit :=
  { small with
    config := { small.config with sourceDirs := ["src", "lib"], targetNames := ["A", "B"] }
    formatter := ⟨"newline", fun source _ _ => pure (source ++ "\n")⟩ }

def pairStart : Workspace Unit := { tree := pairTree, here := [], memory := () }

def pairText : String := smallRewritten ++ "\n"

def pairStyles : String := pair.header ++ "\n" ++ smallComponent.definition ++ "\n"

def pairSheet : Styles := ⟨StyleTable.ofCss "", "", ⟨"/p/s.css"⟩⟩

def put (w : Workspace Unit) (l : Location) (p : Path) (s : String) : Workspace Unit :=
  { w with tree := w.tree.set l (.file (.text s) false), writes := w.writes ++ [(p, s)] }

def pairRewritten (w : Workspace Unit) : Workspace Unit :=
  put w ["p", "src", "A.jsx"] ⟨"/p/src/A.jsx"⟩ pairText

def pairPlain (w : Workspace Unit) : Workspace Unit :=
  put w ["p", "lib", "B.jsx"] ⟨"/p/lib/B.jsx"⟩ "b\n"

def pairStyled (w : Workspace Unit) : Workspace Unit :=
  put w ["p", "src", "A.style.jsx"] ⟨"/p/src/A.style.jsx"⟩ pairStyles

def pairEnd (w : Workspace Unit) : Workspace Unit :=
  put (pairStyled w) ["p", "s.css"] ⟨"/p/s.css"⟩ ""

theorem pair_targets :
    pair.targets pairStart = (.ok [⟨"/p/src/A.jsx"⟩, ⟨"/p/lib/B.jsx"⟩], pairStart) ∧
    (pair.searching ["lib", "src"]).targets pairStart
      = (.ok [⟨"/p/lib/B.jsx"⟩, ⟨"/p/src/A.jsx"⟩], pairStart) := by
  have located : pairTree.locate [] ⟨"/p/src"⟩ = .ok ["p", "src"] := rfl
  have located' : pairTree.locate [] ⟨"/p/lib"⟩ = .ok ["p", "lib"] := rfl
  have src : pair.targetsBelow pairTree [] ⟨"/p/src"⟩ = [⟨"/p/src/A.jsx"⟩] := by
    unfold targetsBelow
    rw [Project.listFiles_of_located located rfl, Project.visit_of_files (by decide) (by decide)]
    rfl
  have lib : pair.targetsBelow pairTree [] ⟨"/p/lib"⟩ = [⟨"/p/lib/B.jsx"⟩] := by
    unfold targetsBelow
    rw [Project.listFiles_of_located located' rfl, Project.visit_of_files (by decide) (by decide)]
    rfl
  have sources : pair.Sources [⟨"/p/src"⟩, ⟨"/p/lib"⟩] := rfl
  have sources' : (pair.searching ["lib", "src"]).Sources [⟨"/p/lib"⟩, ⟨"/p/src"⟩] := rfl
  have lists : [(⟨"/p/src"⟩ : Path), ⟨"/p/lib"⟩].flatMap (pair.targetsBelow pairTree [])
      = [⟨"/p/src/A.jsx"⟩, ⟨"/p/lib/B.jsx"⟩] := by
    rw [List.flatMap_cons, List.flatMap_singleton, src, lib]
    rfl
  have lists' : [(⟨"/p/lib"⟩ : Path), ⟨"/p/src"⟩].flatMap (pair.targetsBelow pairTree [])
      = [⟨"/p/lib/B.jsx"⟩, ⟨"/p/src/A.jsx"⟩] := by
    rw [List.flatMap_cons, List.flatMap_singleton, src, lib]
    rfl
  refine ⟨?_, ?_⟩
  · rw [targets_of_sources sources]
    exact congrArg (fun files => (Except.ok files, pairStart)) lists
  · rw [targets_of_sources sources']
    exact congrArg (fun files => (Except.ok files, pairStart)) lists'

theorem pair_draft : pair.draft (StyleTable.ofCss "") [] ⟨"/p/src/A.jsx"⟩ smallSource
    = .ok (⟨["AStyle"], 0, ["p"]⟩, [smallComponent], ⟨smallRewritten, 1, ["AStyle"]⟩) := small_draft

theorem pair_draft_plain (table : StyleTable) {components : Collection}
    (none : components.forFile ⟨"/p/lib/B.jsx"⟩ = []) :
    pair.draft table components ⟨"/p/lib/B.jsx"⟩ "b"
      = .ok (⟨[], 0, []⟩, components, ⟨"b", 0, []⟩) := by
  have scanned : (Markup.scanSource pair.config.classAttribute ⟨"/p/lib/B.jsx"⟩ "b"
      .jsx).toOption = some [] := by decide
  refine draft_eq_ok_iff.mpr ⟨.jsx, [], rfl, ok_of_toOption scanned, rfl, ?_⟩
  unfold Rewrite.run
  rw [none]
  rfl

def pairReport : FileReport := ⟨⟨"src/A.jsx"⟩, ["AStyle"], 0, ["p"], true⟩

def pairPlainReport : FileReport := ⟨⟨"lib/B.jsx"⟩, [], 0, [], true⟩

theorem pair_rewriteFile {v : Workspace Unit}
    (read : v.tree.readText v.here ⟨"/p/src/A.jsx"⟩ = .ok smallSource)
    (persisted : pair.persist ⟨"/p/src/A.jsx"⟩ pairText v = (.ok true, pairRewritten v)) :
    pair.rewriteFile (StyleTable.ofCss "") [] ⟨"/p/src/A.jsx"⟩ v
      = (.ok ([smallComponent], pairReport), pairRewritten v) := by
  have language : Language.ofExtension ((⟨"/p/src/A.jsx"⟩ : Path).extension?.getD "")
      = .ok .jsx := rfl
  have formatted : pair.format ⟨"/p/src/A.jsx"⟩ smallRewritten v = (.ok pairText, v) := rfl
  have settled : pair.settle ⟨"/p/src/A.jsx"⟩ smallSource pairText v = (.ok true, pairRewritten v) :=
    settle_of_changed (by decide) persisted
  exact rewriteFile_of_steps language read pair_draft formatted settled

theorem pair_rewriteFile_plain {v : Workspace Unit} {components : Collection}
    (none : components.forFile ⟨"/p/lib/B.jsx"⟩ = [])
    (read : v.tree.readText v.here ⟨"/p/lib/B.jsx"⟩ = .ok "b")
    (persisted : pair.persist ⟨"/p/lib/B.jsx"⟩ "b\n" v = (.ok true, pairPlain v)) :
    pair.rewriteFile (StyleTable.ofCss "") components ⟨"/p/lib/B.jsx"⟩ v
      = (.ok (components, pairPlainReport), pairPlain v) := by
  have language : Language.ofExtension ((⟨"/p/lib/B.jsx"⟩ : Path).extension?.getD "")
      = .ok .jsx := rfl
  have formatted : pair.format ⟨"/p/lib/B.jsx"⟩ "b" v = (.ok "b\n", v) := rfl
  have settled : pair.settle ⟨"/p/lib/B.jsx"⟩ "b" "b\n" v = (.ok true, pairPlain v) :=
    settle_of_changed (by decide) persisted
  exact rewriteFile_of_steps language read (pair_draft_plain _ none) formatted settled

theorem pair_rewriteAll :
    pair.rewriteAll (StyleTable.ofCss "") [] [⟨"/p/src/A.jsx"⟩, ⟨"/p/lib/B.jsx"⟩] pairStart
        = (.ok ⟨[smallComponent], [pairReport, pairPlainReport]⟩,
          pairPlain (pairRewritten pairStart)) ∧
      pair.rewriteAll (StyleTable.ofCss "") [] [⟨"/p/lib/B.jsx"⟩, ⟨"/p/src/A.jsx"⟩] pairStart
        = (.ok ⟨[smallComponent], [pairPlainReport, pairReport]⟩,
          pairRewritten (pairPlain pairStart)) := by
  refine ⟨?_, ?_⟩
  · have first := pair_rewriteFile (v := pairStart) rfl rfl
    have others : Collection.forFile [smallComponent] ⟨"/p/lib/B.jsx"⟩ = [] := by decide
    have second := pair_rewriteFile_plain (v := pairRewritten pairStart) others rfl rfl
    exact (Task.bind_of_ok first _).trans
      ((Task.bind_of_ok (Task.bind_of_ok second _) _).trans rfl)
  · have others : Collection.forFile [] ⟨"/p/lib/B.jsx"⟩ = [] := rfl
    have first := pair_rewriteFile_plain (v := pairStart) others rfl rfl
    have second := pair_rewriteFile (v := pairPlain pairStart) rfl rfl
    exact (Task.bind_of_ok first _).trans
      ((Task.bind_of_ok (Task.bind_of_ok second _) _).trans rfl)

theorem pair_carryOut {files : List Path} {reports : List FileReport} {v : Workspace Unit}
    (rewritten : pair.rewriteAll (StyleTable.ofCss "") [] files pairStart
      = (.ok ⟨[smallComponent], reports⟩, v))
    (styled : pair.persist ⟨"/p/src/A.style.jsx"⟩ pairStyles v = (.ok true, pairStyled v))
    (replaced : pair.replaceSheet pairSheet (pairStyled v) = (.ok ⟨"s.css"⟩, pairEnd v)) :
    ∃ report, pair.carryOut pairSheet files pairStart = (.ok report, pairEnd v) := by
  have formatted : pair.format ⟨"/p/src/A.style.jsx"⟩
      (pair.header ++ "\n" ++ smallComponent.definition) v = (.ok pairStyles, v) := rfl
  have appended : pair.appendAll ⟨"/p/src/A.style.jsx"⟩ pair.header [smallComponent] v
      = (.ok (), pairStyled v) :=
    (Task.bind_of_ok formatted _).trans ((Task.bind_of_ok styled _).trans rfl)
  have written : pair.writeStyleFiles [smallComponent] v
      = (.ok [⟨⟨"src/A.style.jsx"⟩, ["AStyle"]⟩], pairStyled v) := by
    change [(⟨"/p/src/A.style.jsx"⟩, [smallComponent])].mapM
      (fun g : Path × List Styled => pair.writeStyleFile g.1 g.2) v = _
    rw [List.mapM_cons, List.mapM_nil]
    exact (Task.bind_of_ok ((Task.bind_of_ok appended _).trans rfl) _).trans rfl
  refine ⟨pair.report pairSheet ⟨[smallComponent], reports⟩
    [⟨⟨"src/A.style.jsx"⟩, ["AStyle"]⟩] ⟨"s.css"⟩, ?_⟩
  refine (Task.bind_of_ok rewritten _).trans ((Task.bind_of_ok written _).trans ?_)
  exact (Task.bind_of_ok replaced _).trans rfl

theorem pair_prepare :
    pair.prepare pairStart
      = (.ok (pairSheet, [⟨"/p/src/A.jsx"⟩, ⟨"/p/lib/B.jsx"⟩]), pairStart) ∧
    (pair.searching ["lib", "src"]).prepare pairStart
      = (.ok (pairSheet, [⟨"/p/lib/B.jsx"⟩, ⟨"/p/src/A.jsx"⟩]), pairStart) := by
  have extracted : pair.extractStyles pairStart = (.ok pairSheet, pairStart) := rfl
  obtain ⟨targets, targets'⟩ := pair_targets
  exact ⟨(Task.bind_of_ok extracted _).trans ((Task.bind_of_ok targets _).trans rfl),
    (Task.bind_of_ok extracted _).trans ((Task.bind_of_ok targets' _).trans rfl)⟩

theorem pair_disjoint : pair.DisjointSources := by
  intro dirs sources
  have places : pair.config.sourceDirs.map (fun dir => Project.resolve pair.root ⟨dir⟩)
      = [(⟨"/p/src"⟩ : Path), ⟨"/p/lib"⟩].map .ok := rfl
  rw [Sources, places, List.map_inj_right fun _ _ => Except.ok.inj] at sources
  rw [← sources]
  decide

theorem independent_of_order_pair :
    Collection.forFile [] ⟨"/p/lib/B.jsx"⟩ = Collection.forFile [smallComponent] ⟨"/p/lib/B.jsx"⟩ ∧
    (∃ outcome new, (⟨StyleTable.ofCss "", "Style"⟩ : Component.Synthesizer).synthesizeFile
      ⟨"/p/lib/B.jsx"⟩ smallElements [smallComponent] = (outcome, [smallComponent] ++ new)) ∧
    pair.dryRun = false ∧ pair.compiler.Computes (fun _ _ => .ok "") ∧
    pair.formatter.Computes (fun s _ _ => .ok (s ++ "\n")) ∧ pairStart.tree.ProperNames ∧
    pair.DisjointSources ∧ pair.config.sourceDirs.Perm ["lib", "src"] ∧
    ∃ report report',
      pair.run pairStart = (.ok report, pairEnd (pairPlain (pairRewritten pairStart))) ∧
      (pair.searching ["lib", "src"]).run pairStart
        = (.ok report', pairEnd (pairRewritten (pairPlain pairStart))) ∧
      Agree (pairEnd (pairPlain (pairRewritten pairStart)))
        (pairEnd (pairRewritten (pairPlain pairStart))) report report' := by
  have compiles : pair.compiler.Computes fun _ _ => .ok "" := fun _ _ _ => rfl
  have formats : pair.formatter.Computes fun s _ _ => .ok (s ++ "\n") := fun _ _ _ _ => rfl
  have proper : pairStart.tree.ProperNames := by decide
  have perm : pair.config.sourceDirs.Perm ["lib", "src"] := List.Perm.swap "lib" "src" []
  have none : Collection.forFile [] ⟨"/p/lib/B.jsx"⟩
      = Collection.forFile [smallComponent] ⟨"/p/lib/B.jsx"⟩ := by decide +kernel
  obtain ⟨prepared, prepared'⟩ := pair_prepare
  obtain ⟨rewritten, rewritten'⟩ := pair_rewriteAll
  obtain ⟨report, carried⟩ := pair_carryOut rewritten rfl rfl
  obtain ⟨report', carried'⟩ := pair_carryOut rewritten' rfl rfl
  have done : pair.run pairStart
      = (.ok report, pairEnd (pairPlain (pairRewritten pairStart))) := by
    rw [run_eq_carryOut]
    exact (Task.bind_of_ok prepared _).trans carried
  have done' : (pair.searching ["lib", "src"]).run pairStart
      = (.ok report', pairEnd (pairRewritten (pairPlain pairStart))) := by
    rw [run_eq_carryOut]
    refine (Task.bind_of_ok prepared' _).trans ?_
    rw [searching_carryOut]
    exact carried'
  obtain ⟨alone, runs⟩ := independent_of_order (σ := Unit)
  obtain ⟨outcome, new, -, made⟩ :=
    (alone ⟨StyleTable.ofCss "", "Style"⟩ ⟨"/p/lib/B.jsx"⟩ [] [smallComponent] none).1 smallElements
  have agree := (runs pair _ _ pairStart rfl compiles formats proper).2 ["lib", "src"] report report'
    _ _ pair_disjoint perm done done'
  exact ⟨none, ⟨outcome, new, made⟩, rfl, compiles, formats, proper, pair_disjoint, perm, report,
    report', done, done', agree⟩

end Restyle.Migration
