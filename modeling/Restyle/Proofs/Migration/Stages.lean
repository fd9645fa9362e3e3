import Restyle.Migration.Run
import Restyle.Proofs.Component.Companion
import Restyle.Proofs.Rewrite.Outcome
import Restyle.Proofs.Workspace.Continuation
import Restyle.Proofs.Workspace.Journal
/-!
The stages of a migration, each with what it does when it succeeds and when it fails.
-/

namespace Restyle.Migration

open Component (Collection Styled FileSynthesis)
open Sheet (StyleTable)

variable {σ : Type} {m : Migration σ} {w w' : Workspace σ}

theorem place_keeps {R : Workspace σ → Workspace σ → Prop} (refl : ∀ w, R w w) (m : Migration σ)
    (p : String) : (m.place p).Keeps R := by
  unfold place
  split
  · exact .pure refl _
  · exact .throw refl _

theorem place_quiet (m : Migration σ) (p : String) : (m.place p).Quiet :=
  place_keeps Workspace.SameFiles.refl m p

theorem targets_keeps {R : Workspace σ → Workspace σ → Prop} (refl : ∀ w, R w w)
    (trans : ∀ w w' w'', R w w' → R w' w'' → R w w'') (m : Migration σ) : m.targets.Keeps R :=
  have c := Task.Keeps.composes MigrationError refl trans
  c.bind (c.mapM (fun dir => c.bind (place_keeps refl m dir) fun _ => .look refl _) _)
    fun lists => c.pure lists.flatten

theorem targets_quiet (m : Migration σ) : m.targets.Quiet :=
  targets_keeps Workspace.SameFiles.refl (fun _ _ _ => .trans) m

theorem readText_quiet (p : Path) : (Task.readText p : Task σ FileError String).Quiet := .look _

theorem extractStyles_keeps {R : Workspace σ → Workspace σ → Prop} (refl : ∀ w, R w w)
    (trans : ∀ w w' w'', R w w' → R w' w'' → R w w'')
    (compiles : ∀ source, (m.compiler.compile source m.root).Keeps R) : m.extractStyles.Keeps R :=
  have c := Task.Keeps.composes MigrationError refl trans
  c.bind (place_keeps refl m _) fun _ => c.bind (.mapError (.look refl _) _) fun source =>
    c.bind ((compiles source).mapError _) fun _ => c.bind ((compiles _).mapError _) fun _ => c.pure _

theorem extractStyles_quiet (quiet : m.compiler.Quiet) : m.extractStyles.Quiet :=
  extractStyles_keeps Workspace.SameFiles.refl (fun _ _ _ => .trans) fun source =>
    quiet source m.root

/-- The stages before the first write. -/
def prepare (m : Migration σ) : Task σ MigrationError (Styles × List Path) := do
  let styles ← m.extractStyles
  let files ← m.targets
  return (styles, files)

theorem prepare_ok {styles : Styles} {files : List Path}
    (h : m.prepare w = (.ok (styles, files), w')) :
    ∃ w₁, m.extractStyles w = (.ok styles, w₁) ∧ m.targets w₁ = (.ok files, w') := by
  obtain ⟨_, w₁, extracted, h⟩ := Task.bind_eq_ok_iff.mp h
  obtain ⟨_, w₂, chosen, h⟩ := Task.bind_eq_ok_iff.mp h
  cases h
  exact ⟨w₁, extracted, chosen⟩

/-- Before the first write only the compiler can change anything. -/
theorem prepare_keeps {R : Workspace σ → Workspace σ → Prop} (refl : ∀ w, R w w)
    (trans : ∀ w w' w'', R w w' → R w' w'' → R w w'')
    (compiles : ∀ source, (m.compiler.compile source m.root).Keeps R) : m.prepare.Keeps R :=
  have c := Task.Keeps.composes MigrationError refl trans
  c.bind (extractStyles_keeps refl trans compiles) fun _ =>
    c.bind (targets_keeps refl trans m) fun _ => c.pure _

theorem prepare_quiet (quiet : m.compiler.Quiet) : m.prepare.Quiet :=
  prepare_keeps Workspace.SameFiles.refl (fun _ _ _ => .trans) fun source => quiet source m.root

theorem prepare_holds {styles : Styles} {files : List Path}
    (h : m.prepare w = (.ok (styles, files), w')) : w.tree.Holds w.here styles.sheet := by
  obtain ⟨w₀, extracted, -⟩ := prepare_ok h
  obtain ⟨sheet, w₁, placed, reading⟩ := Task.bind_eq_ok_iff.mp extracted
  obtain ⟨source, w₂, read, compiling⟩ := Task.bind_eq_ok_iff.mp reading
  obtain ⟨css, w₃, -, more⟩ := Task.bind_eq_ok_iff.mp compiling
  obtain ⟨baseCss, w₄, -, result⟩ := Task.bind_eq_ok_iff.mp more
  obtain ⟨rfl, -⟩ := Task.pure_eq_ok_iff.mp result
  have found := (Task.look_eq_iff.mp (Task.mapError_eq_ok_iff.mp read)).1
  have same := (place_quiet m _).apply placed
  rw [same.tree, same.here] at found
  exact FileTree.holds_of_readText found

/-- What becomes of a file with a source before it is formatted. -/
def draft (m : Migration σ) (table : StyleTable) (components : Collection) (file : Path)
    (source : String) : Except MigrationError (FileSynthesis × Collection × Rewritten) := do
  let language ← (Language.ofExtension (file.extension?.getD "")).mapError
    (.unsupported (m.shown file))
  let elements ← (Markup.scanSource m.config.classAttribute file source language).mapError
    (.unscannable (m.shown file))
  let made := (⟨table, m.config.componentSuffix⟩ : Component.Synthesizer).synthesizeFile file
    elements components
  let rewritten ← (Rewrite.run m.config.classAttribute file source language made.2).mapError
    (.ofRewrite (m.shown file))
  return (made.1, made.2, rewritten)

/-- Writes what a file has become where it is not what the file was. -/
def settle (m : Migration σ) (file : Path) (source text : String) : Task σ MigrationError Bool :=
  if text != source then m.persist file text else pure false

/-- Formats and writes what has become of a file. -/
def finish (m : Migration σ) (file : Path) (source : String)
    (drafted : FileSynthesis × Collection × Rewritten) :
    Task σ MigrationError (Collection × FileReport) := do
  let text ← m.format file drafted.2.2.content
  let written ← m.settle file source text
  return (drafted.2.1, ⟨m.shown file, drafted.1.created, drafted.1.reused, drafted.1.droppedTokens,
    written⟩)

theorem ok_bind {ε α β : Type} (a : α) (f : α → Except ε β) : Except.ok a >>= f = f a := rfl

theorem error_bind {ε α β : Type} (e : ε) (f : α → Except ε β) :
    (Except.error e : Except ε α) >>= f = .error e := rfl

theorem rewriteFile_eq (m : Migration σ) (table : StyleTable) (components : Collection)
    (file : Path) (w : Workspace σ) :
    m.rewriteFile table components file w =
      match Language.ofExtension (file.extension?.getD "") with
      | .error e => (.error (.unsupported (m.shown file) e), w)
      | .ok _ =>
        match w.tree.readText w.here file with
        | .error e => (.error (.files file e), w)
        | .ok source =>
          match m.draft table components file source with
          | .error e => (.error e, w)
          | .ok drafted => m.finish file source drafted w := by
  unfold rewriteFile draft
  -- Only the order of the steps counts here, not what they do.
  generalize Language.ofExtension (file.extension?.getD "") = language
  generalize Markup.scanSource m.config.classAttribute file = scan
  generalize Rewrite.run m.config.classAttribute file = rewrite
  cases language with
  | error e =>
      simp only [Task.throw_bind]
      exact Task.throw_apply _ w
  | ok l =>
      simp only [pure_bind]
      have reading : Task.readText file w = (w.tree.readText w.here file, w) :=
        Task.readText_apply file w
      cases read : w.tree.readText w.here file with
      | error e =>
          rw [read] at reading
          exact Task.bind_of_error (Task.mapError_of_error reading (MigrationError.files file)) _
      | ok source =>
          rw [read] at reading
          have found := Task.mapError_of_ok reading (MigrationError.files file)
          refine (Task.bind_of_ok found _).trans ?_
          simp only [Except.mapError, ok_bind]
          cases scan source l with
          | error l' =>
              simp only [Task.throw_bind, error_bind]
              exact Task.throw_apply _ w
          | ok elements =>
              simp only [ok_bind]
              generalize (⟨table, m.config.componentSuffix⟩ : Component.Synthesizer).synthesizeFile
                file elements components = made
              cases rewrite source l made.2 with
              | error e =>
                  simp only [Task.throw_bind, error_bind]
                  exact Task.throw_apply _ w
              | ok rewritten =>
                  simp only [ok_bind]
                  change (m.format file rewritten.content >>= _) w
                    = (m.format file rewritten.content >>= _) w
                  refine congrArg (fun f => (m.format file rewritten.content >>= f) w) ?_
                  funext text
                  unfold settle
                  cases text != source <;> rfl

theorem draft_eq_ok_iff {table : StyleTable} {components : Collection} {file : Path}
    {source : String} {drafted : FileSynthesis × Collection × Rewritten} :
    m.draft table components file source = .ok drafted ↔ ∃ l elements,
      Language.ofExtension (file.extension?.getD "") = .ok l ∧
      Markup.scanSource m.config.classAttribute file source l = .ok elements ∧
      (drafted.1, drafted.2.1) = (⟨table, m.config.componentSuffix⟩ :
        Component.Synthesizer).synthesizeFile file elements components ∧
      Rewrite.run m.config.classAttribute file source l drafted.2.1 = .ok drafted.2.2 := by
  unfold draft
  generalize Markup.scanSource m.config.classAttribute file source = scan
  generalize Rewrite.run m.config.classAttribute file source = rewrite
  simp only [bind_eq_ok_iff, mapError_eq_ok_iff]
  constructor
  · rintro ⟨l, language, elements, scanned, rewritten, done, result⟩
    cases result
    exact ⟨l, elements, language, scanned, rfl, done⟩
  · rintro ⟨l, elements, language, scanned, made, done⟩
    refine ⟨l, language, elements, scanned, drafted.2.2, ?_, ?_⟩
    · rw [← made]
      exact done
    · rw [← made]
      rfl

/-- The files that are rewritten have names, and their components go to their companions. -/
theorem draft_ok {table : StyleTable} {components : Collection} {file : Path} {source : String}
    {drafted : FileSynthesis × Collection × Rewritten}
    (h : m.draft table components file source = .ok drafted) :
    (∃ s, file.fileName? = some s) ∧
      ∀ c ∈ drafted.2.1, c ∈ components ∨ c.companion = Component.companionPath file := by
  obtain ⟨l, elements, language, -, made, -⟩ := draft_eq_ok_iff.mp h
  refine ⟨?_, ?_⟩
  · cases name : file.fileName? with
    | some s => exact ⟨s, rfl⟩
    | none =>
        rw [Path.extension?, name] at language
        cases language
  · intro c member
    have result := congrArg Prod.snd made
    dsimp only at result
    rw [result] at member
    exact Component.companion_of_mem_synthesizeFile member

theorem persist_ok {p : Path} {s : String} {written : Bool} (real : m.dryRun = false)
    (h : m.persist p s w = (.ok written, w')) :
    written = true ∧ Task.writeText p s w = (.ok (), w') := by
  unfold persist at h
  rw [if_neg (by rw [real]; exact Bool.false_ne_true)] at h
  obtain ⟨_, w₁, wrote, done⟩ := Task.bind_eq_ok_iff.mp h
  cases done
  exact ⟨rfl, Task.mapError_eq_ok_iff.mp wrote⟩

theorem persist_error {p : Path} {s : String} {e : MigrationError}
    (h : m.persist p s w = (.error e, w')) : w' = w := by
  unfold persist at h
  split at h
  · cases h
  · rcases Task.bind_eq_error_iff.mp h with failed | ⟨_, w₁, _, done⟩
    · obtain ⟨cause, failed, -⟩ := Task.mapError_eq_error_iff.mp failed
      exact Task.writeText_error failed
    · cases done

theorem format_quiet (quiet : m.formatter.Quiet) (p : Path) (s : String) :
    (m.format p s).Quiet :=
  (quiet s p m.root).mapError _

/-- A file that has been rewritten: what it was and what it has become. -/
structure Revision where
  file : Path
  source : String
  text : String

def Revision.writes (r : Revision) : List (Path × String) :=
  if r.text = r.source then [] else [(r.file, r.text)]

theorem Revision.eq_file_of_mem_writes (r : Revision) {x : Path × String} (h : x ∈ r.writes) :
    x.1 = r.file := by
  unfold Revision.writes at h
  split at h
  · exact absurd h List.not_mem_nil
  · rw [List.mem_singleton.mp h]

/-- A file is read, rewritten, formatted and written. -/
structure Revises (m : Migration σ) (table : StyleTable) (components : Collection)
    (w : Workspace σ) (r : Revision) (components' : Collection) (w' : Workspace σ) : Prop where
  read : w.tree.readText w.here r.file = .ok r.source
  finished : ∃ drafted w₁ written, m.draft table components r.file r.source = .ok drafted ∧
    drafted.2.1 = components' ∧ m.format r.file drafted.2.2.content w = (.ok r.text, w₁) ∧
    m.settle r.file r.source r.text w₁ = (.ok written, w')

theorem settle_written {file : Path} {source text : String} {written : Bool}
    (real : m.dryRun = false) (h : m.settle file source text w = (.ok written, w')) :
    written = (text != source) := by
  unfold settle at h
  split at h
  · rename_i other
    rw [(persist_ok real h).1, other]
  · rename_i same
    cases h
    exact (Bool.eq_false_iff.mpr same).symm

theorem settle_ok {file : Path} {source text : String} {written : Bool} (real : m.dryRun = false)
    (holds : w.tree.Holds w.here file) (h : m.settle file source text w = (.ok written, w')) :
    w.Journaled w' (Revision.writes ⟨file, source, text⟩) := by
  unfold settle at h
  by_cases same : text = source
  · rw [if_neg (by simpa using same)] at h
    cases h
    rw [Revision.writes, if_pos same]
    exact .refl w
  · rw [if_pos (by simpa using same)] at h
    rw [Revision.writes, if_neg same]
    exact Task.writeText_ok holds (persist_ok real h).2

theorem settle_error {file : Path} {source text : String} {e : MigrationError}
    (h : m.settle file source text w = (.error e, w')) : w' = w := by
  unfold settle at h
  split at h
  · exact persist_error h
  · cases h

theorem settle_of_changed {file : Path} {source text : String} (changed : (text != source) = true)
    (persisted : m.persist file text w = (.ok true, w')) :
    m.settle file source text w = (.ok true, w') := by
  unfold settle
  rw [if_pos changed]
  exact persisted

theorem Revises.journaled {table : StyleTable} {components components' : Collection} {r : Revision}
    (real : m.dryRun = false) (quiet : m.formatter.Quiet)
    (h : m.Revises table components w r components' w') : w.Journaled w' r.writes := by
  obtain ⟨drafted, w₁, written, -, -, formatted, settled⟩ := h.finished
  have same := (format_quiet quiet _ _).apply formatted
  have holds : w₁.tree.Holds w₁.here r.file := by
    rw [same.tree, same.here]
    exact FileTree.holds_of_readText h.read
  exact .same_trans same (settle_ok real holds settled)

theorem Revises.readText {table : StyleTable} {components components' : Collection} {r : Revision}
    (real : m.dryRun = false) (quiet : m.formatter.Quiet)
    (h : m.Revises table components w r components' w') :
    w'.tree.readText w'.here r.file = .ok r.text := by
  have journaled := h.journaled real quiet
  by_cases same : r.text = r.source
  · rw [Revision.writes, if_pos same] at journaled
    rw [same]
    exact (journaled.readText_iff fun x none => absurd none List.not_mem_nil).mpr h.read
  · rw [Revision.writes, if_neg same] at journaled
    have only : [(r.file, r.text)] = [] ++ (r.file, r.text) :: [] := rfl
    rw [only] at journaled
    exact journaled.readText_of_last (fun x none => absurd none List.not_mem_nil) h.read

theorem rewriteFile_steps {table : StyleTable} {components components' : Collection} {file : Path}
    {report : FileReport}
    (h : m.rewriteFile table components file w = (.ok (components', report), w')) :
    ∃ l source drafted text w₁ written,
      Language.ofExtension (file.extension?.getD "") = .ok l ∧
      w.tree.readText w.here file = .ok source ∧
      m.draft table components file source = .ok drafted ∧
      m.format file drafted.2.2.content w = (.ok text, w₁) ∧
      m.settle file source text w₁ = (.ok written, w') ∧ components' = drafted.2.1 ∧
      report = ⟨m.shown file, drafted.1.created, drafted.1.reused, drafted.1.droppedTokens,
        written⟩ := by
  rw [rewriteFile_eq] at h
  split at h
  · cases h
  rename_i l language
  split at h
  · cases h
  rename_i source read
  split at h
  · cases h
  rename_i drafted made
  obtain ⟨text, w₁, formatted, h⟩ := Task.bind_eq_ok_iff.mp h
  obtain ⟨written, w₂, settled, h⟩ := Task.bind_eq_ok_iff.mp h
  cases h
  exact ⟨l, source, drafted, text, w₁, written, language, read, made, formatted, settled, rfl, rfl⟩

theorem rewriteFile_of_steps {table : StyleTable} {components : Collection} {file : Path}
    {l : Language} {source text : String} {drafted : FileSynthesis × Collection × Rewritten}
    {w₁ : Workspace σ} {written : Bool}
    (language : Language.ofExtension (file.extension?.getD "") = .ok l)
    (read : w.tree.readText w.here file = .ok source)
    (made : m.draft table components file source = .ok drafted)
    (formatted : m.format file drafted.2.2.content w = (.ok text, w₁))
    (settled : m.settle file source text w₁ = (.ok written, w')) :
    m.rewriteFile table components file w = (.ok (drafted.2.1, ⟨m.shown file, drafted.1.created,
      drafted.1.reused, drafted.1.droppedTokens, written⟩), w') := by
  rw [rewriteFile_eq, language, read]
  dsimp only
  rw [made]
  exact (Task.bind_of_ok formatted _).trans ((Task.bind_of_ok settled _).trans rfl)

theorem rewriteFile_ok {table : StyleTable} {components components' : Collection} {file : Path}
    {report : FileReport} (real : m.dryRun = false)
    (h : m.rewriteFile table components file w = (.ok (components', report), w')) :
    ∃ source text, m.Revises table components w ⟨file, source, text⟩ components' w' ∧
      report.path = m.shown file ∧ report.written = (text != source) := by
  obtain ⟨l, source, drafted, text, w₁, written, -, read, made, formatted, settled, rfl, rfl⟩ :=
    rewriteFile_steps h
  exact ⟨source, text, ⟨read, drafted, w₁, written, made, rfl, formatted, settled⟩, rfl,
    settle_written real settled⟩

/-- A file that fails leaves no trace. -/
theorem rewriteFile_error {table : StyleTable} {components : Collection} {file : Path}
    {e : MigrationError} (quiet : m.formatter.Quiet)
    (h : m.rewriteFile table components file w = (.error e, w')) : w.SameFiles w' := by
  rw [rewriteFile_eq] at h
  split at h
  · cases h
    exact .refl w
  split at h
  · cases h
    exact .refl w
  split at h
  · cases h
    exact .refl w
  rcases Task.bind_eq_error_iff.mp h with failed | ⟨text, w₁, formatted, h⟩
  · exact (format_quiet quiet _ _).apply failed
  · have same := (format_quiet quiet _ _).apply formatted
    rcases Task.bind_eq_error_iff.mp h with failed | ⟨written, w₂, -, h⟩
    · rw [settle_error failed]
      exact same
    · cases h

theorem Revises.holds_companion {table : StyleTable} {components components' : Collection}
    {r : Revision} (real : m.dryRun = false) (quiet : m.formatter.Quiet)
    (h : m.Revises table components w r components' w')
    (before : ∀ c ∈ components, w.tree.Holds w.here c.companion) :
    ∀ c ∈ components', w'.tree.Holds w'.here c.companion := by
  have journaled := h.journaled real quiet
  obtain ⟨drafted, w₁, written, made, rfl, -, -⟩ := h.finished
  obtain ⟨⟨name, named⟩, companions⟩ := draft_ok made
  intro c member
  apply journaled.holds
  rcases companions c member with old | own
  · exact before c old
  · rw [own]
    exact Component.holds_companionPath named (FileTree.holds_of_readText h.read)

/-- Files are rewritten one after another. -/
inductive Revisions (m : Migration σ) (table : StyleTable) :
    Collection → Workspace σ → List Revision → Collection → Workspace σ → Prop where
  | nil (components : Collection) (w : Workspace σ) :
      Revisions m table components w [] components w
  | cons {components components₁ components' : Collection} {w w₁ w' : Workspace σ} {r : Revision}
      {rs : List Revision} (first : m.Revises table components w r components₁ w₁)
      (later : Revisions m table components₁ w₁ rs components' w') :
      Revisions m table components w (r :: rs) components' w'

theorem Revisions.journaled {table : StyleTable} {components components' : Collection}
    {rs : List Revision} (real : m.dryRun = false) (quiet : m.formatter.Quiet)
    (h : m.Revisions table components w rs components' w') :
    w.Journaled w' (rs.flatMap Revision.writes) := by
  induction h with
  | nil components w => exact .refl w
  | cons first later ih =>
      rw [List.flatMap_cons]
      exact (first.journaled real quiet).trans ih

theorem Revisions.holds_companion {table : StyleTable} {components components' : Collection}
    {rs : List Revision} (real : m.dryRun = false) (quiet : m.formatter.Quiet)
    (h : m.Revisions table components w rs components' w')
    (before : ∀ c ∈ components, w.tree.Holds w.here c.companion) :
    ∀ c ∈ components', w'.tree.Holds w'.here c.companion := by
  induction h with
  | nil components w => exact before
  | cons first later ih => exact ih (first.holds_companion real quiet before)

/-- Distinct files that are rewritten one after another are each read as they were at first, and
hold in the end what they have become. -/
theorem Revisions.readText {table : StyleTable} {components components' : Collection}
    {rs : List Revision} (real : m.dryRun = false) (quiet : m.formatter.Quiet)
    (h : m.Revisions table components w rs components' w')
    (apart : rs.Pairwise fun r s => r.file.place w.here ≠ s.file.place w.here) :
    ∀ r ∈ rs, w.tree.readText w.here r.file = .ok r.source ∧
      w'.tree.readText w'.here r.file = .ok r.text := by
  -- The files before one and those behind it are all elsewhere.
  induction h with
  | nil components w => exact fun r none => absurd none List.not_mem_nil
  | @cons components components₁ components' w w₁ w' r rs first later ih =>
      have here := first.journaled real quiet
      have behind := later.journaled real quiet
      obtain ⟨others, apart⟩ := List.pairwise_cons.mp apart
      rw [← here.here] at apart
      intro s member
      rcases List.mem_cons.mp member with rfl | member
      · refine ⟨first.read, ?_⟩
        have now : w₁.tree.readText w₁.here s.file = .ok s.text := first.readText real quiet
        refine (behind.readText_iff ?_).mpr now
        intro x written
        obtain ⟨t, among, writes⟩ := List.mem_flatMap.mp written
        rw [t.eq_file_of_mem_writes writes, here.here]
        exact others t among
      · obtain ⟨source, text⟩ := ih apart s member
        refine ⟨(here.readText_iff ?_).mp source, text⟩
        intro x written
        rw [r.eq_file_of_mem_writes written]
        exact (others s member).symm

theorem rewriteAll_ok {table : StyleTable} {components : Collection} {files : List Path}
    {rewriting : Rewriting} (real : m.dryRun = false)
    (h : m.rewriteAll table components files w = (.ok rewriting, w')) :
    ∃ rs, m.Revisions table components w rs rewriting.components w' ∧ rs.map (·.file) = files ∧
      rewriting.files.map (fun f => (f.path, f.written))
        = rs.map fun r => (m.shown r.file, r.text != r.source) := by
  induction files generalizing components w rewriting with
  | nil =>
      cases h
      exact ⟨[], .nil _ _, rfl, rfl⟩
  | cons file files ih =>
      obtain ⟨⟨components₁, report⟩, w₁, here, h⟩ := Task.bind_eq_ok_iff.mp h
      obtain ⟨rest, w₂, later, h⟩ := Task.bind_eq_ok_iff.mp h
      cases h
      obtain ⟨source, text, revised, path, written⟩ := rewriteFile_ok real here
      obtain ⟨rs, revisions, order, reports⟩ := ih later
      refine ⟨⟨file, source, text⟩ :: rs, .cons revised revisions, ?_, ?_⟩
      · rw [List.map_cons, order]
      · rw [List.map_cons, List.map_cons, path, written, reports]

theorem rewriteAll_error {table : StyleTable} {components : Collection} {files : List Path}
    {e : MigrationError} (real : m.dryRun = false)
    (h : m.rewriteAll table components files w = (.error e, w')) :
    ∃ rs file later components₁ w₁, m.Revisions table components w rs components₁ w₁ ∧
      files = rs.map (·.file) ++ file :: later ∧
      m.rewriteFile table components₁ file w₁ = (.error e, w') := by
  induction files generalizing components w with
  | nil => cases h
  | cons file files ih =>
      rcases Task.bind_eq_error_iff.mp h with failed | ⟨⟨components₁, report⟩, w₁, here, h⟩
      · exact ⟨[], file, files, components, w, .nil components w, rfl, failed⟩
      · obtain ⟨source, text, revised, -, -⟩ := rewriteFile_ok real here
        rcases Task.bind_eq_error_iff.mp h with failed | ⟨rest, w₂, -, h⟩
        · obtain ⟨rs, next, later, components₂, w₂, revisions, order, stopped⟩ := ih failed
          exact ⟨⟨file, source, text⟩ :: rs, next, later, components₂, w₂,
            .cons revised revisions, by rw [order]; rfl, stopped⟩
        · cases h

end Restyle.Migration
