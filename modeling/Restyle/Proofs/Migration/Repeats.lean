import Restyle.Proofs.Migration.Outcome
/-!
Files that are rewritten more than once. The targets of the source directories come one after the
other, and a target is listed as often as source directories reach it. Each time it is listed it is
rewritten, and from the second time on what is rewritten is the text that it has become.
-/

namespace Restyle.Migration

open Component (Collection Styled)
open Restyle.Path (Straight)
open Sheet (StyleTable)

variable {σ : Type} {m : Migration σ} {w w' : Workspace σ}

/-- A source directory reaches a place if one of its targets is there. -/
def Reaches (m : Migration σ) (w : Workspace σ) (dir : Path) (l : Location) : Prop :=
  ∃ p ∈ m.targetsBelow w.tree w.here dir, p.place w.here = l

/-- No place is reached from two of the source directories. -/
def ApartSources (m : Migration σ) (w : Workspace σ) : Prop :=
  ∀ dirs, m.Sources dirs →
    dirs.Pairwise fun dir dir' => ∀ l, ¬ (m.Reaches w dir l ∧ m.Reaches w dir' l)

theorem sources_unique {dirs dirs' : List Path} (h : m.Sources dirs) (h' : m.Sources dirs') :
    dirs = dirs' :=
  (List.map_inj_right fun _ _ => Except.ok.inj).mp (h.symm.trans h')

theorem targetsBelow_apart (proper : w.tree.ProperNames) {dir : Path} {rooted : Bool}
    (straight : Straight rooted dir.components) :
    (m.targetsBelow w.tree w.here dir).Pairwise fun p q => p.place w.here ≠ q.place w.here := by
  obtain ⟨below, different⟩ := Project.listFiles_straight proper w.here straight
  refine (different.filter _).imp_of_mem ?_
  intro p q member member' apart one
  exact apart (Path.same_of_place (below p (List.mem_filter.mp member).1).1
    (below q (List.mem_filter.mp member').1).1 one)

/-- No file is a target twice exactly when no place is reached from two source directories. -/
theorem targets_apart_iff {files : List Path} (proper : w.tree.ProperNames)
    (h : m.targets w = (.ok files, w')) :
    files.Pairwise (fun p q => p.place w.here ≠ q.place w.here) ↔ m.ApartSources w := by
  obtain ⟨dirs, sources, rfl, -⟩ := targets_ok h
  obtain ⟨rooted, straight⟩ := sources_straight sources
  rw [List.pairwise_flatMap]
  constructor
  · rintro ⟨-, across⟩ dirs' sources'
    rw [← sources_unique sources sources']
    refine across.imp ?_
    rintro dir dir' apart l ⟨⟨p, listed, here⟩, q, listed', there⟩
    exact apart p listed q listed' (here.trans there.symm)
  · intro apart
    refine ⟨fun dir among => targetsBelow_apart proper (straight dir among), ?_⟩
    refine (apart dirs sources).imp ?_
    intro dir dir' apart p listed q listed' one
    exact apart _ ⟨⟨p, listed, one⟩, q, listed', rfl⟩

theorem apartSources_of_disjoint (proper : w.tree.ProperNames) (disjoint : m.DisjointSources) :
    m.ApartSources w := by
  intro dirs sources
  have chosen := targets_of_sources sources w
  exact (targets_apart_iff proper chosen).mp (targets_apart proper disjoint chosen) dirs sources

/-- The targets are rewritten as often as they are listed, and they are listed once each exactly when
no place is reached from two source directories, as when none of these is another one or inside it.
Then every file is rewritten once, from the source that it had at first, and written once at most. -/
theorem rewritten_once {files : List Path} (proper : w.tree.ProperNames)
    (chosen : m.targets w = (.ok files, w')) :
    (files.Pairwise (fun p q => p.place w.here ≠ q.place w.here) ↔ m.ApartSources w) ∧
    (m.DisjointSources → m.ApartSources w) ∧
    ∀ (styles : Styles) (rewriting : Rewriting) (w₂ : Workspace σ), m.dryRun = false →
      m.formatter.Quiet → m.rewriteFiles styles files w' = (.ok rewriting, w₂) →
      ∃ rs : List Revision, m.Revisions styles.table [] w' rs rewriting.components w₂ ∧
        rs.map (·.file) = files ∧ w₂.writes = w.writes ++ rs.flatMap Revision.writes ∧
        (m.ApartSources w →
          rs.Pairwise (fun r s => r.file.place w.here ≠ s.file.place w.here) ∧
          ∀ r ∈ rs, w.tree.readText w.here r.file = .ok r.source ∧
            w₂.tree.readText w₂.here r.file = .ok r.text) := by
  have iff := targets_apart_iff proper chosen
  obtain ⟨-, -, -, rfl⟩ := targets_ok chosen
  refine ⟨iff, apartSources_of_disjoint proper, ?_⟩
  intro styles rewriting w₂ real quiet done
  obtain ⟨rs, revised, order, -⟩ := rewriteAll_ok real done
  refine ⟨rs, revised, order, (revised.journaled real quiet).writes, ?_⟩
  intro apart
  have places := iff.mpr apart
  rw [← order, List.pairwise_map] at places
  exact ⟨places, revised.readText real quiet places⟩

theorem rewritten_once_small :
    smallTree.ProperNames ∧ small.targets smallStart = (.ok [⟨"/p/src/A.jsx"⟩], smallStart) ∧
    small.ApartSources smallStart ∧
    ∃ rs : List Revision, rs.map (·.file) = [⟨"/p/src/A.jsx"⟩] ∧
      smallRevised.writes = rs.flatMap Revision.writes ∧
      ∀ r ∈ rs, smallTree.readText [] r.file = .ok r.source ∧
        smallRevised.tree.readText [] r.file = .ok r.text := by
  have proper : smallTree.ProperNames := by decide
  obtain ⟨-, disjoint, once⟩ := rewritten_once (w := smallStart) proper small_targets
  have apart := disjoint small_disjoint
  have quiet : small.formatter.Quiet := fun source _ _ => .pure source
  have rewritten : small.rewriteFiles ⟨StyleTable.ofCss "", "", ⟨"/p/s.css"⟩⟩ [⟨"/p/src/A.jsx"⟩]
      smallStart = (.ok ⟨[smallComponent], [⟨⟨"src/A.jsx"⟩, ["AStyle"], 0, ["p"], true⟩]⟩,
        smallRevised) := small_rewriteAll rfl rfl
  obtain ⟨rs, -, order, writes, texts⟩ := once _ _ _ rfl quiet rewritten
  exact ⟨proper, small_targets, apart, rs, order, writes, (texts apart).2⟩

/-- The project with its source directory configured twice. -/
def doubled : Migration Unit :=
  { small with config := { small.config with sourceDirs := ["src", "src"] } }

theorem doubled_targets :
    doubled.targets smallStart = (.ok [⟨"/p/src/A.jsx"⟩, ⟨"/p/src/A.jsx"⟩], smallStart) := by
  have once : small.Sources [⟨"/p/src"⟩] := rfl
  have sources : doubled.Sources [⟨"/p/src"⟩, ⟨"/p/src"⟩] := rfl
  have listed := congrArg Prod.fst (small_targets.symm.trans (targets_of_sources once smallStart))
  rw [List.flatMap_singleton] at listed
  have below : doubled.targetsBelow smallStart.tree smallStart.here ⟨"/p/src"⟩
      = [⟨"/p/src/A.jsx"⟩] := (Except.ok.inj listed).symm
  rw [targets_of_sources sources, List.flatMap_cons, List.flatMap_singleton, below]
  rfl

/-- A file may be a target twice. -/
theorem targets_repeated : ¬ ∀ (m : Migration Unit) (w w' : Workspace Unit) (files : List Path),
    w.tree.ProperNames → m.targets w = (.ok files, w') → files.Nodup := by
  intro once
  have proper : smallTree.ProperNames := by decide
  exact absurd (once doubled smallStart smallStart _ proper doubled_targets) (by decide)

end Restyle.Migration
