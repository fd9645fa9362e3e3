import Restyle.Proofs.Migration.Stages
import Restyle.Proofs.Project.Listing
/-!
The targets of a migration. Where no source directory is inside another, no file is a target twice.
-/

namespace Restyle.Migration

open Restyle.Path (Straight)

variable {σ : Type} {m : Migration σ} {w w' : Workspace σ}

/-- The places that the source directories name. -/
def Sources (m : Migration σ) (dirs : List Path) : Prop :=
  m.config.sourceDirs.map (fun dir => Project.resolve m.root ⟨dir⟩) = dirs.map .ok

def targetsBelow (m : Migration σ) (t : FileTree) (here : Location) (dir : Path) : List Path :=
  Project.selectTargets (Project.listFiles t here dir) m.config.targetNames m.config.extensions

theorem place_ok {p : String} {q : Path} (h : m.place p w = (.ok q, w')) :
    Project.resolve m.root ⟨p⟩ = .ok q ∧ w' = w := by
  unfold place at h
  cases resolved : Project.resolve m.root ⟨p⟩ with
  | error r =>
      rw [resolved] at h
      cases h
  | ok place =>
      rw [resolved] at h
      cases h
      exact ⟨rfl, rfl⟩

theorem targetsIn_ok {dir : String} {files : List Path}
    (h : m.targetsIn dir w = (.ok files, w')) :
    ∃ p, Project.resolve m.root ⟨dir⟩ = .ok p ∧ files = m.targetsBelow w.tree w.here p ∧ w' = w := by
  obtain ⟨p, w₁, placed, looked⟩ := Task.bind_eq_ok_iff.mp h
  obtain ⟨resolved, rfl⟩ := place_ok placed
  cases looked
  exact ⟨p, resolved, rfl, rfl⟩

theorem mapM_targetsIn_ok {ds : List String} {lists : List (List Path)}
    (h : ds.mapM m.targetsIn w = (.ok lists, w')) :
    ∃ dirs : List Path, ds.map (fun dir => Project.resolve m.root ⟨dir⟩) = dirs.map .ok ∧
      lists = dirs.map (m.targetsBelow w.tree w.here) ∧ w' = w := by
  induction ds generalizing lists with
  | nil =>
      rw [List.mapM_nil] at h
      cases h
      exact ⟨[], rfl, rfl, rfl⟩
  | cons d ds ih =>
      rw [List.mapM_cons] at h
      obtain ⟨files, w₁, first, h⟩ := Task.bind_eq_ok_iff.mp h
      obtain ⟨more, w₂, later, h⟩ := Task.bind_eq_ok_iff.mp h
      cases h
      obtain ⟨p, resolved, rfl, rfl⟩ := targetsIn_ok first
      obtain ⟨dirs, all, rfl, rfl⟩ := ih later
      exact ⟨p :: dirs, by rw [List.map_cons, List.map_cons, resolved, all], rfl, rfl⟩

theorem targets_ok {files : List Path} (h : m.targets w = (.ok files, w')) :
    ∃ dirs, m.Sources dirs ∧ files = dirs.flatMap (m.targetsBelow w.tree w.here) ∧ w' = w := by
  obtain ⟨lists, w₁, listed, h⟩ := Task.bind_eq_ok_iff.mp h
  cases h
  obtain ⟨dirs, all, rfl, rfl⟩ := mapM_targetsIn_ok listed
  exact ⟨dirs, all, List.flatMap_def.symm, rfl⟩

theorem targetsIn_of_resolved {dir : String} {p : Path}
    (resolved : Project.resolve m.root ⟨dir⟩ = .ok p) (w : Workspace σ) :
    m.targetsIn dir w = (.ok (m.targetsBelow w.tree w.here p), w) := by
  have placed : m.place dir w = (.ok p, w) := by
    unfold place
    rw [resolved]
    rfl
  exact (Task.bind_of_ok placed _).trans rfl

theorem mapM_targetsIn_of_resolved {ds : List String} {dirs : List Path}
    (resolved : ds.map (fun dir => Project.resolve m.root ⟨dir⟩) = dirs.map .ok)
    (w : Workspace σ) :
    ds.mapM m.targetsIn w = (.ok (dirs.map (m.targetsBelow w.tree w.here)), w) := by
  induction ds generalizing dirs with
  | nil =>
      rw [List.map_nil] at resolved
      rw [List.map_eq_nil_iff.mp resolved.symm, List.mapM_nil]
      rfl
  | cons d ds ih =>
      obtain ⟨p, more, rfl, first, later⟩ := List.map_eq_cons_iff.mp resolved.symm
      rw [List.mapM_cons]
      refine (Task.bind_of_ok (targetsIn_of_resolved first.symm w) _).trans ?_
      exact (Task.bind_of_ok (ih later.symm) _).trans rfl

theorem targets_of_sources {dirs : List Path} (h : m.Sources dirs) (w : Workspace σ) :
    m.targets w = (.ok (dirs.flatMap (m.targetsBelow w.tree w.here)), w) := by
  rw [List.flatMap_def]
  exact Task.bind_of_ok (mapM_targetsIn_of_resolved h w) _

/-- No source directory is another one or inside it. -/
def DisjointSources (m : Migration σ) : Prop :=
  ∀ dirs, m.Sources dirs →
    dirs.Pairwise fun p q => p.startsWith q = false ∧ q.startsWith p = false

theorem sources_straight {dirs : List Path} (h : m.Sources dirs) :
    ∃ rooted, ∀ p ∈ dirs, Straight rooted p.components := by
  obtain ⟨rooted, straight⟩ := Project.resolve_straight m.root
  refine ⟨rooted, ?_⟩
  intro p member
  have resolved : (.ok p : Except Project.PathRejection Path) ∈ dirs.map .ok :=
    List.mem_map_of_mem member
  rw [← h] at resolved
  obtain ⟨dir, -, place⟩ := List.mem_map.mp resolved
  exact straight _ p place

theorem not_both_inside {p q : Path} {cs : List Component} (hp : p.components <+: cs)
    (hq : q.components <+: cs) (apart : p.startsWith q = false ∧ q.startsWith p = false) :
    False := by
  unfold Path.startsWith at apart
  rcases List.prefix_or_prefix_of_prefix hp hq with inside | inside
  · rw [List.isPrefixOf_iff_prefix.mpr inside] at apart
    cases apart.2
  · rw [List.isPrefixOf_iff_prefix.mpr inside] at apart
    cases apart.1

theorem targets_straight {files : List Path} (proper : w.tree.ProperNames)
    (h : m.targets w = (.ok files, w')) : ∃ rooted, ∀ p ∈ files, Straight rooted p.components := by
  obtain ⟨dirs, sources, rfl, -⟩ := targets_ok h
  obtain ⟨rooted, straight⟩ := sources_straight sources
  refine ⟨rooted, ?_⟩
  intro p member
  obtain ⟨dir, among, listed⟩ := List.mem_flatMap.mp member
  exact ((Project.listFiles_straight proper w.here (straight dir among)).1 p
    (List.mem_filter.mp listed).1).1

theorem targets_apart {files : List Path} (proper : w.tree.ProperNames)
    (disjoint : m.DisjointSources) (h : m.targets w = (.ok files, w')) :
    files.Pairwise fun p q => p.place w.here ≠ q.place w.here := by
  obtain ⟨rooted, straight⟩ := targets_straight proper h
  obtain ⟨dirs, sources, rfl, -⟩ := targets_ok h
  have apart := disjoint dirs sources
  obtain ⟨rooted', below⟩ := sources_straight sources
  have listed : ∀ dir ∈ dirs, ∀ p ∈ m.targetsBelow w.tree w.here dir,
      dir.components <+: p.components := by
    intro dir among p member
    have inside := (Project.listFiles_straight proper w.here (below dir among)).1 p
      (List.mem_filter.mp member).1
    exact List.isPrefixOf_iff_prefix.mp inside.2
  have different : (dirs.flatMap (m.targetsBelow w.tree w.here)).Pairwise
      fun p q => p.components ≠ q.components := by
    rw [List.pairwise_flatMap]
    refine ⟨?_, ?_⟩
    · intro dir among
      exact (Project.listFiles_straight proper w.here (below dir among)).2.filter _
    · refine apart.imp_of_mem ?_
      intro dir dir' among among' apart p member q member' same
      have inside := listed dir among p member
      rw [same] at inside
      exact not_both_inside inside (listed dir' among' q member') apart
  refine different.imp_of_mem ?_
  intro p q member member' apart one
  exact apart (Path.same_of_place (straight p member) (straight q member') one)

end Restyle.Migration
