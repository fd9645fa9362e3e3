import Restyle.Proofs.FileTree.Overlay
import Restyle.Proofs.Workspace.Task
/-!
What tasks write. The files after a task are those before it with the texts laid over them that the
task has written, each at the place of its path.
-/

namespace Restyle

def asFiles (ws : List (Path × String)) : List (Path × FileNode) :=
  ws.map fun w => (w.1, .file (.text w.2) false)

theorem asFiles_append (ws more : List (Path × String)) :
    asFiles (ws ++ more) = asFiles ws ++ asFiles more := List.map_append

theorem overlay_asFiles_directory {here l : Location} {view : Location → Option FileNode}
    {ws : List (Path × String)} (h : overlay here view (asFiles ws) l = some .directory) :
    view l = some .directory := by
  induction ws using List.reverseRecOn with
  | nil => exact h
  | append_singleton ws w ih =>
      rw [asFiles_append] at h
      change overlay here view (asFiles ws ++ [(w.1, .file (.text w.2) false)]) l = _ at h
      rw [overlay_concat] at h
      split at h
      · cases h
      · exact ih h

variable {σ : Type} {w w' w'' : Workspace σ} {ws more : List (Path × String)}

/-- From one workspace to another just some texts were written. -/
structure Workspace.Journaled (w w' : Workspace σ) (ws : List (Path × String)) : Prop where
  here : w'.here = w.here
  writes : w'.writes = w.writes ++ ws
  tree : ∀ l, w'.tree.find? l = overlay w.here w.tree.find? (asFiles ws) l
  directories : w.tree.DirectoriesIn w'.tree

namespace Workspace.Journaled

theorem of_sameFiles (h : w.SameFiles w') : w.Journaled w' [] where
  here := h.here
  writes := by rw [h.writes, List.append_nil]
  tree := by
    intro l
    rw [h.tree]
    rfl
  directories := by
    intro l directory
    rw [h.tree]
    exact directory

theorem refl (w : Workspace σ) : w.Journaled w [] := of_sameFiles (.refl w)

theorem trans (h : w.Journaled w' ws) (h' : w'.Journaled w'' more) :
    w.Journaled w'' (ws ++ more) where
  here := h'.here.trans h.here
  writes := by rw [h'.writes, h.writes, List.append_assoc]
  tree := by
    intro l
    have before : w'.tree.find? = overlay w.here w.tree.find? (asFiles ws) := funext h.tree
    rw [h'.tree, h.here, before, asFiles_append, overlay_append]
  directories := fun l directory => h'.directories l (h.directories l directory)

theorem trans_same (h : w.Journaled w' ws) (h' : w'.SameFiles w'') : w.Journaled w'' ws := by
  have both := h.trans (of_sameFiles h')
  rwa [List.append_nil] at both

theorem same_trans (h : w.SameFiles w') (h' : w'.Journaled w'' ws) : w.Journaled w'' ws :=
  (of_sameFiles h).trans h'

theorem directories_back (h : w.Journaled w' ws) : w'.tree.DirectoriesIn w.tree := by
  intro l directory
  rw [h.tree] at directory
  exact overlay_asFiles_directory directory

theorem holds {p : Path} (h : w.Journaled w' ws) (holds : w.tree.Holds w.here p) :
    w'.tree.Holds w'.here p := by
  rw [h.here]
  exact holds.mono h.directories

theorem readText_iff {p : Path} {s : String} (h : w.Journaled w' ws)
    (other : ∀ x ∈ ws, p.place w.here ≠ x.1.place w.here) :
    w'.tree.readText w'.here p = .ok s ↔ w.tree.readText w.here p = .ok s := by
  have kept : w'.tree.find? (p.place w.here) = w.tree.find? (p.place w.here) := by
    rw [h.tree]
    apply overlay_of_ne
    intro x member
    obtain ⟨y, hy, rfl⟩ := List.mem_map.mp member
    exact other y hy
  rw [FileTree.readText_eq_ok_iff, FileTree.readText_eq_ok_iff, h.here]
  constructor
  · rintro ⟨l, executable, located, found, asks⟩
    obtain rfl := FileTree.eq_place_of_locate located
    exact ⟨_, executable, FileTree.locate_mono h.directories_back located, kept ▸ found, asks⟩
  · rintro ⟨l, executable, located, found, asks⟩
    obtain rfl := FileTree.eq_place_of_locate located
    exact ⟨_, executable, FileTree.locate_mono h.directories located, kept.trans found, asks⟩

/-- A file that could be read reads as what was written to it last. -/
theorem readText_of_last {before after : List (Path × String)} {p : Path} {s old : String}
    (h : w.Journaled w' (before ++ (p, s) :: after))
    (later : ∀ x ∈ after, p.place w.here ≠ x.1.place w.here)
    (readable : w.tree.readText w.here p = .ok old) : w'.tree.readText w'.here p = .ok s := by
  obtain ⟨l, executable, located, -, asks⟩ := FileTree.readText_eq_ok_iff.mp readable
  obtain rfl := FileTree.eq_place_of_locate located
  rw [FileTree.readText_eq_ok_iff, h.here]
  refine ⟨_, false, FileTree.locate_mono h.directories located, ?_, asks⟩
  rw [h.tree, asFiles_append]
  apply overlay_of_last
  intro x member
  obtain ⟨y, hy, rfl⟩ := List.mem_map.mp member
  exact later y hy

end Workspace.Journaled

/-- Writing a text below a directory that is there. -/
theorem Task.writeText_ok {p : Path} {s : String} (holds : w.tree.Holds w.here p)
    (h : Task.writeText p s w = (.ok (), w')) : w.Journaled w' [(p, s)] := by
  unfold Task.writeText at h
  cases written : w.tree.write w.here p s with
  | error e =>
      rw [written] at h
      cases h
  | ok t =>
      rw [written] at h
      cases h
      obtain ⟨-, directories, found⟩ := FileTree.write_eq_ok holds written
      exact ⟨rfl, rfl, found, directories⟩

theorem Task.writeText_error {p : Path} {s : String} {e : FileError}
    (h : Task.writeText p s w = (.error e, w')) : w' = w := by
  unfold Task.writeText at h
  cases written : w.tree.write w.here p s with
  | error e =>
      rw [written] at h
      cases h
      rfl
  | ok t =>
      rw [written] at h
      cases h

end Restyle
