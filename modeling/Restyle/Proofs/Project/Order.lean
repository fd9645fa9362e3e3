import Restyle.Proofs.Project.Listing
/-!
What is listed below a directory, and in which order. The files listed are those below the directory
that no skipped directory is on the way to, each once; of two of them the one that stands in the
directory where their ways part comes first, and else the one that has the smaller bytes there.
-/

namespace Restyle

namespace FileTree

variable {t : FileTree} {l front rest : Location}

/-- Each place of a tree lies in a directory. -/
def IsClosed (t : FileTree) : Prop := ∀ e ∈ t.entries, t.isDirectoryAt e.1.dropLast = true

instance (t : FileTree) : Decidable t.IsClosed :=
  inferInstanceAs (Decidable (∀ e ∈ t.entries, t.isDirectoryAt e.1.dropLast = true))

def IsFileAt (t : FileTree) (l : Location) : Prop :=
  ∃ content executable, t.find? l = some (.file content executable)

theorem find?_eq_some_iff (below : l ≠ []) {n : FileNode} :
    t.find? l = some n ↔ (l, n) ∈ t.entries := by
  have some_name : l.isEmpty = false := by rwa [List.isEmpty_eq_false_iff]
  rw [find?, some_name, if_neg Bool.false_ne_true]
  constructor
  · intro found
    obtain ⟨e, first, rfl⟩ := Option.map_eq_some_iff.mp found
    have at_ : e.1 = l := by simpa using List.find?_some first
    rw [← at_]
    exact List.mem_of_find?_eq_some first
  · intro member
    cases first : t.entries.find? fun e => e.1 == l with
    | none => exact absurd (beq_self_eq_true l) (List.find?_eq_none.mp first _ member)
    | some e =>
        have at_ : e.1 = l := by simpa using List.find?_some first
        have entry := List.mem_of_find?_eq_some first
        have same : e = (l, n) := List.inj_on_of_nodup_map t.nodup entry member at_
        rw [same]
        rfl

theorem not_isDirectoryAt_of_isFileAt (h : t.IsFileAt l) : ¬ t.isDirectoryAt l = true := by
  obtain ⟨content, executable, file⟩ := h
  rw [isDirectoryAt, file]
  exact nofun

theorem IsClosed.isDirectoryAt (closed : t.IsClosed) (present : (t.find? (front ++ rest)).isSome)
    (further : rest ≠ []) : t.isDirectoryAt front = true := by
  induction rest using List.reverseRecOn with
  | nil => exact absurd rfl further
  | append_singleton rest s ih =>
      rw [← List.append_assoc] at present
      obtain ⟨n, found⟩ := Option.isSome_iff_exists.mp present
      have some_name : front ++ rest ++ [s] ≠ [] :=
        List.append_ne_nil_of_right_ne_nil _ (List.cons_ne_nil s [])
      have entry := (find?_eq_some_iff some_name).mp found
      have parent := closed _ entry
      rw [List.dropLast_concat] at parent
      by_cases last : rest = []
      · rwa [last, List.append_nil] at parent
      · apply ih _ last
        rw [eq_of_beq parent]
        rfl

theorem IsClosed.isDirectoryAt_of_isFileAt (closed : t.IsClosed) (file : t.IsFileAt (front ++ rest))
    (further : rest ≠ []) : t.isDirectoryAt front = true := by
  obtain ⟨content, executable, found⟩ := file
  exact closed.isDirectoryAt (Option.isSome_of_eq_some found) further

theorem isDirectoryAt_place {here : Location} {p : Path} (h : t.isDirectory here p = true) :
    t.isDirectoryAt (p.place here) = true := by
  obtain ⟨place, located, directory⟩ := isDirectory_iff.mp h
  rwa [eq_place_of_locate located] at directory

end FileTree

namespace Project

variable {t : FileTree} {place way : Location}

/-- Whether a skipped directory is on a way. -/
def IsHidden (t : FileTree) (place way : Location) : Prop :=
  ∃ front name, front ++ [name] <+: way ∧ t.isDirectoryAt (place ++ (front ++ [name])) = true ∧
    name ∈ skippedDirectories

theorem not_isHidden_nil : ¬ IsHidden t place [] := by
  rintro ⟨front, name, ⟨rest, split⟩, -⟩
  simp at split

theorem isHidden_cons_iff {s : String} :
    IsHidden t place (s :: way)
      ↔ t.isDirectoryAt (place ++ [s]) = true ∧ s ∈ skippedDirectories
        ∨ IsHidden t (place ++ [s]) way := by
  constructor
  · rintro ⟨front, name, ⟨rest, split⟩, directory, skipped⟩
    cases front with
    | nil =>
        cases split
        exact .inl ⟨directory, skipped⟩
    | cons u front =>
        cases split
        exact .inr ⟨front, name, List.prefix_append _ _, by simpa using directory, skipped⟩
  · rintro (⟨directory, skipped⟩ | ⟨front, name, ⟨rest, rfl⟩, directory, skipped⟩)
    · exact ⟨[], s, ⟨way, rfl⟩, directory, skipped⟩
    · exact ⟨s :: front, name, ⟨rest, rfl⟩, by simpa using directory, skipped⟩

theorem mem_filesIn_iff_isFileAt {s : String} :
    s ∈ filesIn t place ↔ t.IsFileAt (place ++ [s]) := by
  have named : place ++ [s] ≠ [] := List.append_ne_nil_of_right_ne_nil _ (List.cons_ne_nil s [])
  rw [mem_filesIn_iff]
  constructor
  · rintro ⟨n, no_directory, entry⟩
    cases n with
    | directory => exact absurd rfl no_directory
    | file content executable =>
        exact ⟨content, executable, (FileTree.find?_eq_some_iff named).mpr entry⟩
  · rintro ⟨content, executable, found⟩
    exact ⟨.file content executable, nofun, (FileTree.find?_eq_some_iff named).mp found⟩

theorem mem_directoriesIn_iff_isDirectoryAt {s : String} :
    s ∈ directoriesIn t place
      ↔ t.isDirectoryAt (place ++ [s]) = true ∧ s ∉ skippedDirectories := by
  have named : place ++ [s] ≠ [] := List.append_ne_nil_of_right_ne_nil _ (List.cons_ne_nil s [])
  rw [mem_directoriesIn_iff, ← FileTree.find?_eq_some_iff named, FileTree.isDirectoryAt, beq_iff_eq]

/-- The walk reaches the files with no skipped directory on the way, and those only. -/
theorem mem_visit_iff (closed : t.IsClosed) (directory : t.isDirectoryAt place = true) :
    way ∈ visit t place ↔ t.IsFileAt (place ++ way) ∧ ¬ IsHidden t place way := by
  induction way generalizing place with
  | nil =>
      refine iff_of_false nil_not_mem_visit fun h => ?_
      rw [List.append_nil] at h
      exact FileTree.not_isDirectoryAt_of_isFileAt h.1 directory
  | cons s way ih =>
      have whole : place ++ s :: way = place ++ [s] ++ way := by
        rw [List.append_assoc, List.singleton_append]
      rw [mem_visit_cons_iff, mem_filesIn_iff_isFileAt, mem_directoriesIn_iff_isDirectoryAt,
        isHidden_cons_iff, whole]
      by_cases below : t.isDirectoryAt (place ++ [s]) = true
      · have no_file : ¬ t.IsFileAt (place ++ [s]) := fun file =>
          FileTree.not_isDirectoryAt_of_isFileAt file below
        rw [ih below]
        tauto
      · have last (file : t.IsFileAt (place ++ [s] ++ way)) : way = [] := by
          by_contra further
          exact below (closed.isDirectoryAt_of_isFileAt file further)
        constructor
        · rintro (⟨file, rfl⟩ | ⟨⟨directory, -⟩, -⟩)
          · rw [List.append_nil]
            exact ⟨file, fun h => h.elim (fun skipped => below skipped.1) not_isHidden_nil⟩
          · exact absurd directory below
        · rintro ⟨file, -⟩
          have end_ := last file
          subst end_
          rw [List.append_nil] at file
          exact .inl ⟨file, rfl⟩

/-- Below what is no directory no file is listed. Below a directory the files that are listed are
those that no skipped directory is on the way to, each once, in the order of their ways. -/
theorem listFiles_in_order (proper : t.ProperNames) (closed : t.IsClosed) (here : Location)
    (dir : Path) :
    (t.isDirectory here dir = false → listFiles t here dir = []) ∧
    (t.isDirectory here dir = true → ∃ ways : List Location,
      listFiles t here dir = ways.map (fun way => way.foldl (fun p name => p.push ⟨name⟩) dir) ∧
      (∀ way ∈ ways, (way.foldl (fun p name => p.push ⟨name⟩) dir).place here
        = dir.place here ++ way) ∧
      ways.Nodup ∧
      (∀ way, way ∈ ways
        ↔ t.IsFileAt (dir.place here ++ way) ∧ ¬ IsHidden t (dir.place here) way) ∧
      ways.Pairwise ComesBefore) := by
  refine ⟨listFiles_of_no_directory, fun directory => ?_⟩
  refine ⟨visit t (dir.place here), listFiles_of_directory directory, ?_, visit_nodup t _,
    fun _ => mem_visit_iff closed (FileTree.isDirectoryAt_place directory), visit_in_order t _⟩
  intro way member
  rw [Path.place, Path.components_foldl_push (isName_of_mem_visit proper member),
    List.foldl_append, Component.foldl_stepFrom_names]
  rfl

def nestedTree : FileTree where
  entries := [(["src"], .directory), (["src", "b"], .file (.text "") false),
    (["src", "a"], .directory), (["src", "a", "x"], .file (.text "") false),
    (["src", "a", "x.js"], .file (.text "") false), (["src", "dist"], .directory),
    (["src", "dist", "a"], .file (.text "") false), (["src", "a", "build"], .file (.text "") false)]
  nodup := by decide

/-- A directory of a skipped name hides its files, a file of such a name is listed. -/
theorem listFiles_in_order_nested :
    nestedTree.ProperNames ∧ nestedTree.IsClosed ∧ nestedTree.isDirectory [] ⟨"src"⟩ = true ∧
      ∃ ways : List Location,
        listFiles nestedTree [] ⟨"src"⟩
          = ways.map (fun way => way.foldl (fun p name => p.push ⟨name⟩) ⟨"src"⟩) ∧
        ["b"] ∈ ways ∧ ["a", "x"] ∈ ways ∧ ["a", "x.js"] ∈ ways ∧ ["a", "build"] ∈ ways ∧
        ["dist", "a"] ∉ ways ∧ ways.Pairwise ComesBefore := by
  have proper : nestedTree.ProperNames := by decide
  have closed : nestedTree.IsClosed := by decide
  have directory : nestedTree.isDirectory [] ⟨"src"⟩ = true := rfl
  obtain ⟨ways, files, -, -, member_iff, in_order⟩ :=
    (listFiles_in_order proper closed [] ⟨"src"⟩).2 directory
  have at_ : (⟨"src"⟩ : Path).place [] = ["src"] := rfl
  rw [at_] at member_iff
  have listed {way : Location} (file : nestedTree.IsFileAt (["src"] ++ way))
      (unhidden : ¬ IsHidden nestedTree ["src"] way) : way ∈ ways :=
    (member_iff way).mpr ⟨file, unhidden⟩
  refine ⟨proper, closed, directory, ways, files, listed ⟨_, _, rfl⟩ ?_, listed ⟨_, _, rfl⟩ ?_,
    listed ⟨_, _, rfl⟩ ?_, listed ⟨_, _, rfl⟩ ?_, ?_, in_order⟩
  iterate 4
    · simp only [isHidden_cons_iff, not_isHidden_nil, or_false]
      decide
  intro member
  apply ((member_iff _).mp member).2
  exact ⟨[], "dist", ⟨["a"], rfl⟩, rfl, by decide⟩

end Project

end Restyle
