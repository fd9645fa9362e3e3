import Mathlib.Data.List.Nodup
import Restyle.Project
import Restyle.Proofs.Path.Places
import Restyle.Proofs.Text.ByteOrder
/-!
What a walk meets below a directory, and in which order: the files come as distinct paths straight
down from it, and of two of them the one that stands in the directory where their ways part comes
first, and else the one that has the smaller bytes there.
-/

namespace Restyle

/-- The names in a tree are names of files. -/
def FileTree.ProperNames (t : FileTree) : Prop := ∀ e ∈ t.entries, ∀ s ∈ e.1, Path.IsName s

instance (t : FileTree) : Decidable t.ProperNames :=
  inferInstanceAs (Decidable (∀ e ∈ t.entries, ∀ s ∈ e.1, Path.IsName s))

theorem FileTree.isDirectory_iff {t : FileTree} {here : Location} {p : Path} :
    t.isDirectory here p = true ↔ ∃ l, t.locate here p = .ok l ∧ t.isDirectoryAt l = true := by
  unfold isDirectory lookup isDirectoryAt
  cases t.locate here p with
  | error e => exact iff_of_false Bool.false_ne_true fun h => nomatch h
  | ok l =>
      simp only [Except.ok.injEq, exists_eq_left']
      cases t.find? l with
      | none => exact iff_of_false Bool.false_ne_true nofun
      | some n =>
          cases n with
          | directory => exact iff_of_true rfl rfl
          | file content executable =>
              refine iff_of_false ?_ nofun
              cases asksDirectory p <;> exact Bool.false_ne_true

namespace Project

open Restyle.Path (IsName Straight)

/-- Where two ways part, the first goes on to a file of that directory and the second into one of
its subdirectories, or they go on alike and the name in the first has the smaller bytes. -/
def ComesBefore (a b : Location) : Prop :=
  ∃ shared x y as bs, a = shared ++ x :: as ∧ b = shared ++ y :: bs ∧ x ≠ y ∧
    (as = [] ∧ bs ≠ [] ∨
      (as = [] ↔ bs = []) ∧ Text.Utf8.encode x.toList < Text.Utf8.encode y.toList)

namespace ComesBefore

theorem ne {a b : Location} (h : ComesBefore a b) : a ≠ b := by
  obtain ⟨shared, x, y, as, bs, rfl, rfl, apart, -⟩ := h
  intro same
  exact apart (List.head_eq_of_cons_eq (List.append_cancel_left same))

theorem cons {a b : Location} (s : String) (h : ComesBefore a b) :
    ComesBefore (s :: a) (s :: b) := by
  obtain ⟨shared, x, y, as, bs, rfl, rfl, parted⟩ := h
  exact ⟨s :: shared, x, y, as, bs, rfl, rfl, parted⟩

theorem of_lt {x y : String} (less : x < y) {as bs : Location} (alike : as = [] ↔ bs = []) :
    ComesBefore (x :: as) (y :: bs) :=
  ⟨[], x, y, as, bs, rfl, rfl, fun same => String.lt_irrefl x (same ▸ less),
    .inr ⟨alike, Text.Utf8.encode_lt_iff.mpr less⟩⟩

theorem of_file {x y : String} (apart : x ≠ y) {bs : Location} (deeper : bs ≠ []) :
    ComesBefore [x] (y :: bs) :=
  ⟨[], x, y, [], bs, rfl, rfl, apart, .inl ⟨rfl, deeper⟩⟩

end ComesBefore

section Walk

variable {t : FileTree} {place way : Location} {s : String}

theorem mem_filesIn_iff :
    s ∈ filesIn t place ↔ ∃ n, n ≠ .directory ∧ (place ++ [s], n) ∈ t.entries := by
  have entry_iff (n : FileNode) : (s, n) ∈ entriesIn t place ↔ (place ++ [s], n) ∈ t.entries :=
    mem_entriesIn_iff
  simp only [filesIn, List.mem_map, List.mem_filter, Prod.exists]
  grind

theorem entriesIn_sorted (t : FileTree) (place : Location) :
    (entriesIn t place).Pairwise fun a b => a.1 < b.1 := by
  have apart : (t.childrenOf place).Pairwise fun a b => a.1 ≠ b.1 := by
    refine (List.pairwise_map.mp t.nodup).filterMap _ ?_
    intro e e' apart x found x' found' same
    apply apart
    rw [FileTree.childOf_eq_some_iff.mp found, FileTree.childOf_eq_some_iff.mp found', same]
  have different : (entriesIn t place).Pairwise fun a b => a.1 ≠ b.1 :=
    (List.mergeSort_perm _ _).symm.pairwise apart Ne.symm
  have by_name : (entriesIn t place).Pairwise fun a b => decide (a.1 ≤ b.1) = true :=
    List.pairwise_mergeSort (fun a b c => by simpa using Std.le_trans)
      (fun a b => by simpa using Std.le_total) _
  refine (by_name.and different).imp ?_
  rintro a b ⟨le, ne⟩
  exact (Std.le_iff_lt_or_eq.mp (of_decide_eq_true le)).resolve_right ne

theorem filesIn_sorted (t : FileTree) (place : Location) :
    (filesIn t place).Pairwise (· < ·) :=
  List.pairwise_map.mpr ((entriesIn_sorted t place).filter _)

theorem directoriesIn_sorted (t : FileTree) (place : Location) :
    (directoriesIn t place).Pairwise (· < ·) :=
  List.pairwise_map.mpr ((entriesIn_sorted t place).filter _)

theorem ne_of_mem_filesIn {s' : String} (file : s ∈ filesIn t place)
    (directory : s' ∈ directoriesIn t place) : s ≠ s' := by
  rintro rfl
  obtain ⟨n, no_directory, entry⟩ := mem_filesIn_iff.mp file
  have same := List.inj_on_of_nodup_map t.nodup entry (mem_directoriesIn_iff.mp directory).1 rfl
  exact no_directory (congrArg Prod.snd same)

theorem visit_eq (t : FileTree) (place : Location) :
    visit t place = (filesIn t place).map ([·]) ++
      (directoriesIn t place).flatMap fun s => (visit t (place ++ [s])).map (s :: ·) := by
  rw [visit]
  congr 1
  simp

theorem nil_not_mem_visit : [] ∉ visit t place := by
  rw [visit_eq]
  simp

theorem mem_visit_cons_iff :
    s :: way ∈ visit t place
      ↔ s ∈ filesIn t place ∧ way = []
        ∨ s ∈ directoriesIn t place ∧ way ∈ visit t (place ++ [s]) := by
  rw [visit_eq]
  simp [eq_comm]

/-- What is met in a directory itself is by name, what is met below one of its directories is in
order as far as that goes, and the rest follows from the first step of the ways. -/
theorem visit_in_order (t : FileTree) (place : Location) :
    (visit t place).Pairwise ComesBefore := by
  induction place using visit.induct t with
  | case1 place ih =>
      have deeper {s : String} {way : Location} (listed : way ∈ visit t (place ++ [s])) :
          way ≠ [] := by
        rintro rfl
        exact nil_not_mem_visit listed
      rw [visit_eq, List.pairwise_append, List.pairwise_map, List.pairwise_flatMap]
      refine ⟨(filesIn_sorted t place).imp ?beside, ⟨?below_one,
        (directoriesIn_sorted t place).imp ?below_two⟩, ?between⟩
      case beside => exact fun less => .of_lt less Iff.rfl
      case below_one =>
        intro s directory
        rw [List.pairwise_map]
        exact (ih ⟨s, directory⟩).imp (ComesBefore.cons s)
      case below_two =>
        rintro x y less _ first _ second
        obtain ⟨a, listed, rfl⟩ := List.mem_map.mp first
        obtain ⟨b, listed', rfl⟩ := List.mem_map.mp second
        exact .of_lt less (iff_of_false (deeper listed) (deeper listed'))
      case between =>
        rintro _ first _ second
        obtain ⟨x, file, rfl⟩ := List.mem_map.mp first
        obtain ⟨y, directory, below⟩ := List.mem_flatMap.mp second
        obtain ⟨b, listed, rfl⟩ := List.mem_map.mp below
        exact .of_file (ne_of_mem_filesIn file directory) (deeper listed)

theorem visit_nodup (t : FileTree) (place : Location) : (visit t place).Nodup :=
  (visit_in_order t place).imp ComesBefore.ne

theorem isName_of_mem_visit (proper : t.ProperNames) (h : way ∈ visit t place) :
    ∀ s ∈ way, IsName s := by
  have step {place : Location} {s : String} {n : FileNode} (entry : (place ++ [s], n) ∈ t.entries) :
      IsName s := proper _ entry s List.mem_concat_self
  induction way generalizing place with
  | nil => exact absurd h nil_not_mem_visit
  | cons s way ih =>
      rw [List.forall_mem_cons]
      rcases mem_visit_cons_iff.mp h with ⟨file, rfl⟩ | ⟨directory, below⟩
      · obtain ⟨n, -, entry⟩ := mem_filesIn_iff.mp file
        exact ⟨step entry, fun _ none => absurd none List.not_mem_nil⟩
      · exact ⟨step (mem_directoriesIn_iff.mp directory).1, ih below⟩

theorem visit_of_files
    (by_name : (t.childrenOf place).Pairwise fun a b => decide (a.1 ≤ b.1) = true)
    (files : ∀ e ∈ t.childrenOf place, e.2 ≠ .directory) :
    visit t place = (t.childrenOf place).map fun e => [e.1] := by
  have entries : entriesIn t place = t.childrenOf place := List.mergeSort_of_pairwise by_name
  have all_files : filesIn t place = (t.childrenOf place).map (·.1) := by
    rw [filesIn, entries, List.filter_eq_self.mpr fun e child => bne_iff_ne.mpr (files e child)]
  have no_directories : directoriesIn t place = [] := by
    rw [directoriesIn, entries, List.map_eq_nil_iff, List.filter_eq_nil_iff]
    intro e child
    simp [files e child]
  rw [visit_eq, all_files, no_directories, List.flatMap_nil, List.append_nil, List.map_map]
  rfl

end Walk

theorem listFiles_of_located {t : FileTree} {here place : Location} {dir : Path}
    (located : t.locate here dir = .ok place) (directory : t.isDirectoryAt place = true) :
    listFiles t here dir
      = (visit t place).map fun way => way.foldl (fun p name => p.push ⟨name⟩) dir := by
  unfold listFiles
  rw [located]
  exact if_pos directory

theorem listFiles_of_directory {t : FileTree} {here : Location} {dir : Path}
    (directory : t.isDirectory here dir = true) :
    listFiles t here dir
      = (visit t (dir.place here)).map fun way => way.foldl (fun p name => p.push ⟨name⟩) dir := by
  obtain ⟨place, located, there⟩ := FileTree.isDirectory_iff.mp directory
  rw [listFiles_of_located located there, FileTree.eq_place_of_locate located]

theorem listFiles_of_no_directory {t : FileTree} {here : Location} {dir : Path}
    (no_directory : t.isDirectory here dir = false) : listFiles t here dir = [] := by
  unfold listFiles
  split
  · rfl
  · rename_i place located
    refine if_neg fun directory => ?_
    have there := FileTree.isDirectory_iff.mpr ⟨place, located, directory⟩
    exact Bool.false_ne_true (no_directory.symm.trans there)

theorem listFiles_eq {t : FileTree} (proper : t.ProperNames) (here : Location) (dir : Path) :
    ∃ ways : List Location,
      listFiles t here dir = ways.map (fun way => way.foldl (fun p name => p.push ⟨name⟩) dir) ∧
      ways.Nodup ∧ ∀ way ∈ ways, ∀ s ∈ way, IsName s := by
  cases directory : t.isDirectory here dir with
  | false =>
      exact ⟨[], listFiles_of_no_directory directory, List.nodup_nil,
        fun _ none => absurd none List.not_mem_nil⟩
  | true =>
      exact ⟨_, listFiles_of_directory directory, visit_nodup t _,
        fun _ member => isName_of_mem_visit proper member⟩

/-- The files of a directory that is straight down go straight down from the same place, inside the
directory, and are distinct. -/
theorem listFiles_straight {t : FileTree} (proper : t.ProperNames) (here : Location) {dir : Path}
    {rooted : Bool} (straight : Straight rooted dir.components) :
    (∀ p ∈ listFiles t here dir, Straight rooted p.components ∧ p.startsWith dir = true) ∧
      (listFiles t here dir).Pairwise fun p q => p.components ≠ q.components := by
  obtain ⟨ways, files, nodup, names⟩ := listFiles_eq proper here dir
  have parts : ∀ way ∈ ways, (way.foldl (fun p name => p.push ⟨name⟩) dir).components
      = dir.components ++ way.map .name :=
    fun way member => Path.components_foldl_push (names way member) dir
  rw [files]
  refine ⟨?_, ?_⟩
  · intro p member
    obtain ⟨way, listed, rfl⟩ := List.mem_map.mp member
    rw [Path.startsWith, parts way listed]
    exact ⟨straight.append (names way listed),
      List.isPrefixOf_iff_prefix.mpr (List.prefix_append _ _)⟩
  · rw [List.pairwise_map]
    refine nodup.imp_of_mem ?_
    intro way way' listed listed' apart same
    rw [parts way listed, parts way' listed'] at same
    have cancelled := List.append_cancel_left same
    exact apart ((List.map_inj_right fun _ _ => Component.name.inj).mp cancelled)

end Project

end Restyle
