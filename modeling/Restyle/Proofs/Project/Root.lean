import Restyle.Project
import Restyle.Proofs.FileTree.Overlay
import Restyle.Proofs.Path.Ancestors
/-!
The root of a project. From a start upwards it is the nearest directory in which a marker stands;
the way up is that of the lexical ancestors and has an end, so that none is missed.
-/

namespace Restyle

open Restyle.Path (IsName)

namespace Path

theorem toList_push_name {s : String} (h : IsName s) (p : Path) :
    ∃ joint, (∀ c ∈ joint, c = '/') ∧
      (p.push ⟨s⟩).text.toList = p.text.toList ++ (joint ++ s.toList) := by
  by_cases no_text : p.text.toList = []
  · exact ⟨[], nofun, by rw [push_of_empty no_text, no_text]; rfl⟩
  · by_cases last : p.text.toList.getLast? = some '/'
    · exact ⟨[], nofun, toList_push_of_slash h.relative last⟩
    · exact ⟨['/'], fun c member => List.mem_singleton.mp member,
        toList_push_of_other h.relative no_text last⟩

theorem segments_of_text {t : List Char} {p : Path} (text : p.text.toList = t) :
    p.segments = split (t.drop (headLength t)) := by
  rw [segments, text]

theorem segments_push_name {s : String} (h : IsName s) (p : Path) :
    ∃ front, (p.push ⟨s⟩).segments = front ++ [s.toList] := by
  have alone := split_of_not_mem h.no_slash
  by_cases no_text : p.text.toList = []
  · refine ⟨[], ?_⟩
    rw [push_of_empty no_text, segments_of_text rfl, h.headLength_eq, List.drop_zero, alone]
    rfl
  · by_cases last : p.text.toList.getLast? = some '/'
    · rw [segments_of_text (toList_push_of_slash h.relative last),
        headLength_append no_text (.inl last), List.drop_append_of_le_length (headLength_le _)]
      obtain ⟨v, c, ends⟩ := (List.eq_nil_or_concat p.text.toList).resolve_left no_text
      rw [List.concat_eq_append] at ends
      rw [ends, List.getLast?_concat, Option.some.injEq] at last
      subst last
      rw [ends]
      rcases drop_head_slash v with none_left | ⟨u, left⟩
      · exact ⟨[], by rw [none_left, List.nil_append, alone]; rfl⟩
      · refine ⟨split u, ?_⟩
        rw [left, List.append_assoc, List.singleton_append, split_append, alone]
    · refine ⟨split (p.text.toList.drop (headLength p.text.toList)), ?_⟩
      rw [segments_of_text (toList_push_of_other h.relative no_text last),
        headLength_append no_text (.inr rfl), List.drop_append_of_le_length (headLength_le _),
        split_append, alone]

end Path

namespace FileTree

variable {t : FileTree} {here place : Location} {p : Path}

theorem asksDirectory_push_name {s : String} (h : IsName s) (p : Path) :
    asksDirectory (p.push ⟨s⟩) = false := by
  obtain ⟨front, segments⟩ := Path.segments_push_name h p
  rw [asksDirectory, segments, List.getLast?_concat]
  exact h.not_idle

theorem isPresent_iff (direct : asksDirectory p = false) :
    t.isPresent here p = true ↔
      ∃ l, t.locate here p = .ok l ∧ (t.find? l).isSome = true := by
  unfold isPresent lookup
  cases t.locate here p with
  | error e => simp [Except.toOption]
  | ok l =>
      cases found : t.find? l with
      | none => simp [found, Except.toOption]
      | some n => cases n <;> simp [found, direct, Except.toOption]

/-- The place of a directory that a path names. The empty path names the working directory. -/
def NamesDirectory (t : FileTree) (here : Location) (p : Path) (place : Location) : Prop :=
  (p.text = "" ∧ place = here ∨ t.locate here p = .ok place) ∧ t.isDirectoryAt place = true

theorem namesDirectory_iff :
    t.NamesDirectory here p place ↔
      '\x00' ∉ p.text.toList ∧ t.walk here p.components = .ok place ∧
        t.find? place = some .directory := by
  rw [NamesDirectory, locate_eq_ok_iff, isDirectoryAt, beq_iff_eq]
  by_cases empty : p.text = ""
  · have no_component : p.components = [] := Path.components_of_empty (by rw [empty]; rfl)
    have at_ : t.walk here [] = .ok place ↔ place = here := by
      rw [walk, Except.ok.injEq]
      exact eq_comm
    simp [empty, no_component, at_]
  · simp [empty, and_assoc]

theorem isPresent_push_name {s : String} (h : IsName s) (plain : '\x00' ∉ s.toList) :
    t.isPresent here (p.push ⟨s⟩) = true ↔
      ∃ place, t.NamesDirectory here p place ∧ (t.find? (place ++ [s])).isSome = true := by
  obtain ⟨joint, slashes, text⟩ := Path.toList_push_name h p
  have no_nul : (p.push ⟨s⟩).text.toList.contains '\x00' = false ↔
      '\x00' ∉ p.text.toList := by
    have no_joint : '\x00' ∉ joint := fun member => nomatch slashes _ member
    rw [text, List.contains_eq_mem, decide_eq_false_iff_not, List.mem_append, List.mem_append,
      or_iff_left (not_or_intro no_joint plain)]
  have some_text : (p.push ⟨s⟩).text.isEmpty = false := by
    rw [Bool.eq_false_iff]
    intro empty
    have no_text : (p.push ⟨s⟩).text = "" := by simpa using empty
    have parts := Path.components_push_name h p
    rw [Path.components_of_empty (by rw [no_text]; rfl)] at parts
    exact List.append_ne_nil_of_right_ne_nil _ (List.cons_ne_nil _ _) parts.symm
  rw [isPresent_iff (asksDirectory_push_name h p)]
  simp only [locate_eq_ok_iff, some_text, no_nul, Path.components_push_name h,
    walk_append_eq_ok_iff, walk_cons_eq_ok_iff, true_and]
  constructor
  · rintro ⟨l, ⟨plain_path, place, walked, directory, last⟩, found⟩
    cases last
    exact ⟨place, namesDirectory_iff.mpr ⟨plain_path, walked, directory⟩, found⟩
  · rintro ⟨place, names, found⟩
    obtain ⟨plain_path, walked, directory⟩ := namesDirectory_iff.mp names
    exact ⟨place ++ [s], ⟨plain_path, place, walked, directory, rfl⟩, found⟩

theorem isFile_iff :
    t.isFile here p = true ↔ asksDirectory p = false ∧
      ∃ l content executable, t.locate here p = .ok l ∧
        t.find? l = some (.file content executable) := by
  unfold isFile lookup
  cases t.locate here p with
  | error e => simp
  | ok l =>
      cases found : t.find? l with
      | none => simp [found]
      | some n =>
          cases n with
          | directory => simp [found]
          | file content executable =>
              cases asksDirectory p with
              | true => simp [found]
              | false =>
                  refine iff_of_true ?_ ⟨rfl, l, content, executable, rfl, found⟩
                  simp [found]

theorem exists_parent_of_isFile (h : t.isFile here p = true) : ∃ q, p.parent? = some q := by
  apply Path.exists_parent
  intro none_named
  have direct := (isFile_iff.mp h).1
  have some_segment : p.segments ≠ [] := by
    obtain ⟨s, ss, parts⟩ : ∃ s ss, p.segments = s :: ss := Path.split_eq_cons _
    rw [parts]
    exact List.cons_ne_nil s ss
  obtain ⟨front, last, ends⟩ := (List.eq_nil_or_concat p.segments).resolve_left some_segment
  rw [List.concat_eq_append] at ends
  rw [asksDirectory, ends, List.getLast?_concat] at direct
  have kept : last ∈ p.segments.filter (!Path.isIdle ·) := by
    rw [ends]
    have member : last ∈ front ++ [last] := List.mem_append_right _ List.mem_cons_self
    exact List.mem_filter.mpr ⟨member, congrArg (!·) direct⟩
  rw [List.map_eq_nil_iff.mp none_named] at kept
  cases kept

end FileTree

namespace Project

def HoldsMarker (t : FileTree) (here : Location) (p : Path) : Prop :=
  ∃ place, t.NamesDirectory here p place ∧
    ∃ m ∈ markers, (t.find? (place ++ [m])).isSome = true

variable {t : FileTree} {here : Location} {start first d : Path}

theorem markers_are_names : ∀ m ∈ markers, IsName m ∧ '\x00' ∉ m.toList := by
  decide

theorem isMarked_iff : isMarked t here d = true ↔ HoldsMarker t here d := by
  rw [isMarked, List.any_eq_true]
  constructor
  · rintro ⟨m, marker, present⟩
    obtain ⟨name, plain⟩ := markers_are_names m marker
    obtain ⟨place, names, found⟩ := (FileTree.isPresent_push_name name plain).mp present
    exact ⟨place, names, m, marker, found⟩
  · rintro ⟨place, names, m, marker, found⟩
    obtain ⟨name, plain⟩ := markers_are_names m marker
    exact ⟨m, marker, (FileTree.isPresent_push_name name plain).mpr ⟨place, names, found⟩⟩

theorem exists_first (t : FileTree) (here : Location) (start : Path) :
    ∃ first, (if t.isFile here start then start.parent? = some first else first = start) ∧
      root? t here start = first.ancestors.find? (isMarked t here) := by
  unfold root?
  cases file : t.isFile here start with
  | false => exact ⟨start, rfl, rfl⟩
  | true =>
      obtain ⟨q, up⟩ := FileTree.exists_parent_of_isFile file
      exact ⟨q, up, by rw [if_pos rfl, up]; rfl⟩

theorem find?_ancestors_eq_none_iff :
    first.ancestors.find? (isMarked t here) = none ↔
      ∀ q, first.Above q → ¬ HoldsMarker t here q := by
  simp only [List.find?_eq_none, Path.mem_ancestors_iff, isMarked_iff]

/-- Of the ancestors that hold a marker the first is the one with the most components. -/
theorem find?_ancestors_eq_some_iff :
    first.ancestors.find? (isMarked t here) = some d ↔
      first.Above d ∧ HoldsMarker t here d ∧
        ∀ q, first.Above q → HoldsMarker t here q → q ≠ d →
          q.components.length < d.components.length := by
  have nearest : ∀ {d : Path}, first.ancestors.find? (isMarked t here) = some d →
      ∀ q, first.Above q → HoldsMarker t here q → q ≠ d →
        q.components.length < d.components.length := by
    intro d found q above holds other
    have enough := Nat.lt_succ_of_le (Path.length_components_le first)
    have higher := Path.above_of_find? found enough above (isMarked_iff.mpr holds)
    exact higher.eq_or_length_lt.resolve_left other
  constructor
  · intro found
    exact ⟨Path.mem_ancestors_iff.mp (List.mem_of_find?_eq_some found),
      isMarked_iff.mp (List.find?_some found), nearest found⟩
  · rintro ⟨above, holds, deepest⟩
    cases found : first.ancestors.find? (isMarked t here) with
    | none => exact absurd holds (find?_ancestors_eq_none_iff.mp found d above)
    | some e =>
        by_cases same : d = e
        · rw [same]
        · have less := nearest found d above holds same
          have above' := Path.mem_ancestors_iff.mp (List.mem_of_find?_eq_some found)
          have holds' := isMarked_iff.mp (List.find?_some found)
          have less' := deepest e above' holds' (Ne.symm same)
          omega

/-- The way up from a start, or from above it where it is a file, comes to its end after no more
steps than there are components, at the root for an absolute path and at the empty path for a
relative one. The root of the project is the deepest directory on it that holds a marker, and there
is none exactly if no directory on it holds one. -/
theorem root_nearest (t : FileTree) (here : Location) (start : Path) :
    ∃ first, (if t.isFile here start then start.parent? = some first else first = start) ∧
      (∀ n, first.components.length < n → first.ancestorsWithin n = first.ancestors) ∧
      (∀ cs, (∃ q, first.Above q ∧ q.components = cs) ↔
        cs <+: first.components ∧ (first.isAbsolute = true → cs ≠ [])) ∧
      (∀ d, root? t here start = some d ↔ first.Above d ∧ HoldsMarker t here d ∧
        ∀ q, first.Above q → HoldsMarker t here q → q ≠ d →
          q.components.length < d.components.length) ∧
      (root? t here start = none ↔ ∀ q, first.Above q → ¬ HoldsMarker t here q) := by
  obtain ⟨first, begins, root⟩ := exists_first t here start
  refine ⟨first, begins, fun n enough => Path.ancestors_eq enough,
    fun cs => Path.exists_above_iff, fun d => ?_, ?_⟩
  · rw [root]
    exact find?_ancestors_eq_some_iff
  · rw [root]
    exact find?_ancestors_eq_none_iff

/-- A marked directory with a marked directory in it, above the directory of a file. -/
def nestedProject : FileTree where
  entries := [(["p"], .directory), (["p", "package.json"], .file (.text "") false),
    (["p", "app"], .directory), (["p", "app", "next.config.js"], .file (.text "") false),
    (["p", "app", "src"], .directory), (["p", "app", "src", "a.js"], .file (.text "") false)]
  nodup := by decide

theorem root_nearest_nested :
    root? nestedProject [] ⟨"p/app/src/a.js"⟩ = some ⟨"p/app"⟩ ∧
    (⟨"p/app/src"⟩ : Path).Above ⟨"p/app"⟩ ∧ HoldsMarker nestedProject [] ⟨"p/app"⟩ ∧
    (⟨"p/app/src"⟩ : Path).Above ⟨"p"⟩ ∧ HoldsMarker nestedProject [] ⟨"p"⟩ ∧
    (⟨"p"⟩ : Path).components.length < (⟨"p/app"⟩ : Path).components.length := by
  obtain ⟨first, begins, -, -, nearest, -⟩ := root_nearest nestedProject [] ⟨"p/app/src/a.js"⟩
  have file : nestedProject.isFile [] ⟨"p/app/src/a.js"⟩ = true := by decide +kernel
  have up : (⟨"p/app/src/a.js"⟩ : Path).parent? = some ⟨"p/app/src"⟩ := by decide +kernel
  rw [if_pos file, up] at begins
  cases begins
  have root : root? nestedProject [] ⟨"p/app/src/a.js"⟩ = some ⟨"p/app"⟩ := by decide +kernel
  have higher : (⟨"p/app/src"⟩ : Path).Above ⟨"p"⟩ := Path.mem_ancestors_iff.mp (by decide +kernel)
  have marked : HoldsMarker nestedProject [] ⟨"p"⟩ := isMarked_iff.mp (by decide +kernel)
  obtain ⟨above, holds, deepest⟩ := (nearest ⟨"p/app"⟩).mp root
  exact ⟨root, above, holds, higher, marked, deepest ⟨"p"⟩ higher marked (by decide)⟩

end Project

end Restyle
