import Restyle.Project
import Restyle.Proofs.Component.Companion
/-!
What the imports of rewritten files stand for. An import names the companion of its file without the
extension; of the selected files of one directory those with one stem share it, and no others do.
-/

namespace Restyle

open Restyle.Path (cutAtDot)

variable {files : List Path} {names extensions : List String} {here : Location} {p q : Path}
  {s stem e : String}

structure Path.HasName (p : Path) (s stem e : String) : Prop where
  name : p.fileName? = some s
  cut : cutAtDot s = (stem, some e)

namespace Path.HasName

variable {s' stem' e' : String}

theorem stem?_eq (h : p.HasName s stem e) : p.stem? = some stem := by
  rw [stem?, h.name, Option.map_some, h.cut]

theorem extension?_eq (h : p.HasName s stem e) : p.extension? = some e := by
  rw [extension?, h.name, Option.bind_some, h.cut]

theorem stem?_eq_iff (hp : p.HasName s stem e) (hq : q.HasName s' stem' e') :
    p.stem? = q.stem? ↔ stem = stem' := by
  rw [hp.stem?_eq, hq.stem?_eq, Option.some_inj]

theorem place_eq (h : p.HasName s stem e) (here : Location) :
    p.place here = (p.place here).dropLast ++ [s] := by
  rw [Component.place_of_components (components_of_fileName? h.name), List.dropLast_concat]

theorem name_inj (hp : p.HasName s stem e) (hq : q.HasName s' stem e) : s = s' := by
  apply String.toList_inj.mp
  rw [(cutAtDot_eq_some hp.cut).1, (cutAtDot_eq_some hq.cut).1]

end Path.HasName

theorem Project.hasName_of_selected (h : p ∈ selectTargets files names extensions) :
    ∃ s stem e, p.HasName s stem e ∧ e ∈ extensions := by
  have target := (List.mem_filter.mp h).2
  have asked := (Bool.and_eq_true_iff.mp target).2
  obtain ⟨e, extension, listed⟩ := (Option.any_eq_true _ _).mp asked
  obtain ⟨s, stem, name, cut⟩ := Path.cutAtDot_of_extension? extension
  exact ⟨s, stem, e, ⟨name, cut⟩, List.contains_iff_mem.mp listed⟩

namespace Component

theorem hasName_companionPath (h : p.HasName s stem e) :
    (companionPath p).HasName (companionName s) (stem ++ ".style") e := by
  constructor
  · rw [Path.fileName?, components_companionPath h.name, List.getLast?_concat]
  · have whole :
        companionName s = String.ofList ((stem ++ ".style").toList ++ '.' :: e.toList) := by
      rw [← toList_companionName_of_extension h.cut, String.ofList_toList]
    have some_stem : (stem ++ ".style").toList ≠ [] := by
      rw [String.toList_append]
      exact List.append_ne_nil_of_right_ne_nil _ (by decide)
    rw [whole, Path.cutAtDot_append some_stem (Path.cutAtDot_eq_some h.cut).2, String.ofList_toList,
      String.ofList_toList]

theorem place_companionPath (h : p.HasName s stem e) (here : Location) :
    (companionPath p).place here = (p.place here).dropLast ++ [companionName s] := by
  rw [place_of_components (components_companionPath h.name),
    place_of_components (Path.components_of_fileName? h.name), List.dropLast_concat]

/-- The import of a file is made of its stem alone. -/
theorem importSpecifier_companionPath (h : p.HasName s stem e) :
    importSpecifier (companionPath p) = "./" ++ (stem ++ ".style") := by
  rw [importSpecifier, (hasName_companionPath h).stem?_eq, Option.getD_some]

/-- Whether the import of a rewritten file stands for some file: one in its directory that has the
name imported and, behind it, one of the extensions. -/
def ImportLeadsTo (extensions : List String) (here : Location) (p c : Path) : Prop :=
  ∃ s stem e, c.place here = (p.place here).dropLast ++ [s] ∧ cutAtDot s = (stem, some e) ∧
    e ∈ extensions ∧ importSpecifier (companionPath p) = "./" ++ stem

theorem importSpecifier_inj_iff (hp : p ∈ Project.selectTargets files names extensions)
    (hq : q ∈ Project.selectTargets files names extensions) :
    importSpecifier (companionPath p) = importSpecifier (companionPath q) ↔ p.stem? = q.stem? := by
  obtain ⟨s, stem, e, named, -⟩ := Project.hasName_of_selected hp
  obtain ⟨s', stem', e', named', -⟩ := Project.hasName_of_selected hq
  rw [importSpecifier_companionPath named, importSpecifier_companionPath named',
    named.stem?_eq_iff named', String.append_right_inj, String.append_left_inj]

theorem importLeadsTo_companionPath_iff (hp : p ∈ Project.selectTargets files names extensions)
    (hq : q ∈ Project.selectTargets files names extensions)
    (beside : (p.place here).dropLast = (q.place here).dropLast) :
    ImportLeadsTo extensions here p (companionPath q) ↔ p.stem? = q.stem? := by
  obtain ⟨s, stem, e, named, -⟩ := Project.hasName_of_selected hp
  obtain ⟨s', stem', e', named', listed⟩ := Project.hasName_of_selected hq
  have companion := hasName_companionPath named'
  rw [ImportLeadsTo, place_companionPath named' here, importSpecifier_companionPath named, beside,
    named.stem?_eq_iff named']
  constructor
  · rintro ⟨n, front, extension, at_, cut, -, imported⟩
    have last : companionName s' = n := (List.cons.inj (List.append_cancel_left at_)).1
    rw [← last, companion.cut] at cut
    cases cut
    exact (String.append_left_inj _).mp ((String.append_right_inj _).mp imported)
  · rintro rfl
    exact ⟨companionName s', _, e', rfl, companion.cut, listed, rfl⟩

theorem extension?_ne_of_stem? (hp : p ∈ Project.selectTargets files names extensions)
    (hq : q ∈ Project.selectTargets files names extensions)
    (beside : (p.place here).dropLast = (q.place here).dropLast)
    (apart : p.place here ≠ q.place here) (one_stem : p.stem? = q.stem?) :
    p.extension? ≠ q.extension? := by
  obtain ⟨s, stem, e, named, -⟩ := Project.hasName_of_selected hp
  obtain ⟨s', stem', e', named', -⟩ := Project.hasName_of_selected hq
  rw [named.stem?_eq_iff named'] at one_stem
  subst one_stem
  rw [named.extension?_eq, named'.extension?_eq, ne_eq, Option.some_inj]
  rintro rfl
  apply apart
  rw [named.place_eq here, named'.place_eq here, beside, named.name_inj named']

/-- Of two selected files of one directory the imports differ exactly if the stems do, as they do if
only one extension is asked for. The import of each stands for its own companion, and for that of
the other, which is another file, exactly if the files differ in the extension only. -/
theorem imports_differ_iff (hp : p ∈ Project.selectTargets files names extensions)
    (hq : q ∈ Project.selectTargets files names extensions)
    (beside : (p.place here).dropLast = (q.place here).dropLast)
    (apart : p.place here ≠ q.place here) :
    (importSpecifier (companionPath p) ≠ importSpecifier (companionPath q)
      ↔ p.stem? ≠ q.stem?) ∧
    (p.stem? = q.stem? → p.extension? ≠ q.extension?) ∧
    ((∀ e ∈ extensions, ∀ e' ∈ extensions, e = e') → p.stem? ≠ q.stem?) ∧
    (companionPath p).place here ≠ (companionPath q).place here ∧
    ImportLeadsTo extensions here p (companionPath p) ∧
    (ImportLeadsTo extensions here p (companionPath q) ↔ p.stem? = q.stem?) := by
  have extensions_differ := extension?_ne_of_stem? hp hq beside apart
  have own : ImportLeadsTo extensions here p (companionPath p) :=
    (importLeadsTo_companionPath_iff hp hp rfl).mpr rfl
  obtain ⟨s, stem, e, named, listed⟩ := Project.hasName_of_selected hp
  obtain ⟨s', stem', e', named', listed'⟩ := Project.hasName_of_selected hq
  refine ⟨not_congr (importSpecifier_inj_iff hp hq), extensions_differ, ?_, ?_, own,
    importLeadsTo_companionPath_iff hp hq beside⟩
  · intro one one_stem
    apply extensions_differ one_stem
    rw [named.extension?_eq, named'.extension?_eq, one e listed e' listed']
  · intro same
    exact apart (place_of_place_companionPath named.name named'.name same)

/-- The stem of one file may begin with that of the other. -/
theorem imports_differ_iff_longer :
    importSpecifier (companionPath ⟨"src/a.jsx"⟩)
        ≠ importSpecifier (companionPath ⟨"src/a.b.jsx"⟩) ∧
      ImportLeadsTo ["jsx", "tsx"] [] ⟨"src/a.jsx"⟩ (companionPath ⟨"src/a.jsx"⟩) ∧
      ¬ ImportLeadsTo ["jsx", "tsx"] [] ⟨"src/a.jsx"⟩ (companionPath ⟨"src/a.b.jsx"⟩) := by
  let files : List Path := [⟨"src/a.jsx"⟩, ⟨"src/a.b.jsx"⟩]
  have first : ⟨"src/a.jsx"⟩ ∈ Project.selectTargets files ["a", "a.b"] ["jsx", "tsx"] := by decide
  have second : ⟨"src/a.b.jsx"⟩ ∈ Project.selectTargets files ["a", "a.b"] ["jsx", "tsx"] := by
    decide
  have place : (⟨"src/a.jsx"⟩ : Path).place [] = ["src", "a.jsx"] := rfl
  have place' : (⟨"src/a.b.jsx"⟩ : Path).place [] = ["src", "a.b.jsx"] := rfl
  have stems : (⟨"src/a.jsx"⟩ : Path).stem? ≠ (⟨"src/a.b.jsx"⟩ : Path).stem? := by decide
  obtain ⟨differ, -, -, -, own, other⟩ :=
    imports_differ_iff first second (by rw [place, place']; rfl) (by rw [place, place']; decide)
  exact ⟨differ.mpr stems, own, fun leads => stems (other.mp leads)⟩

/-- Files of one directory that differ in the extension only have one import. -/
theorem one_import_of_stem :
    ¬ ∀ (files : List Path) (names extensions : List String) (here : Location) (p q : Path),
      p ∈ Project.selectTargets files names extensions →
      q ∈ Project.selectTargets files names extensions →
      (p.place here).dropLast = (q.place here).dropLast → p.place here ≠ q.place here →
      importSpecifier (companionPath p) ≠ importSpecifier (companionPath q) := by
  intro differ
  let files : List Path := [⟨"src/a.jsx"⟩, ⟨"src/a.tsx"⟩]
  have first : ⟨"src/a.jsx"⟩ ∈ Project.selectTargets files ["a"] ["jsx", "tsx"] := by decide
  have second : ⟨"src/a.tsx"⟩ ∈ Project.selectTargets files ["a"] ["jsx", "tsx"] := by decide
  have one_import := (importSpecifier_inj_iff first second).mpr (by decide)
  exact differ files ["a"] ["jsx", "tsx"] [] _ _ first second (by decide) (by decide) one_import

end Component

end Restyle
