import Restyle.Proofs.Component.Synthesis
import Restyle.Proofs.Rewrite.Outcome
/-!
Which component takes the place of an element. Components are looked up by class text alone, so
elements of one file that share a class text share the component, which is made for the tag of the
first of them.
-/

namespace Restyle

open Component (Collection Styled Synthesizer Records firstWith? literals)
open Markup (Element)
open Sheet (StyleTable)

namespace Component

theorem Records.find? {s : Synthesizer} {file : Path} {es : List Element} {cs : Collection}
    (h : Records s file es (cs.forFile file)) {e : Element} (member : e ∈ es) :
    ∃ first c, firstWith? es e.classes.value = some first ∧
      cs.find? file e.classes.value = some c ∧ c.tag = first.tag ∧
      c.constructor = constructorFor first.tag := by
  have text : e.classes.value ∈ literals es := List.mem_map.mpr ⟨e, member, rfl⟩
  have there := h.mem_texts_iff.mpr text
  obtain ⟨c, found⟩ := Option.isSome_iff_exists.mp (Collection.find?_isSome_iff.mpr there)
  have found_own := found
  rw [Collection.find?_eq] at found_own
  have same_text : c.classNames = e.classes.value := by simpa using List.find?_some found_own
  obtain ⟨k, inside, at_⟩ := List.getElem_of_mem (List.mem_of_find?_eq_some found_own)
  obtain ⟨first, firstFound, made⟩ := h.made k c (List.getElem?_eq_some_iff.mpr ⟨inside, at_⟩)
  rw [same_text] at firstFound
  exact ⟨first, c, firstFound, found, congrArg Styled.tag made, congrArg Styled.constructor made⟩

end Component

namespace Rewrite

/-- Where every element finds a component, the edits exist, and the name of an element gives way to
that of the component it finds. -/
theorem editsFor_of_found (attr : String) {file : Path} {cs : Collection} {es : List Element}
    (found : ∀ e ∈ es, ∃ c, cs.find? file e.classes.value = some c) :
    ∃ edits, editsFor attr file cs es = .ok edits ∧
      ∀ e ∈ es, ∀ c, cs.find? file e.classes.value = some c →
        ∃ d ∈ edits, d.span = e.openingName ∧ d.replacement = c.name := by
  induction es with
  | nil => exact ⟨[], rfl, fun e member => absurd member List.not_mem_nil⟩
  | cons e es ih =>
      obtain ⟨c, here⟩ := found e List.mem_cons_self
      obtain ⟨edits, made, opens⟩ := ih fun d member => found d (List.mem_cons_of_mem e member)
      refine ⟨elementEdits attr e c ++ edits, by simp only [editsFor, here, made], ?_⟩
      intro d member c' here'
      rcases List.mem_cons.mp member with rfl | later
      · rw [here] at here'
        cases here'
        exact ⟨_, List.mem_append_left edits List.mem_cons_self, rfl, rfl⟩
      · obtain ⟨edit, inside, renames⟩ := opens d later c' here'
        exact ⟨edit, List.mem_append_right _ inside, renames⟩

/-- After a file without components was scanned and synthesized, each of its elements finds a
component, whose name takes the place of its own. It is made for the tag of the first element with
the same class text, and so for the tag of the element itself if all elements with its class text
have one tag. -/
theorem component_of_scanned (s : Synthesizer) (attr : String) (file : Path) (source : String)
    (l : Language) (cs : Collection) (unseen : cs.forFile file = []) :
    ∃ edits, editsFor attr file
        (s.synthesizeFile file (Markup.scan attr file source (l.parse source)) cs).2
        (Markup.scan attr file source (l.parse source)) = .ok edits ∧
      ∀ e ∈ Markup.scan attr file source (l.parse source), ∃ first c,
        firstWith? (Markup.scan attr file source (l.parse source)) e.classes.value = some first ∧
        (s.synthesizeFile file (Markup.scan attr file source (l.parse source)) cs).2.find? file
          e.classes.value = some c ∧
        (∃ d ∈ edits, d.span = e.openingName ∧ d.replacement = c.name) ∧
        c.tag = first.tag ∧ c.constructor = Component.constructorFor first.tag ∧
        (c.tag = e.tag ↔ first.tag = e.tag) ∧
        ((∀ d ∈ Markup.scan attr file source (l.parse source),
          d.classes.value = e.classes.value → d.tag = e.tag) → c.tag = e.tag) := by
  generalize Markup.scan attr file source (l.parse source) = es
  have recorded : Records s file es ((s.synthesizeFile file es cs).2.forFile file) := by
    have start : Records s file [] (cs.forFile file) := by
      rw [unseen]
      exact Records.nil
    exact Component.synthesizeFile_records start es
  have everywhere : ∀ e ∈ es, ∃ c,
      (s.synthesizeFile file es cs).2.find? file e.classes.value = some c := by
    intro e member
    obtain ⟨-, c, -, found, -⟩ := recorded.find? member
    exact ⟨c, found⟩
  obtain ⟨edits, made, opens⟩ := editsFor_of_found attr everywhere
  refine ⟨edits, made, ?_⟩
  intro e member
  obtain ⟨first, c, firstFound, found, tag, constructor⟩ := recorded.find? member
  refine ⟨first, c, firstFound, found, opens e member c found, tag, constructor, by rw [tag], ?_⟩
  intro alike
  obtain ⟨among, same_text⟩ := Component.firstWith?_mem firstFound
  rw [tag]
  exact alike first among same_text

/-- Two elements of different tags that share a class text. -/
def sharedSource : String := "<a className=\"p\"><b className=\"p\" /></a>"

def sharedOuter : Element :=
  ⟨⟨"a.jsx"⟩, 0, "a", ⟨1, 2⟩, some ⟨38, 39⟩, ⟨"p", ⟨3, 16⟩, ⟨2, 16⟩⟩⟩

def sharedInner : Element :=
  ⟨⟨"a.jsx"⟩, 1, "b", ⟨18, 19⟩, none, ⟨"p", ⟨20, 33⟩, ⟨19, 33⟩⟩⟩

def otherComponents : Collection :=
  [⟨"OtherStyle", ⟨"other.jsx"⟩, ⟨"other.style.jsx"⟩, "p", "b", "styled.b", ""⟩]

theorem scan_sharedSource : Markup.scan "className" ⟨"a.jsx"⟩ sharedSource
    (Language.jsx.parse sharedSource) = [sharedOuter, sharedInner] := by
  decide +kernel

theorem component_of_scanned_shared :
    Collection.forFile otherComponents ⟨"a.jsx"⟩ = [] ∧
    ∃ edits, editsFor "className" ⟨"a.jsx"⟩
        ((⟨StyleTable.empty, "Style"⟩ : Synthesizer).synthesizeFile ⟨"a.jsx"⟩
          [sharedOuter, sharedInner] otherComponents).2 [sharedOuter, sharedInner] = .ok edits ∧
      ∃ c : Styled, c.tag = "a" ∧ sharedInner.tag = "b" ∧
        ∃ d ∈ edits, d.span = sharedInner.openingName ∧ d.replacement = c.name := by
  have unseen : Collection.forFile otherComponents ⟨"a.jsx"⟩ = [] := by decide +kernel
  obtain ⟨edits, made, all⟩ := component_of_scanned ⟨StyleTable.empty, "Style"⟩ "className"
    ⟨"a.jsx"⟩ sharedSource .jsx otherComponents unseen
  rw [scan_sharedSource] at made all
  obtain ⟨first, c, firstFound, -, renames, tag, -⟩ :=
    all sharedInner (List.mem_cons_of_mem _ List.mem_cons_self)
  cases firstFound
  exact ⟨unseen, edits, made, c, tag, rfl, renames⟩

/-- An element may find a component that was made for another tag. -/
theorem scanned_tag_not_kept : ¬ ∀ (s : Synthesizer) (attr : String) (file : Path)
    (source : String) (l : Language) (cs : Collection), cs.forFile file = [] →
    ∀ e ∈ Markup.scan attr file source (l.parse source), ∀ c,
      (s.synthesizeFile file (Markup.scan attr file source (l.parse source)) cs).2.find? file
        e.classes.value = some c → c.tag = e.tag := by
  intro kept
  have inner := kept ⟨StyleTable.empty, "Style"⟩ "className" ⟨"a.jsx"⟩ sharedSource .jsx [] rfl
    sharedInner
  rw [scan_sharedSource] at inner
  have same := inner (List.mem_cons_of_mem _ List.mem_cons_self)
    ⟨"AStyle", ⟨"a.jsx"⟩, ⟨"a.style.jsx"⟩, "p", "a", "styled.a", ""⟩ (by decide +kernel)
  exact absurd same (by decide)

end Rewrite

end Restyle
