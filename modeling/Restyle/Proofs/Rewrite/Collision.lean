import Restyle.Proofs.Markup.Ranges
import Restyle.Proofs.Rewrite.Binding
import Restyle.Proofs.Rewrite.Content
import Restyle.Proofs.Rewrite.Placement
/-!
What can come between a source and its own components. The edits of elements never collide with
one another. The import collides with them where the line of the last directive ends inside a range
of an element. Otherwise the file is rewritten, unless the text that results has a fault.
-/

namespace Restyle

open Component (Collection Styled Synthesizer)
open Markup (Element)
open Syntax (Node)
open Text (byteLength)

namespace Syntax

mutual
theorem Node.faults_ne_nil (source : List Char) (n : Node) (h : n.hasFault = true) :
    n.faults source ≠ [] := by
  cases n with
  | mk k r s cs =>
      rw [Node.hasFault, Bool.or_eq_true] at h
      unfold Node.faults
      dsimp only
      rcases h with here | below
      · rw [if_pos here]
        exact List.append_ne_nil_of_left_ne_nil (List.cons_ne_nil _ _) _
      · exact List.append_ne_nil_of_right_ne_nil _ (faultsOf_ne_nil source cs below)

theorem faultsOf_ne_nil (source : List Char) (ns : List Node) (h : Node.anyFault ns = true) :
    faultsOf source ns ≠ [] := by
  cases ns with
  | nil => cases h
  | cons n ns =>
      rw [Node.anyFault, Bool.or_eq_true] at h
      unfold faultsOf
      rcases h with first | later
      · rw [if_pos (by rw [first, Bool.true_or])]
        exact List.append_ne_nil_of_left_ne_nil (Node.faults_ne_nil source n first) _
      · exact List.append_ne_nil_of_right_ne_nil _ (faultsOf_ne_nil source ns later)
end

theorem length_faults_pos_iff (tree : Node) (source : List Char) :
    0 < (faults tree source).length ↔ tree.hasFault = true := by
  rw [List.length_pos_iff, faults]
  split
  · rename_i faulty
    exact ⟨fun _ => faulty, fun _ => Node.faults_ne_nil source tree faulty⟩
  · rename_i faultless
    exact ⟨fun some => absurd rfl some, fun faulty => absurd faulty faultless⟩

theorem faults_of_faultless {tree : Node} (h : tree.hasFault = false) (source : List Char) :
    faults tree source = [] := by
  rw [faults, h]
  rfl

end Syntax

namespace Script

theorem lineEnd_isBoundary (source : String) (offset : Nat) :
    Text.isBoundary (lineEnd source offset) source.toList = true := by
  have whole : Text.isBoundary (byteLength source.toList) source.toList = true :=
    Text.isBoundary_iff.mpr ⟨source.toList, [], (List.append_nil _).symm, rfl⟩
  unfold lineEnd
  dsimp only
  split
  · rename_i before rest cut
    obtain ⟨text, at_⟩ := Text.splitAtByte?_sound cut
    split
    · rename_i ends
      obtain ⟨line, behind, rfl, free⟩ :=
        List.eq_append_cons_of_mem (List.contains_iff_mem.mp ends)
      have upto : (line ++ '\n' :: behind).takeWhile (· != '\n') = line := by
        rw [List.takeWhile_append_of_pos fun c member => by
          rw [bne_iff_ne]
          rintro rfl
          exact free member]
        rw [List.takeWhile_cons_of_neg (by decide), List.append_nil]
      refine Text.isBoundary_iff.mpr ⟨before ++ (line ++ ['\n']), behind, ?_, ?_⟩
      · rw [text, List.append_assoc, List.append_assoc]
        rfl
      · rw [upto, Text.byteLength_append, Text.byteLength_append, at_, Nat.add_assoc]
        rfl
    · exact whole
  · exact whole

theorem directiveEnd?_isBoundary (source : String) (tree : Node) :
    Text.isBoundary ((directiveEnd? source tree).getD 0) source.toList = true := by
  rw [directiveEnd?_eq]
  cases lastDirective? source tree with
  | none => exact Text.isBoundary_iff.mpr ⟨[], source.toList, rfl, rfl⟩
  | some d => exact lineEnd_isBoundary source d.span.stop

end Script

theorem Language.parse_derived {l : Language} {source : String} (markup : l.hasMarkup = true)
    (faultless : (l.parse source).hasFault = false) :
    ∃ d, (l.parse source).Derived (Script.grammar d) source.toList := by
  cases l with
  | javaScript => exact ⟨_, Syntax.parse_derived faultless⟩
  | jsx => exact ⟨_, Syntax.parse_derived faultless⟩
  | tsx => exact ⟨_, Syntax.parse_derived faultless⟩
  | typeScript => cases markup
  | css => cases markup

namespace Rewrite

variable {attr : String} {file : Path} {source : String}

/-- The line of the last directive ends inside a range of an element. -/
def Crossed (attr : String) (file : Path) (source : String) (tree : Node) : Prop :=
  ∃ d, Script.lastDirective? source tree = some d ∧
    ∃ e ∈ Markup.scan attr file source tree, ∃ r ∈ e.spans,
      r.start < Script.lineEnd source d.span.stop ∧ Script.lineEnd source d.span.stop < r.stop

theorem crossed_iff {tree : Node} : Crossed attr file source tree ↔
    ∃ r ∈ (Markup.scan attr file source tree).flatMap Element.spans,
      ¬ r.Apart ⟨(Script.directiveEnd? source tree).getD 0,
        (Script.directiveEnd? source tree).getD 0⟩ := by
  rw [Script.directiveEnd?_eq]
  unfold Crossed Span.Apart
  cases Script.lastDirective? source tree with
  | none =>
      constructor
      · rintro ⟨d, none, -⟩
        cases none
      · rintro ⟨r, -, inside⟩
        exact absurd (.inr (Nat.zero_le _)) inside
  | some d =>
      simp only [List.mem_flatMap, Option.map_some, Option.getD_some, Option.some.injEq]
      constructor
      · rintro ⟨_, rfl, e, member, r, of_e, begins, ends⟩
        exact ⟨r, ⟨e, member, of_e⟩, by omega⟩
      · rintro ⟨r, ⟨e, member, of_e⟩, inside⟩
        exact ⟨d, rfl, e, member, r, of_e, by omega⟩

theorem elementEdits_map_span (attr : String) (e : Element) (c : Styled) :
    (elementEdits attr e c).map (·.span) = e.spans := by
  cases closing : e.closingName with
  | none => simp only [elementEdits, Element.spans, closing]; rfl
  | some s => simp only [elementEdits, Element.spans, closing]; rfl

theorem editsFor_map_span {components : Collection} {es : List Element} {edits : List Edit}
    (made : editsFor attr file components es = .ok edits) :
    edits.map (·.span) = es.flatMap Element.spans := by
  obtain ⟨bound, rfl, -, rfl⟩ := editsFor_eq_ok_iff.mp made
  simp only [List.map_flatMap, List.flatMap_map, elementEdits_map_span]

/-- In a script without faults, the edits of elements and the import go together exactly when the
line of the last directive ends inside none of the ranges. -/
theorem accepted_iff {d : Script.Dialect} {tree : Node} {components : Collection}
    {edits : List Edit} (derived : tree.Derived (Script.grammar d) source.toList)
    (made : editsFor attr file components (Markup.scan attr file source tree) = .ok edits)
    (owned : List Styled) :
    (∃ set, EditSet.ofList (edits ++ [importEdit source tree owned]) source = .ok set) ↔
      ¬ Crossed attr file source tree := by
  have spans := editsFor_map_span made
  obtain ⟨apart, stands⟩ := Markup.scan_apart derived
  rw [← spans] at apart stands
  rw [EditSet.exists_ofList_iff, crossed_iff, ← spans]
  have place : (importEdit source tree owned).span =
      ⟨(Script.directiveEnd? source tree).getD 0, (Script.directiveEnd? source tree).getD 0⟩ := rfl
  have boundary := Script.directiveEnd?_isBoundary source tree
  constructor
  · rintro ⟨-, all⟩ ⟨r, member, inside⟩
    obtain ⟨e, edit, rfl⟩ := List.mem_map.mp member
    exact inside ((List.pairwise_append.mp all).2.2 e edit _ List.mem_cons_self)
  · -- The ranges of elements lie apart as it is, so that only the import is left to compare.
    intro never
    refine ⟨?_, List.pairwise_append.mpr ⟨List.pairwise_map.mp apart,
      List.pairwise_singleton _ _, ?_⟩⟩
    · intro e member
      rcases List.mem_append.mp member with edit | last
      · exact stands e.span (List.mem_map_of_mem edit)
      · rw [List.mem_singleton.mp last, place]
        exact ⟨Nat.le_refl _, boundary, boundary⟩
    · intro e edit i last
      rw [List.mem_singleton.mp last, place]
      by_contra inside
      exact never ⟨e.span, List.mem_map_of_mem edit, inside⟩

/-- A result of rewriting a source without faults, unless it has a fault itself. -/
def checked (l : Language) (r : Rewritten) : Except RewriteError Rewritten :=
  let faults := Syntax.faults (l.parse r.content) r.content.toList
  if (l.parse r.content).hasFault then .error (.invalidResult 0 faults.length faults) else .ok r

theorem verify_of_faultless (l : Language) (r : Rewritten) :
    (match verify l 0 r.content with
      | .error e => .error e
      | .ok () => .ok r) = checked l r := by
  unfold verify checked
  dsimp only
  simp only [Syntax.length_faults_pos_iff]
  cases (l.parse r.content).hasFault <;> rfl

section

variable {s : Synthesizer} {l : Language} {elements : List Element} {components made : Collection}
  (scanned : Markup.scanSource attr file source l = .ok elements) (some_element : elements ≠ [])
  (faultless : (l.parse source).hasFault = false)
  (synthesized : (s.synthesizeFile file elements components).2 = made)

include scanned some_element faultless synthesized

/-- Behind its own scan and synthesis a source without faults has an edit for each element, and what
is left to fail is whether the edits go together and whether the result has a fault. -/
theorem run_stages : made.forFile file ≠ [] ∧ ∃ edits,
    editsFor attr file made (Markup.scan attr file source (l.parse source)) = .ok edits ∧
    ((∃ set, EditSet.ofList (edits ++ [importEdit source (l.parse source) (made.forFile file)])
      source = .ok set) ↔ ¬ Crossed attr file source (l.parse source)) ∧
    run attr file source l made =
      match EditSet.ofList (edits ++ [importEdit source (l.parse source) (made.forFile file)])
        source with
      | .error c => .error (.conflict c)
      | .ok set => checked l
          ⟨set.apply source, elements.length, (made.forFile file).map (·.name)⟩ := by
  obtain ⟨markup, rfl⟩ := Markup.scanSource_eq_ok_iff.mp scanned
  have covers : ∀ e ∈ Markup.scan attr file source (l.parse source),
      made.Covers file e.classes.value := by
    have all := (Component.synthesizeFile_covers s file
      (Markup.scan attr file source (l.parse source)) components).1
    rwa [synthesized] at all
  have owns : made.forFile file ≠ [] := by
    obtain ⟨e, es, first⟩ := List.exists_cons_of_ne_nil some_element
    have covered := covers e (first ▸ List.mem_cons_self)
    intro none
    rw [Collection.Covers, none] at covered
    cases covered
  obtain ⟨edits, edited, -⟩ := editsFor_of_found attr fun e member => (covers e member).find?
  obtain ⟨d, derived⟩ := Language.parse_derived markup faultless
  refine ⟨owns, edits, edited, accepted_iff derived edited _, ?_⟩
  rw [run_of_owned owns, if_pos markup, edited,
    Syntax.faults_of_faultless faultless, List.length_nil]
  dsimp only
  cases EditSet.ofList (edits ++ [importEdit source (l.parse source) (made.forFile file)])
      source with
  | error c => rfl
  | ok set => exact verify_of_faultless l ⟨set.apply source, _, _⟩

theorem conflict_of_crossed (crossed : Crossed attr file source (l.parse source)) :
    ∃ c, run attr file source l made = .error (.conflict c) := by
  obtain ⟨-, edits, -, together, stages⟩ :=
    run_stages scanned some_element faultless synthesized
  rw [stages]
  cases accepted : EditSet.ofList
      (edits ++ [importEdit source (l.parse source) (made.forFile file)]) source with
  | error c => exact ⟨c, rfl⟩
  | ok set => exact absurd crossed (together.mp ⟨set, accepted⟩)

theorem checked_of_clear (clear : ¬ Crossed attr file source (l.parse source)) :
    ∃ content, Nonempty (Account attr file source (l.parse source) made content) ∧
      run attr file source l made =
        checked l ⟨content, elements.length, (made.forFile file).map (·.name)⟩ := by
  obtain ⟨owns, edits, edited, together, stages⟩ :=
    run_stages scanned some_element faultless synthesized
  obtain ⟨set, accepted⟩ := together.mpr clear
  rw [accepted] at stages
  exact ⟨set.apply source, account_of_accepted owns edited accepted, stages⟩

/-- A source without faults, rewritten with the components of its own scan, fails for a conflict of
edits exactly if the line of its last directive ends inside a range of an element. If not, its text
is that of the source with the names replaced, the attributes gone and the components imported, and
this is the result unless it has a fault of its own. -/
theorem run_synthesized :
    ((∃ c, run attr file source l made = .error (.conflict c)) ↔
      Crossed attr file source (l.parse source)) ∧
    (¬ Crossed attr file source (l.parse source) →
      ∃ content, Nonempty (Account attr file source (l.parse source) made content) ∧
        run attr file source l made =
          checked l ⟨content, elements.length, (made.forFile file).map (·.name)⟩) := by
  have clear := checked_of_clear scanned some_element faultless synthesized
  refine ⟨⟨?_, conflict_of_crossed scanned some_element faultless synthesized⟩, clear⟩
  rintro ⟨c, failed⟩
  by_contra never
  obtain ⟨content, -, result⟩ := clear never
  rw [failed, checked] at result
  split at result
  · cases result
  · cases result

end

/-- A tag that begins on the line of the directive and has its class attribute on the next one. -/
def crossedSource : String := "'use client'; x = <a\n  className=\"p\" />\n"

def crossedElement : Element :=
  ⟨⟨"a.jsx"⟩, 0, "a", ⟨19, 20⟩, none, ⟨"p", ⟨23, 36⟩, ⟨20, 36⟩⟩⟩

theorem crossed_stages :
    (Markup.scanSource "className" ⟨"a.jsx"⟩ crossedSource .jsx).toOption =
      some [crossedElement] ∧
    (Language.jsx.parse crossedSource).hasFault = false ∧
    (Script.lastDirective? crossedSource (Language.jsx.parse crossedSource)).map
      (fun d => Script.lineEnd crossedSource d.span.stop) = some 21 := by
  decide +kernel

theorem crossed_crossedSource :
    Crossed "className" ⟨"a.jsx"⟩ crossedSource (Language.jsx.parse crossedSource) := by
  obtain ⟨scanned, -, ends⟩ := crossed_stages
  obtain ⟨d, last, at_⟩ := Option.map_eq_some_iff.mp ends
  obtain ⟨-, elements⟩ := Markup.scanSource_eq_ok_iff.mp (ok_of_toOption scanned)
  have member : crossedElement ∈ Markup.scan "className" ⟨"a.jsx"⟩ crossedSource
      (Language.jsx.parse crossedSource) := by
    rw [← elements]
    exact List.mem_cons_self
  refine ⟨d, last, crossedElement, member, ⟨20, 36⟩, by decide, ?_⟩
  rw [at_]
  decide

theorem run_synthesized_crossed :
    Markup.scanSource "className" ⟨"a.jsx"⟩ crossedSource .jsx = .ok [crossedElement] ∧
    (Language.jsx.parse crossedSource).hasFault = false ∧
    ∃ c, run "className" ⟨"a.jsx"⟩ crossedSource .jsx
      ((⟨Sheet.StyleTable.empty, "Style"⟩ : Synthesizer).synthesizeFile ⟨"a.jsx"⟩
        [crossedElement] []).2 = .error (.conflict c) := by
  obtain ⟨scanned, faultless, -⟩ := crossed_stages
  have scanned := ok_of_toOption scanned
  exact ⟨scanned, faultless, (run_synthesized scanned (List.cons_ne_nil _ _) faultless rfl).1.mpr
    crossed_crossedSource⟩

/-- A source without faults may not be rewritten with the components of its own scan. -/
theorem own_components_conflict : ¬ ∀ (s : Synthesizer) (attr : String) (file : Path)
    (source : String) (l : Language) (elements : List Element) (components : Collection),
    (file.stem?.any fun stem => stem != "" && stem.toList.all Char.isAlpha) = true →
    Markup.scanSource attr file source l = .ok elements → elements ≠ [] →
    (l.parse source).hasFault = false →
    ∃ r, run attr file source l (s.synthesizeFile file elements components).2 = .ok r := by
  intro always
  obtain ⟨scanned, faultless, -⟩ := crossed_stages
  have scanned := ok_of_toOption scanned
  obtain ⟨r, ok⟩ := always ⟨Sheet.StyleTable.empty, "Style"⟩ "className" ⟨"a.jsx"⟩
    crossedSource .jsx [crossedElement] [] (by decide) scanned (List.cons_ne_nil _ _) faultless
  obtain ⟨c, failed⟩ :=
    conflict_of_crossed scanned (List.cons_ne_nil _ _) faultless rfl crossed_crossedSource
  rw [failed] at ok
  cases ok

end Rewrite

end Restyle
