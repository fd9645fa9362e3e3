import Mathlib.Data.List.Permutation
import Restyle.Proofs.Rewrite.Outcome
/-!
The text of a rewritten file. It is the source with three kinds of changes and no others: names of
elements become names of components, class attributes go, and one import is inserted. All other
text is kept, in its order and once.
-/

namespace Restyle.Rewrite

open Component (Collection Styled importSpecifier)
open Markup (Element)
open Syntax (Node)
open Text (byteLength)

/-- What becomes of an element: both its names give way to that of its component, and what its class
attribute takes up goes. -/
def elementChanges (e : Element) (c : Styled) : List Change :=
  ⟨e.openingName, c.name⟩ :: e.closingName.toList.map (fun s => ⟨s, c.name⟩)
    ++ [⟨e.classes.removal, ""⟩]

/-- The insertion of a statement behind some text, on a line of its own. -/
def insertion (before : List Char) (statement : String) : Change :=
  ⟨⟨byteLength before, byteLength before⟩,
    if before = [] ∨ before.getLast? = some '\n' then statement else "\n" ++ statement⟩

/-- How a text comes from the source of a file that has components. -/
structure Account (attr : String) (file : Path) (source : String) (tree : Node)
    (components : Collection) (content : String) where
  /-- Every element of the source with its component. -/
  bound : List (Element × Styled)
  scanned : bound.map Prod.fst = Markup.scan attr file source tree
  found : ∀ p ∈ bound, components.find? file p.1.classes.value = some p.2
  /-- The source up to the end of its directives, and behind it. -/
  before : List Char
  after : List Char
  cut : source.toList = before ++ after
  place : byteLength before = (Script.directiveEnd? source tree).getD 0
  /-- The first component of the file, whose companion the import names. -/
  first : Styled
  owned : (components.forFile file).head? = some first
  /-- The changes of elements that begin before the import, and the others. -/
  earlier : List Change
  later : List Change
  ahead : ∀ c ∈ earlier, c.span.start < byteLength before
  complete : (earlier ++ later).Perm (bound.flatMap fun p => elementChanges p.1 p.2)
  spliced : Spliced 0
    (earlier ++ insertion before (importStatement ((components.forFile file).map (·.name))
      (importSpecifier first.companion) (Script.quoteStyle source tree)
      (Script.usesSemicolons source tree)) :: later)
    source.toList content.toList

theorem infix_insertion (before : List Char) (statement : String) :
    statement.toList <:+: (insertion before statement).text.toList := by
  unfold insertion
  dsimp only
  split
  · exact List.infix_refl _
  · rw [String.toList_append]
    exact (List.suffix_append _ _).isInfix

theorem elementEdits_map_change (attr : String) (e : Element) (c : Styled) :
    (elementEdits attr e c).map Edit.change = elementChanges e c := by
  cases closing : e.closingName with
  | none => simp only [elementEdits, elementChanges, closing]; rfl
  | some s => simp only [elementEdits, elementChanges, closing]; rfl

theorem priority_of_mem_elementEdits {attr : String} {e : Element} {c : Styled} {d : Edit}
    (member : d ∈ elementEdits attr e c) : d.priority = 0 := by
  cases closing : e.closingName with
  | none =>
      simp only [elementEdits, closing, Option.map_none, Option.toList_none, List.append_nil,
        List.cons_append, List.nil_append, List.mem_cons, List.not_mem_nil, or_false] at member
      rcases member with rfl | rfl <;> rfl
  | some s =>
      simp only [elementEdits, closing, Option.map_some, Option.toList_some,
        List.cons_append, List.nil_append, List.mem_cons, List.not_mem_nil, or_false] at member
      rcases member with rfl | rfl | rfl <;> rfl

theorem importEdit_change {source : String} {tree : Node} {before after : List Char}
    (cut : source.toList = before ++ after)
    (place : byteLength before = (Script.directiveEnd? source tree).getD 0)
    (first : Styled) (others : List Styled) :
    (importEdit source tree (first :: others)).change =
      insertion before (importStatement ((first :: others).map (·.name))
        (importSpecifier first.companion) (Script.quoteStyle source tree)
        (Script.usesSemicolons source tree)) := by
  have upto : Text.slice ⟨0, byteLength before⟩ source.toList = before := by
    rw [cut, Text.slice_zero_append]
  simp only [importEdit, Edit.change, Edit.withPriority, Edit.insert, Edit.replace, ← place, upto,
    insertion, Change.mk.injEq, true_and]
  by_cases empty : before = []
  · subst empty
    rfl
  · have positive : byteLength before ≠ 0 := fun h => empty (Text.byteLength_eq_zero.mp h)
    by_cases ended : before.getLast? = some '\n'
    · simp [ended]
    · simp [empty, positive, ended]

/-- Edits of elements together with an import, once sorted: the import comes before all that do not
begin earlier. -/
theorem sorted_around {edits : List Edit} {i : Edit} {source : String} {s : EditSet}
    (accepted : EditSet.ofList (edits ++ [i]) source = .ok s) (point : i.span.start = i.span.stop)
    (first : ∀ e ∈ edits, i.priority < e.priority) :
    ∃ earlier later, s.edits = earlier ++ i :: later ∧ (earlier ++ later).Perm edits ∧
      ∀ e ∈ earlier, e.span.start < i.span.start := by
  have perm := EditSet.ofList_perm accepted
  have member : i ∈ s.edits := perm.mem_iff.mpr (by simp)
  obtain ⟨earlier, later, parts⟩ := List.append_of_mem member
  have around : (earlier ++ later).Perm edits := by
    rw [parts] at perm
    exact (List.perm_middle.symm.trans (perm.trans (List.perm_append_singleton i edits))).cons_inv
  refine ⟨earlier, later, parts, around, ?_⟩
  intro e before
  have sorted := EditSet.ofList_sorted accepted
  rw [parts] at sorted
  have le := Edit.le_iff.mp ((List.pairwise_append.mp sorted).2.2 e before i List.mem_cons_self)
  have lower := first e (around.mem_iff.mp (List.mem_append_left later before))
  have fits := (EditSet.ofList_eq_ok_iff.mp accepted).2.1 e
    (by rw [parts]; exact List.mem_append_left _ before)
  have := fits.ordered
  omega

theorem names_mem_elementChanges {e : Element} {s : Span} (c : Styled)
    (closing : e.closingName = some s) :
    ⟨e.openingName, c.name⟩ ∈ elementChanges e c ∧ ⟨s, c.name⟩ ∈ elementChanges e c := by
  simp [elementChanges, closing]

/-- Edits that go together account for the text that they give. -/
theorem account_of_accepted {attr : String} {file : Path} {source : String} {tree : Node}
    {components : Collection} {edits : List Edit} {set : EditSet}
    (owns : components.forFile file ≠ [])
    (made : editsFor attr file components (Markup.scan attr file source tree) = .ok edits)
    (accepted : EditSet.ofList (edits ++ [importEdit source tree (components.forFile file)])
      source = .ok set) :
    Nonempty (Account attr file source tree components (set.apply source)) := by
  obtain ⟨bound, scanned, found, rfl⟩ := editsFor_eq_ok_iff.mp made
  obtain ⟨first, others, owned⟩ := List.exists_cons_of_ne_nil owns
  -- The import stands at whole characters, so the source can be cut there.
  have fits := (EditSet.ofList_eq_ok_iff.mp accepted).2.1 _
    ((EditSet.ofList_perm accepted).mem_iff.mpr (List.mem_append_right _ List.mem_cons_self))
  obtain ⟨before, after, cut, place⟩ := Text.isBoundary_iff.mp fits.start
  have inserted := importEdit_change cut place first others
  rw [← owned] at inserted
  have lower : ∀ e ∈ bound.flatMap fun p => elementEdits attr p.1 p.2,
      (importEdit source tree (components.forFile file)).priority < e.priority := by
    intro e member
    obtain ⟨p, -, edit⟩ := List.mem_flatMap.mp member
    rw [priority_of_mem_elementEdits edit]
    exact Int.negSucc_lt_zero 0
  obtain ⟨earlier, later, parts, around, ahead⟩ := sorted_around accepted rfl lower
  have spliced := EditSet.apply_spliced accepted
  rw [parts, List.map_append, List.map_cons, inserted] at spliced
  have complete : (earlier.map Edit.change ++ later.map Edit.change).Perm
      (bound.flatMap fun p => elementChanges p.1 p.2) := by
    have mapped := around.map Edit.change
    simpa only [List.map_append, List.map_flatMap, elementEdits_map_change] using mapped
  refine ⟨⟨bound, scanned, found, before, after, cut, place, first, ?_, earlier.map Edit.change,
    later.map Edit.change, ?_, complete, spliced⟩⟩
  · rw [owned, List.head?_cons]
  · intro c member
    obtain ⟨e, before, rfl⟩ := List.mem_map.mp member
    rw [Edit.change_span, place]
    exact ahead e before

/-- A rewritten text is its source with the names of elements replaced, their class attributes gone
and the import inserted; the opening and the closing tag of an element carry the same name. -/
theorem run_account {attr : String} {file : Path} {source : String} {l : Language}
    {components : Collection} {r : Rewritten} (owns : components.forFile file ≠ [])
    (ok : run attr file source l components = .ok r) :
    ∃ a : Account attr file source (l.parse source) components r.content,
      (∀ p ∈ a.bound, ∀ s, p.1.closingName = some s →
        ⟨p.1.openingName, p.2.name⟩ ∈ a.earlier ++ a.later ∧
          ⟨s, p.2.name⟩ ∈ a.earlier ++ a.later) ∧
      r.replaced = (Markup.scan attr file source (l.parse source)).length ∧
      r.imported = (components.forFile file).map (·.name) := by
  obtain ⟨-, edits, set, made, accepted, -, rfl⟩ := (run_eq_ok_iff owns).mp ok
  obtain ⟨a⟩ := account_of_accepted owns made accepted
  refine ⟨a, ?_, rfl, rfl⟩
  intro p member s closing
  obtain ⟨opened, closed⟩ := names_mem_elementChanges p.2 closing
  exact ⟨a.complete.mem_iff.mpr (List.mem_flatMap.mpr ⟨p, member, opened⟩),
    a.complete.mem_iff.mpr (List.mem_flatMap.mpr ⟨p, member, closed⟩)⟩

/-- The statement that imports the components of a file stands in its rewritten text. -/
theorem import_in_content {attr : String} {file : Path} {source : String} {l : Language}
    {components : Collection} {r : Rewritten} {first : Styled}
    (owned : (components.forFile file).head? = some first)
    (ok : run attr file source l components = .ok r) :
    (importStatement r.imported (importSpecifier first.companion)
      (Script.quoteStyle source (l.parse source))
      (Script.usesSemicolons source (l.parse source))).toList <:+: r.content.toList := by
  have owns : components.forFile file ≠ [] := by
    intro none
    rw [none] at owned
    cases owned
  obtain ⟨a, -, -, imported⟩ := run_account owns ok
  have same : a.first = first := Option.some.inj (a.owned.symm.trans owned)
  rw [imported, ← same]
  exact (infix_insertion a.before _).trans
    (a.spliced.shows (List.mem_append_right _ List.mem_cons_self))

/-- A directive, an element inside another one, and a character of two bytes between them. -/
def nestedSource : String :=
  "'use client'\nx = <a className=\"p\">é<b className=\"q\" /></a>"

def nestedComponents : Collection :=
  [⟨"AStyle", ⟨"a.jsx"⟩, ⟨"a.style.jsx"⟩, "p", "a", "styled.a", ""⟩,
   ⟨"AStyle1", ⟨"a.jsx"⟩, ⟨"a.style.jsx"⟩, "q", "b", "styled.b", ""⟩]

def nestedImport : Edit :=
  ⟨⟨13, 13⟩, "import \x7b AStyle, AStyle1 \x7d from './a.style'\n", "import components", -1⟩

def nestedEdits : List Edit :=
  [⟨⟨18, 19⟩, "AStyle", "open a -> AStyle", 0⟩, ⟨⟨57, 58⟩, "AStyle", "close a -> AStyle", 0⟩,
   ⟨⟨19, 33⟩, "", "drop className", 0⟩, ⟨⟨37, 38⟩, "AStyle1", "open b -> AStyle1", 0⟩,
   ⟨⟨38, 52⟩, "", "drop className", 0⟩]

def nestedSet : EditSet where
  edits := [nestedImport,
    ⟨⟨18, 19⟩, "AStyle", "open a -> AStyle", 0⟩, ⟨⟨19, 33⟩, "", "drop className", 0⟩,
    ⟨⟨37, 38⟩, "AStyle1", "open b -> AStyle1", 0⟩, ⟨⟨38, 52⟩, "", "drop className", 0⟩,
    ⟨⟨57, 58⟩, "AStyle", "close a -> AStyle", 0⟩]

theorem nested_stages :
    Staged "className" ⟨"a.jsx"⟩ nestedSource .jsx nestedComponents nestedEdits nestedImport
      nestedSet ∧
    (⟨nestedSet.apply nestedSource, (Markup.scan "className" ⟨"a.jsx"⟩ nestedSource
        (Language.jsx.parse nestedSource)).length,
      (nestedComponents.forFile ⟨"a.jsx"⟩).map (·.name)⟩ : Rewritten) =
        ⟨"'use client'\nimport \x7b AStyle, AStyle1 \x7d from './a.style'\n" ++
          "x = <AStyle>é<AStyle1 /></AStyle>", 2, ["AStyle", "AStyle1"]⟩ := by
  decide +kernel

theorem run_nested : run "className" ⟨"a.jsx"⟩ nestedSource .jsx nestedComponents = .ok
    ⟨"'use client'\nimport \x7b AStyle, AStyle1 \x7d from './a.style'\n" ++
      "x = <AStyle>é<AStyle1 /></AStyle>", 2, ["AStyle", "AStyle1"]⟩ := by
  obtain ⟨staged, result⟩ := nested_stages
  rw [← result]
  exact run_of_staged staged

theorem run_account_nested :
    ∃ a : Account "className" ⟨"a.jsx"⟩ nestedSource (Language.jsx.parse nestedSource)
      nestedComponents ("'use client'\nimport \x7b AStyle, AStyle1 \x7d from './a.style'\n" ++
        "x = <AStyle>é<AStyle1 /></AStyle>"),
      a.bound.length = 2 := by
  obtain ⟨a, -, replaced, -⟩ := run_account nested_stages.1.owns run_nested
  refine ⟨a, ?_⟩
  rw [← List.length_map, a.scanned]
  exact replaced.symm

end Restyle.Rewrite
