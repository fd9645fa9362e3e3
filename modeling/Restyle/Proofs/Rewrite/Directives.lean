import Restyle.Proofs.Rewrite.Collision
import Restyle.Proofs.Rewrite.Content
import Restyle.Proofs.Script.Prologue
/-!
The directives of a rewritten file. Of the strings that a script begins with, those that are known
directives, up to the first that is none, stay as they are in front of the import and of every other
change. A string that is not known ends them like any other statement, and what stands behind it is
no longer seen.
-/

namespace Restyle

open Component (Collection Styled importSpecifier)
open Markup (Element)
open Syntax (Node)
open Text (byteLength)

namespace Script

def isLiteral (n : Node) : Bool :=
  n.is "expression_statement" && (n.namedChild? 0).any (Node.is "string")

/-- Whether a node may stand among the strings that a script begins with. A comment as markup writes
it does not: like a statement, it ends them. -/
def mayLead (n : Node) : Bool := n.is "comment" || n.is "hash_bang_line" || isLiteral n

/-- The strings that a script begins with, whatever they say. -/
def prologue (tree : Node) : List Node := (tree.namedChildren.takeWhile mayLead).filter isLiteral

/-- The directives among them, up to the first string that is none. -/
def directives (source : String) (tree : Node) : List Node :=
  (prologue tree).takeWhile (isDirective source)

theorem isLiteral_of_directive {source : String} {n : Node} (h : isDirective source n = true) :
    isLiteral n = true := by
  unfold isDirective at h
  unfold isLiteral
  cases first : n.namedChild? 0 with
  | none =>
      rw [first, Bool.and_false] at h
      cases h
  | some e =>
      simp only [first, Bool.and_eq_true] at h
      rw [Option.any_some, h.1, h.2.1]
      rfl

theorem isLiteral_of_passed {n : Node} (h : (n.is "comment" || n.is "hash_bang_line") = true) :
    isLiteral n = false := by
  rw [isLiteral, not_statement_of_passed h, Bool.false_and]

theorem directives_eq (source : String) (tree : Node) :
    directives source tree =
      (tree.namedChildren.takeWhile (isLeading source)).filter (isDirective source) := by
  unfold directives prologue
  induction tree.namedChildren with
  | nil => rfl
  | cons n ns ih =>
      by_cases passed : (n.is "comment" || n.is "hash_bang_line") = true
      · rw [List.takeWhile_cons_of_pos (by rw [mayLead, passed, Bool.true_or]),
          List.takeWhile_cons_of_pos (by rw [isLeading, passed, Bool.true_or]),
          List.filter_cons_of_neg (by rw [isLiteral_of_passed passed]; exact Bool.false_ne_true),
          List.filter_cons_of_neg (by rw [isDirective_of_passed passed]; exact Bool.false_ne_true),
          ih]
      · by_cases directive : isDirective source n = true
        · have literal := isLiteral_of_directive directive
          rw [List.takeWhile_cons_of_pos (by rw [mayLead, literal, Bool.or_true]),
            List.takeWhile_cons_of_pos (by rw [isLeading, directive, Bool.or_true]),
            List.filter_cons_of_pos literal, List.filter_cons_of_pos directive,
            List.takeWhile_cons_of_pos directive, ih]
        · have stops : isLeading source n ≠ true := by
            rw [isLeading, ne_eq, Bool.or_eq_true]
            exact not_or.mpr ⟨passed, directive⟩
          rw [List.takeWhile_cons_of_neg stops]
          by_cases literal : isLiteral n = true
          · rw [List.takeWhile_cons_of_pos (by rw [mayLead, literal, Bool.or_true]),
              List.filter_cons_of_pos literal, List.takeWhile_cons_of_neg directive]
            rfl
          · rw [List.takeWhile_cons_of_neg (by
              rw [mayLead, Bool.or_eq_true]
              exact not_or.mpr ⟨passed, literal⟩)]
            rfl

theorem lastDirective?_eq (source : String) (tree : Node) :
    lastDirective? source tree = (directives source tree).getLast? := by
  rw [lastDirective?, directives_eq]

theorem tagFree_of_leading {source : String} {n : Node} (simple : Simple n)
    (h : isLeading source n = true) : TagFree n := by
  rw [isLeading, Bool.or_eq_true] at h
  rcases h with passed | directive
  · refine .mk ?_ fun c member => ?_
    · rcases Bool.or_eq_true _ _ ▸ passed with comment | line
      · exact isTag_of_is comment rfl
      · exact isTag_of_is line rfl
    · rw [simple.empty passed] at member
      cases member
  · have literal := isLiteral_of_directive directive
    rw [isLiteral, Bool.and_eq_true, Option.any_eq_true] at literal
    obtain ⟨statement, e, first, string⟩ := literal
    have child := (List.mem_filter.mp (List.mem_of_getElem? first)).1
    exact .mk (isTag_of_is statement rfl) (simple.literal statement ⟨e, child, string⟩)

def directivesStop (source : String) (tree : Node) : Nat :=
  ((directives source tree).getLast?.map (·.span.stop)).getD 0

theorem stop_le_getLast {ns : List Node} (apart : ns.Pairwise fun a b => a.span.stop ≤ b.span.start)
    (ordered : ∀ n ∈ ns, n.span.start ≤ n.span.stop) {last : Node} (h : ns.getLast? = some last) :
    ∀ n ∈ ns, n.span.stop ≤ last.span.stop := by
  obtain ⟨before, rfl⟩ := List.getLast?_eq_some_iff.mp h
  intro n member
  rcases List.mem_append.mp member with earlier | same
  · have := (List.pairwise_append.mp apart).2.2 n earlier last List.mem_cons_self
    have := ordered last (List.mem_append_right _ List.mem_cons_self)
    omega
  · rw [List.mem_singleton.mp same]

section

variable {source : String} {tree : Node}

theorem directives_sublist : (directives source tree).Sublist tree.children := by
  rw [directives_eq]
  exact List.filter_sublist.trans ((List.takeWhile_sublist _).trans List.filter_sublist)

theorem directiveEnd_le {place : Nat}
    (behind : ∀ d ∈ directives source tree, lineEnd source d.span.stop ≤ place) :
    (directiveEnd? source tree).getD 0 ≤ place := by
  rw [directiveEnd?_eq, lastDirective?_eq]
  cases h : (directives source tree).getLast? with
  | none => exact Nat.zero_le _
  | some d => exact behind d (List.mem_of_getLast? h)

variable (order : tree.InOrder (byteLength source.toList))

include order

theorem stop_le_directivesStop :
    ∀ d ∈ directives source tree, d.span.stop ≤ directivesStop source tree := by
  intro d member
  have sub : (directives source tree).Sublist tree.children := directives_sublist
  rw [directivesStop]
  cases h : (directives source tree).getLast? with
  | none =>
      rw [List.getLast?_eq_none_iff.mp h] at member
      cases member
  | some last =>
      exact stop_le_getLast (order.apart.sublist sub)
        (fun n there => order.ordered n (sub.subset there)) h d member

theorem directivesStop_le_directiveEnd :
    directivesStop source tree ≤ (directiveEnd? source tree).getD 0 := by
  rw [directiveEnd?_eq, lastDirective?_eq, directivesStop]
  cases h : (directives source tree).getLast? with
  | none => exact Nat.le_refl _
  | some d =>
      exact le_lineEnd (order.within d (directives_sublist.subset (List.mem_of_getLast? h)))

end

end Script

namespace Rewrite

variable {attr : String} {file : Path} {source : String} {tree : Node} {components : Collection}

/-- The ranges of elements lie behind all directives: what stands before the first statement that is
no directive holds no tag. -/
theorem directivesStop_le_span {d : Script.Dialect}
    (derived : tree.Derived (Script.grammar d) source.toList) {s : Span}
    (member : s ∈ (Markup.scan attr file source tree).flatMap Element.spans) :
    Script.directivesStop source tree ≤ s.start := by
  obtain ⟨c, child, tagged, within⟩ := Markup.scan_home derived member
  obtain ⟨named, simple⟩ := Script.top_of_derived derived
  rw [Script.directivesStop, Script.directives_eq, named]
  cases h : ((tree.children.takeWhile (Script.isLeading source)).filter
      (Script.isDirective source)).getLast? with
  | none => exact Nat.zero_le _
  | some last =>
      have leads := (List.mem_filter.mp (List.mem_of_getLast? h)).1
      have apart := derived.inOrder.1.apart
      rw [← List.takeWhile_append_dropWhile (p := Script.isLeading source) (l := tree.children)]
        at apart child
      rcases List.mem_append.mp child with earlier | later
      · have leading := List.mem_takeWhile_imp earlier
        have there := (List.takeWhile_prefix _).subset earlier
        exact absurd (Script.tagFree_of_leading (simple c there).here leading) tagged
      · exact Nat.le_trans ((List.pairwise_append.mp apart).2.2 last leads c later) within.1

theorem elementChanges_map_span (e : Element) (c : Styled) :
    (elementChanges e c).map (·.span) = e.spans := by
  rw [← elementEdits_map_change "" e c, List.map_map]
  exact elementEdits_map_span "" e c

namespace Account

variable {content : String} (a : Account attr file source tree components content)

def importChange : Change :=
  insertion a.before (importStatement ((components.forFile file).map (·.name))
    (importSpecifier a.first.companion) (Script.quoteStyle source tree)
    (Script.usesSemicolons source tree))

theorem span_mem {c : Change} (member : c ∈ a.earlier ++ a.later) :
    c.span ∈ (Markup.scan attr file source tree).flatMap Element.spans := by
  obtain ⟨p, bound, change⟩ := List.mem_flatMap.mp (a.complete.mem_iff.mp member)
  have scanned : p.1 ∈ Markup.scan attr file source tree := by
    rw [← a.scanned]
    exact List.mem_map_of_mem bound
  refine List.mem_flatMap.mpr ⟨p.1, scanned, ?_⟩
  rw [← elementChanges_map_span p.1 p.2]
  exact List.mem_map_of_mem change

/-- All changes of a source without faults, that for the import among them, begin behind its
directives. -/
theorem behind_directives {d : Script.Dialect}
    (derived : tree.Derived (Script.grammar d) source.toList) :
    ∀ c ∈ a.earlier ++ a.importChange :: a.later,
      Script.directivesStop source tree ≤ c.span.start := by
  intro c member
  rcases List.mem_append.mp member with earlier | rest
  · exact directivesStop_le_span derived (a.span_mem (List.mem_append_left _ earlier))
  · rcases List.mem_cons.mp rest with rfl | later
    · have behind := Script.directivesStop_le_directiveEnd derived.inOrder.1
      rw [← a.place] at behind
      exact behind
    · exact directivesStop_le_span derived (a.span_mem (List.mem_append_right _ later))

end Account

theorem exists_front {d : Script.Dialect}
    (derived : tree.Derived (Script.grammar d) source.toList) :
    ∃ front rest, source.toList = front ++ rest ∧
      byteLength front = Script.directivesStop source tree := by
  rw [Script.directivesStop]
  cases h : (Script.directives source tree).getLast? with
  | none => exact ⟨[], source.toList, rfl, rfl⟩
  | some last =>
      have child := Script.directives_sublist.subset (List.mem_of_getLast? h)
      exact Text.isBoundary_iff.mp (derived.inOrder.2 last child).here.stop

theorem text_of_front {content : String} {n : Node} (placed : n.Placed source.toList)
    {front rest new : List Char} (cut : source.toList = front ++ rest)
    (result : content.toList = front ++ new) (within : n.span.stop ≤ byteLength front) :
    n.text content = n.text source := by
  obtain ⟨before, behind, parts, start⟩ := Text.isBoundary_iff.mp placed.start
  obtain ⟨upto, after, parts', stop⟩ := Text.isBoundary_iff.mp placed.stop
  have ordered := placed.ordered
  obtain ⟨inside, rfl, -⟩ :=
    Text.eq_append_of_append_eq (parts.symm.trans parts') (by omega)
  obtain ⟨more, rfl, -⟩ := Text.eq_append_of_append_eq (parts'.symm.trans cut) (by omega)
  rw [Text.byteLength_append] at stop
  have same : ∀ text tail : List Char, text = before ++ inside ++ more ++ tail →
      Text.slice n.span text = inside := by
    intro text tail whole
    rw [List.append_assoc, List.append_assoc] at whole
    exact Text.slice_eq whole start.symm (by omega)
  unfold Node.text Span.text
  rw [same _ _ cut, same _ _ result]

/-- In a file without faults that is rewritten, the text up to the end of the directives stays, each
of these reads as before, and all changes are made behind them, the import among these. So if all
strings that the file begins with are directives, the import stands behind them all; without a
directive it stands at the very front. The first string that is no directive, and each one after it,
stands behind the import, unless it begins on the line of a directive. -/
theorem import_behind_directives {l : Language} {r : Rewritten}
    (owns : components.forFile file ≠ []) (ok : run attr file source l components = .ok r)
    (faultless : (l.parse source).hasFault = false) :
    ∃ (a : Account attr file source (l.parse source) components r.content)
      (front rest new : List Char),
      source.toList = front ++ rest ∧ r.content.toList = front ++ new ∧
      Spliced (byteLength front) (a.earlier ++ a.importChange :: a.later) rest new ∧
      byteLength front ≤ byteLength a.before ∧
      (∀ d ∈ Script.directives source (l.parse source),
        d.span.stop ≤ byteLength front ∧ d.text r.content = d.text source) ∧
      ((∀ s ∈ Script.prologue (l.parse source), Script.isDirective source s = true) →
        ∀ s ∈ Script.prologue (l.parse source), s.span.stop ≤ byteLength a.before) ∧
      (Script.directives source (l.parse source) = [] → a.before = []) ∧
      ∀ s ∈ (Script.prologue (l.parse source)).dropWhile (Script.isDirective source),
        (∀ d ∈ Script.directives source (l.parse source),
          Script.lineEnd source d.span.stop ≤ s.span.start) →
        byteLength a.before ≤ s.span.start := by
  obtain ⟨markup, -⟩ := (run_eq_ok_iff owns).mp ok
  obtain ⟨a, -, -, -⟩ := run_account owns ok
  obtain ⟨_, derived⟩ := Language.parse_derived markup faultless
  obtain ⟨order, placed⟩ := derived.inOrder
  obtain ⟨front, rest, cut, ends⟩ := exists_front derived
  have spliced := a.spliced
  rw [cut] at spliced
  have behind := a.behind_directives derived
  rw [← ends] at behind
  obtain ⟨new, result, later⟩ := spliced.keeps fun c member => by
    rw [Nat.zero_add]
    exact behind c member
  rw [Nat.zero_add] at later
  have ahead : byteLength front ≤ byteLength a.before :=
    behind a.importChange (List.mem_append_right _ List.mem_cons_self)
  have each : ∀ d ∈ Script.directives source (l.parse source), d.span.stop ≤ byteLength front := by
    rw [ends]
    exact Script.stop_le_directivesStop order
  refine ⟨a, front, rest, new, cut, result, later, ahead, fun d member => ⟨each d member, ?_⟩,
    fun all s member => ?_, fun none => ?_, fun s _ behind => ?_⟩
  · have child := Script.directives_sublist.subset member
    exact text_of_front (placed d child).here cut result (each d member)
  · have directive : s ∈ Script.directives source (l.parse source) := by
      rw [Script.directives, List.takeWhile_eq_self_iff.mpr all]
      exact member
    exact Nat.le_trans (each s directive) ahead
  · have start : byteLength a.before ≤ 0 := by
      rw [a.place]
      refine Script.directiveEnd_le fun d member => ?_
      rw [none] at member
      cases member
    exact Text.byteLength_eq_zero.mp (Nat.le_zero.mp start)
  · rw [a.place]
    exact Script.directiveEnd_le behind

/-- A string that is no directive between two that are. -/
def mixedSource : String :=
  "'use strict'\n'use memo'\n'use client'\nx = <a className=\"p\" />\n"

def mixedImport : Edit :=
  ⟨⟨13, 13⟩, "import \x7b AStyle \x7d from './a.style'\n", "import components", -1⟩

def mixedEdits : List Edit :=
  [⟨⟨42, 43⟩, "AStyle", "open a -> AStyle", 0⟩, ⟨⟨43, 57⟩, "", "drop className", 0⟩]

def mixedSet : EditSet := ⟨mixedImport :: mixedEdits⟩

theorem mixed_stages :
    Staged "className" ⟨"a.jsx"⟩ mixedSource .jsx sharedLineComponents mixedEdits mixedImport
      mixedSet ∧
    (Language.jsx.parse mixedSource).hasFault = false ∧
    Script.lineEnd mixedSource 12 = 13 ∧
    ((Script.prologue (Language.jsx.parse mixedSource)).map fun s =>
      (s.span, Script.isDirective mixedSource s)) =
        [(⟨0, 12⟩, true), (⟨13, 23⟩, false), (⟨24, 36⟩, true)] := by
  decide +kernel

theorem run_mixed : ∃ r,
    run "className" ⟨"a.jsx"⟩ mixedSource .jsx sharedLineComponents = .ok r :=
  ⟨_, run_of_staged mixed_stages.1⟩

theorem mixed_strings : ∃ a b c, Script.prologue (Language.jsx.parse mixedSource) = [a, b, c] ∧
    (a.span = ⟨0, 12⟩ ∧ Script.isDirective mixedSource a = true) ∧
    (b.span = ⟨13, 23⟩ ∧ Script.isDirective mixedSource b = false) ∧
    (c.span = ⟨24, 36⟩ ∧ Script.isDirective mixedSource c = true) := by
  obtain ⟨-, -, -, strings⟩ := mixed_stages
  simp only [List.map_eq_cons_iff, List.map_eq_nil_iff, Prod.mk.injEq] at strings
  obtain ⟨a, _, all, of_a, b, _, rfl, of_b, c, _, rfl, of_c, rfl⟩ := strings
  exact ⟨a, b, c, all, of_a, of_b, of_c⟩

theorem import_behind_directives_mixed :
    sharedLineComponents.forFile ⟨"a.jsx"⟩ ≠ [] ∧
    (Language.jsx.parse mixedSource).hasFault = false ∧
    ∃ r, run "className" ⟨"a.jsx"⟩ mixedSource .jsx sharedLineComponents = .ok r ∧
      ∃ a : Account "className" ⟨"a.jsx"⟩ mixedSource (Language.jsx.parse mixedSource)
        sharedLineComponents r.content, 12 ≤ byteLength a.before ∧ byteLength a.before ≤ 13 := by
  obtain ⟨staged, faultless, line, -⟩ := mixed_stages
  obtain ⟨r, ok⟩ := run_mixed
  obtain ⟨a, front, rest, new, -, -, -, ahead, kept, -, -, behind⟩ :=
    import_behind_directives staged.owns ok faultless
  obtain ⟨s, t, u, strings, ⟨place, directive⟩, ⟨place', other⟩, -⟩ := mixed_strings
  have first : Script.directives mixedSource (Language.jsx.parse mixedSource) = [s] := by
    rw [Script.directives, strings, List.takeWhile_cons_of_pos directive,
      List.takeWhile_cons_of_neg (by rw [other]; exact Bool.false_ne_true)]
  rw [first] at kept behind
  rw [strings, List.dropWhile_cons_of_pos directive,
    List.dropWhile_cons_of_neg (by rw [other]; exact Bool.false_ne_true)] at behind
  refine ⟨staged.owns, faultless, r, ok, a, ?_, ?_⟩
  · have stop := (kept s List.mem_cons_self).1
    rw [place] at stop
    exact Nat.le_trans stop ahead
  · have before := behind t List.mem_cons_self fun d member => by
      rw [List.mem_singleton.mp member, place, place', line]
    rwa [place'] at before

/-- It is not so that the import stands behind all strings that a file begins with, and that every
directive among these is still one of the strings that the result begins with. -/
theorem import_before_directive : ¬ ∀ (attr : String) (file : Path) (source : String)
    (l : Language) (components : Collection) (r : Rewritten), components.forFile file ≠ [] →
    run attr file source l components = .ok r → (l.parse source).hasFault = false →
    (∃ d ∈ Script.prologue (l.parse source), Script.isDirective source d = true) →
    (∀ s ∈ Script.prologue (l.parse source),
      s.span.stop ≤ (importEdit source (l.parse source) (components.forFile file)).span.start) ∧
    ∀ d ∈ Script.prologue (l.parse source), Script.isDirective source d = true →
      ∃ k ∈ Script.prologue (l.parse r.content), k.text r.content = d.text source := by
  intro always
  obtain ⟨staged, faultless, -⟩ := mixed_stages
  obtain ⟨r, ok⟩ := run_mixed
  obtain ⟨s, t, u, strings, -, -, ⟨place, directive⟩⟩ := mixed_strings
  have member : u ∈ Script.prologue (Language.jsx.parse mixedSource) := by
    rw [strings]
    exact List.mem_cons_of_mem _ (List.mem_cons_of_mem _ List.mem_cons_self)
  obtain ⟨behind, -⟩ := always _ _ _ _ _ r staged.owns ok faultless ⟨u, member, directive⟩
  have late := behind u member
  rw [staged.imports, place] at late
  exact absurd late (by decide)

end Rewrite

end Restyle
