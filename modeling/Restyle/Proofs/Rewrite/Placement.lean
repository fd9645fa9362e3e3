import Restyle.Proofs.Rewrite.Outcome
import Restyle.Proofs.Syntax.Order
/-!
Where the import lands among the statements and comments of a file. It stands behind the line of the
last leading directive, so it lands inside a statement or a comment exactly where one that begins
on that line, behind the directive, goes on on the next line.
-/

namespace Restyle

open Component (Collection Styled)
open Syntax (Node)
open Text (byteLength)

namespace Script

/-- Whether a node may stand before the first statement that is no directive. -/
def isLeading (source : String) (n : Node) : Bool :=
  n.is "comment" || n.is "hash_bang_line" || isDirective source n

/-- The last of the directives before all other statements. -/
def lastDirective? (source : String) (tree : Node) : Option Node :=
  ((tree.namedChildren.takeWhile (isLeading source)).filter (isDirective source)).getLast?

theorem not_statement_of_passed {n : Node} (h : (n.is "comment" || n.is "hash_bang_line") = true) :
    n.is "expression_statement" = false := by
  rw [Bool.or_eq_true] at h
  unfold Node.is at h ⊢
  rcases h with comment | line
  · rw [eq_of_beq comment]; rfl
  · rw [eq_of_beq line]; rfl

theorem isDirective_of_passed {source : String} {n : Node}
    (h : (n.is "comment" || n.is "hash_bang_line") = true) : isDirective source n = false := by
  rw [isDirective, not_statement_of_passed h, Bool.false_and]

theorem directiveEndFrom_eq (source : String) (found : Option Node) (ns : List Node) :
    directiveEndFrom source (found.map fun d => lineEnd source d.span.stop) ns =
      (((ns.takeWhile (isLeading source)).filter (isDirective source)).getLast?.or found).map
        fun d => lineEnd source d.span.stop := by
  induction ns generalizing found with
  | nil => rfl
  | cons n ns ih =>
      unfold directiveEndFrom
      by_cases passed : (n.is "comment" || n.is "hash_bang_line") = true
      · have leads : isLeading source n = true := by rw [isLeading, passed, Bool.true_or]
        rw [if_pos passed, ih, List.takeWhile_cons_of_pos leads,
          List.filter_cons_of_neg (by rw [isDirective_of_passed passed]; exact Bool.false_ne_true)]
      · rw [if_neg passed]
        by_cases directive : isDirective source n = true
        · have leads : isLeading source n = true := by rw [isLeading, directive, Bool.or_true]
          have last := ih (some n)
          rw [Option.map_some] at last
          rw [if_pos directive, last, List.takeWhile_cons_of_pos leads,
            List.filter_cons_of_pos directive, List.getLast?_cons]
          cases ((ns.takeWhile (isLeading source)).filter (isDirective source)).getLast? <;> rfl
        · have stops : isLeading source n ≠ true := by
            rw [isLeading, ne_eq, Bool.or_eq_true]
            exact not_or.mpr ⟨passed, directive⟩
          rw [if_neg directive, List.takeWhile_cons_of_neg stops]
          rfl

theorem directiveEnd?_eq (source : String) (tree : Node) :
    directiveEnd? source tree =
      (lastDirective? source tree).map fun d => lineEnd source d.span.stop := by
  have all := directiveEndFrom_eq source none tree.namedChildren
  rw [Option.or_none] at all
  exact all

theorem lastDirective?_mem {source : String} {tree d : Node}
    (h : lastDirective? source tree = some d) : d ∈ tree.children := by
  have led := (List.mem_filter.mp (List.mem_of_getLast? h)).1
  exact (List.mem_filter.mp ((List.takeWhile_prefix _).subset led)).1

theorem le_lineEnd {source : String} {offset : Nat} (within : offset ≤ byteLength source.toList) :
    offset ≤ lineEnd source offset := by
  unfold lineEnd
  dsimp only
  split
  · split
    · omega
    · exact within
  · exact within

end Script

namespace Language

theorem parse_inOrder {l : Language} {source : String}
    (faultless : (l.parse source).hasFault = false) :
    (l.parse source).InOrder (byteLength source.toList) := by
  cases l with
  | javaScript => exact Syntax.parse_inOrder faultless
  | jsx => exact Syntax.parse_inOrder faultless
  | typeScript => exact Syntax.parse_inOrder faultless
  | tsx => exact Syntax.parse_inOrder faultless
  | css => exact Syntax.parse_inOrder faultless

end Language

namespace Rewrite

/-- Whether an offset lies inside a node, at neither of its ends. -/
def Inside (offset : Nat) (n : Node) : Prop := n.span.start < offset ∧ offset < n.span.stop

theorem inside_iff_of_inOrder {total : Nat} {tree d n : Node} {offset : Nat}
    (order : tree.InOrder total) (there : d ∈ tree.children) (child : n ∈ tree.children)
    (behind : d.span.stop ≤ offset) :
    Inside offset n ↔ d.span.stop ≤ n.span.start ∧ Inside offset n := by
  refine ⟨fun inside => ⟨?_, inside⟩, fun h => h.2⟩
  obtain ⟨begins, ends⟩ := inside
  obtain ⟨before, after, parts⟩ := List.append_of_mem there
  have apart := order.apart
  rw [parts, List.pairwise_append] at apart
  rw [parts] at child
  rcases List.mem_append.mp child with earlier | later
  · have := apart.2.2 n earlier d List.mem_cons_self
    have := order.ordered d there
    omega
  · rcases List.mem_cons.mp later with rfl | later
    · omega
    · exact (List.pairwise_cons.mp apart.2.1).1 n later

/-- In a file without faults that is rewritten, the import lands inside a statement or comment of the
file exactly if this one begins on the line of the last directive, behind the directive, and goes on
behind the end of that line. -/
theorem import_inside_iff {attr : String} {file : Path} {source : String} {l : Language}
    {components : Collection} {r : Rewritten} (owns : components.forFile file ≠ [])
    (ok : run attr file source l components = .ok r)
    (faultless : (l.parse source).hasFault = false) :
    ∃ before after, source.toList = before ++ after ∧
      (importEdit source (l.parse source) (components.forFile file)).span =
        ⟨byteLength before, byteLength before⟩ ∧
      ∀ n ∈ (l.parse source).children, Inside (byteLength before) n ↔
        ∃ d, Script.lastDirective? source (l.parse source) = some d ∧
          d.span.stop ≤ n.span.start ∧ Inside (Script.lineEnd source d.span.stop) n := by
  obtain ⟨-, edits, set, -, accepted, -⟩ := (run_eq_ok_iff owns).mp ok
  -- The import is among the accepted edits, so it stands at whole characters.
  have fits := (EditSet.ofList_eq_ok_iff.mp accepted).2.1 _
    ((EditSet.ofList_perm accepted).mem_iff.mpr (List.mem_append_right _ List.mem_cons_self))
  obtain ⟨before, after, cut, place⟩ := Text.isBoundary_iff.mp fits.start
  have order := Language.parse_inOrder faultless
  refine ⟨before, after, cut, by rw [place]; rfl, ?_⟩
  rw [place]
  change ∀ n ∈ (l.parse source).children,
    Inside ((Script.directiveEnd? source (l.parse source)).getD 0) n ↔ _
  rw [Script.directiveEnd?_eq]
  cases last : Script.lastDirective? source (l.parse source) with
  | none =>
      intro n _
      refine ⟨fun inside => absurd inside.1 (Nat.not_lt_zero _), ?_⟩
      rintro ⟨d, h, -⟩
      cases h
  | some d =>
      intro n child
      have there := Script.lastDirective?_mem last
      rw [Option.map_some, Option.getD_some, inside_iff_of_inOrder order there child
        (Script.le_lineEnd (order.within d there))]
      constructor
      · intro inside
        exact ⟨d, rfl, inside⟩
      · rintro ⟨d', ⟨⟩, inside⟩
        exact inside

/-- A comment that begins on the line of the directive and ends on the next one. -/
def sharedLineSource : String :=
  "'use client'; /* note\n */\nx = <a className=\"p\" />\n"

def sharedLineComponents : Collection :=
  [⟨"AStyle", ⟨"a.jsx"⟩, ⟨"a.style.jsx"⟩, "p", "a", "styled.a", ""⟩]

def sharedLineImport : Edit :=
  ⟨⟨22, 22⟩, "import \x7b AStyle \x7d from './a.style'\n", "import components", -1⟩

def sharedLineEdits : List Edit :=
  [⟨⟨31, 32⟩, "AStyle", "open a -> AStyle", 0⟩, ⟨⟨32, 46⟩, "", "drop className", 0⟩]

def sharedLineSet : EditSet := ⟨sharedLineImport :: sharedLineEdits⟩

theorem sharedLine_stages :
    Staged "className" ⟨"a.jsx"⟩ sharedLineSource .jsx sharedLineComponents sharedLineEdits
      sharedLineImport sharedLineSet ∧
    (Language.jsx.parse sharedLineSource).hasFault = false ∧
    (Language.jsx.parse sharedLineSource).children.any (fun n =>
      n.is "comment" && n.span.start < 22 && 22 < n.span.stop) = true := by
  decide +kernel

theorem run_sharedLine : ∃ r,
    run "className" ⟨"a.jsx"⟩ sharedLineSource .jsx sharedLineComponents = .ok r :=
  ⟨_, run_of_staged sharedLine_stages.1⟩

theorem import_inside_iff_sharedLine :
    sharedLineComponents.forFile ⟨"a.jsx"⟩ ≠ [] ∧
    (Language.jsx.parse sharedLineSource).hasFault = false ∧
    ∀ n ∈ (Language.jsx.parse sharedLineSource).children, Inside 22 n →
      ∃ d, Script.lastDirective? sharedLineSource (Language.jsx.parse sharedLineSource) = some d ∧
        d.span.stop ≤ n.span.start := by
  obtain ⟨staged, faultless, -⟩ := sharedLine_stages
  obtain ⟨r, ok⟩ := run_sharedLine
  obtain ⟨before, -, -, place, exactly⟩ := import_inside_iff staged.owns ok faultless
  rw [staged.imports] at place
  have at_ : Text.byteLength before = 22 := (congrArg Span.start place).symm
  rw [at_] at exactly
  refine ⟨staged.owns, faultless, ?_⟩
  intro n child inside
  obtain ⟨d, last, behind, -⟩ := (exactly n child).mp inside
  exact ⟨d, last, behind⟩

/-- The import of a rewritten file may land inside a comment. -/
theorem import_not_between_nodes : ¬ ∀ (attr : String) (file : Path) (source : String)
    (l : Language) (components : Collection) (r : Rewritten), components.forFile file ≠ [] →
    run attr file source l components = .ok r → (l.parse source).hasFault = false →
    ∀ n ∈ (l.parse source).children,
      ¬ Inside (importEdit source (l.parse source) (components.forFile file)).span.start n := by
  intro never
  obtain ⟨staged, faultless, swallowed⟩ := sharedLine_stages
  obtain ⟨r, ok⟩ := run_sharedLine
  obtain ⟨n, child, comment⟩ := List.any_eq_true.mp swallowed
  simp only [Bool.and_eq_true, decide_eq_true_eq] at comment
  refine never _ _ _ _ _ r staged.owns ok faultless n child ?_
  rw [staged.imports]
  exact ⟨comment.1.2, comment.2⟩

end Rewrite

end Restyle
