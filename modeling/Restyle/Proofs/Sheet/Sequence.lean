import Restyle.Proofs.Sheet.Masked
import Restyle.Proofs.Syntax.Trivia
/-!
Sheets as sequences of rule sets. A rule set that the grammar takes for one whatever follows it is
taken for the same rule set behind others, with blanks and comments before it. So the table of a
sheet is that of its rule sets, one after another, each recorded as if it stood alone.
-/

namespace Restyle.Sheet

open Syntax
open Text (byteLength byteLength_append)

/-- A text that the grammar takes for one rule set without a fault, whatever follows it. It ends in
a brace that is not escaped. -/
structure IsRuleSet (text : List Char) (n : Node) : Prop where
  is : n.is "rule_set" = true
  faultless : n.hasFault = false
  closed : ∃ inside, text = inside ++ ['\x7d'] ∧ settled inside = true
  taken : ∀ rest size, (mask text ++ rest).length < size →
    Answers grammar size (100 * text.length + 1000) (.rule .item) (.plain (mask text ++ rest) 0 [])
      (some (.plain rest (byteLength text) [n]))

/-- A segment of a sheet: blanks, a comment that leaves no backslash to escape its end, or a rule
set with its node. -/
inductive Segment where
  | blanks (text : List Char) (blank : ∀ b ∈ text, isBlank b = true)
  | comment (inside : List Char) (no_end : ¬ ['*', '/'] <:+: inside)
      (ends : settled inside = true)
  | ruleSet (text : List Char) (n : Node) (own : IsRuleSet text n)

def commentOf (inside : List Char) : List Char := '/' :: '*' :: (inside ++ ['*', '/'])

namespace Segment

def text : Segment → List Char
  | blanks cs _ => cs
  | comment inside _ _ => commentOf inside
  | ruleSet cs _ _ => cs

def nodes (o : Nat) : Segment → List Node
  | blanks _ _ => []
  | comment inside _ _ => [commentAt "comment" ⟨o, o + byteLength (commentOf inside)⟩]
  | ruleSet _ n _ => [n.moved o]

/-- What a segment adds to a table where it stands alone. -/
def record (t : StyleTable) : Segment → StyleTable
  | blanks _ _ | comment _ _ _ => t
  | ruleSet cs n _ => recordItem cs [] t n

end Segment

def textOf (ps : List Segment) : List Char := ps.flatMap Segment.text

/-- The nodes that segments leave one after another, the first at an offset. -/
def nodesAt : Nat → List Segment → List Node
  | _, [] => []
  | o, p :: ps => p.nodes o ++ nodesAt (o + byteLength p.text) ps

/-- A text of rule sets with blanks and comments between them. -/
def IsSequence (text : List Char) : Prop := ∃ ps, text = textOf ps

theorem mask_blanks {cs : List Char} (blank : ∀ b ∈ cs, isBlank b = true) (rest : List Char) :
    mask (cs ++ rest) = cs ++ mask rest := by
  induction cs with
  | nil => rfl
  | cons c cs ih =>
      obtain ⟨first, others⟩ := List.forall_mem_cons.mp blank
      have no_escape : c ≠ '\\' := by
        rintro rfl
        cases first
      have no_colon : c ≠ ':' := by
        rintro rfl
        cases first
      rw [List.cons_append, mask.eq_5 c _ (fun same _ => no_escape same)
        (fun _ _ same => absurd same no_escape) (fun _ _ same => absurd same no_colon), ih others]
      rfl

theorem mask_comment {inside : List Char} (ends : settled inside = true) (rest : List Char) :
    mask (commentOf inside ++ rest) = commentOf (mask inside) ++ mask rest := by
  have parts : commentOf inside ++ rest = ('/' :: '*' :: inside) ++ '*' :: '/' :: rest := by
    simp [commentOf]
  have ends' : settled ('/' :: '*' :: inside) = true := by
    rw [settled_cons (by decide), settled_cons (by decide), ends]
  have front : mask ('/' :: '*' :: inside) = '/' :: '*' :: mask inside := rfl
  have back : mask ('*' :: '/' :: rest) = '*' :: '/' :: mask rest := rfl
  rw [parts, mask_append ends' (by decide) (by decide), front, back]
  simp [commentOf]

theorem byteLength_commentOf_mask (inside : List Char) :
    byteLength (commentOf (mask inside)) = byteLength (commentOf inside) := by
  simp [commentOf, byteLength_mask]

theorem comment_commentOf_mask {inside : List Char} (no_end : ¬ ['*', '/'] <:+: inside)
    (rest : List Char) :
    comment (commentOf (mask inside) ++ rest) = (commentOf (mask inside)).length := by
  have parts : commentOf (mask inside) ++ rest =
      '/' :: '*' :: (mask inside ++ '*' :: '/' :: rest) := by
    simp [commentOf]
  rw [parts, comment, commentTail_append (no_end_mask no_end)]
  simp [commentOf]

namespace IsRuleSet

variable {text : List Char} {n : Node}

theorem mask_append (h : IsRuleSet text n) (rest : List Char) :
    mask (text ++ rest) = mask text ++ mask rest := by
  obtain ⟨inside, rfl, ends⟩ := h.closed
  have brace : ∀ cs, mask ('\x7d' :: cs) = '\x7d' :: mask cs := fun _ => rfl
  have here := Sheet.mask_append (x := '\x7d') ends (by decide) (by decide)
  rw [List.append_assoc, List.singleton_append, here, here, brace, brace, List.append_assoc]
  rfl

theorem length_pos (h : IsRuleSet text n) : 0 < text.length := by
  obtain ⟨inside, rfl, -⟩ := h.closed
  simp

theorem mask_ne_mark (h : IsRuleSet text n) (rest : List Char) :
    mask text ≠ '\uFEFF' :: rest := by
  intro same
  have taken := h.taken [] _ (Nat.lt_succ_self _)
  rw [same, List.append_nil] at taken
  have refused : Answers grammar _ 30 (.rule .item) (.plain ('\uFEFF' :: rest) 0 []) none :=
    answers_refused rfl (Nat.lt_succ_self _) rfl
  have both := (taken (100 * text.length + 1000) [] .none (Nat.le_refl _)).symm.trans
    (refused (100 * text.length + 1000) [] .none (by omega))
  cases both

/-- All nodes of a rule set stand between characters of it. -/
theorem placed (h : IsRuleSet text n) : n.Everywhere (Node.Placed (mask text)) := by
  have taken := h.taken [] _ (Nat.lt_succ_self _)
  rw [List.append_nil] at taken
  have clean : Cursor.Clean (.plain [] (byteLength text) [n]) := by
    simp [Cursor.Clean, Cursor.amid, Node.anyFault, h.faultless]
  have begins : (Cursor.plain (mask text) 0 []).Sited (mask text) :=
    ⟨⟨[], rfl, rfl⟩, .nil, fun _ none => absurd none List.not_mem_nil⟩
  exact (taken.sited clean begins).placed n List.mem_cons_self

end IsRuleSet

theorem Segment.mask_append_ne_mark (p : Segment) {ahead : List Char}
    (behind : ∀ rest, mask ahead ≠ '\uFEFF' :: rest) (rest : List Char) :
    mask (p.text ++ ahead) ≠ '\uFEFF' :: rest := by
  cases p with
  | blanks cs blank =>
      rw [text, mask_blanks blank]
      cases cs with
      | nil => exact behind rest
      | cons b cs =>
          intro same
          obtain ⟨rfl, -⟩ := List.cons.inj same
          exact absurd (blank _ List.mem_cons_self) (by decide)
  | comment inside no_end ends =>
      rw [text, mask_comment ends]
      exact fun same => absurd (List.cons.inj same).1 (by decide)
  | ruleSet cs n own =>
      rw [text, own.mask_append]
      cases masked : mask cs with
      | nil => exact behind rest
      | cons m ms =>
          intro same
          obtain ⟨rfl, -⟩ := List.cons.inj same
          exact own.mask_ne_mark ms masked

theorem steady_rules (r : Rule) : (grammar.rules r).steady = true := by
  cases r <;> rfl

section

variable {size : Nat} {c : Cursor} {st xs : List Node} {o : Nat} {rest : List Char}

/-- A place behind nodes, from which the reader gets to another by passing blanks and comments. -/
structure Before (size : Nat) (c : Cursor) (rest : List Char) (o : Nat) (xs st : List Node) :
    Prop where
  plain : ∃ ahead start, c = .plain ahead start st
  extras : ∀ x ∈ xs, Cursor.isExtra x = true
  passed : passTrivia grammar [] size c = passTrivia grammar [] size (.plain rest o (xs ++ st))

namespace Before

theorem refl (rest : List Char) (o : Nat) (st : List Node) :
    Before size (.plain rest o st) rest o [] st :=
  ⟨⟨rest, o, rfl⟩, fun _ none => absurd none List.not_mem_nil, rfl⟩

theorem blanks {cs : List Char} (h : Before size c (cs ++ rest) o xs st)
    (blank : ∀ b ∈ cs, isBlank b = true) (long : (cs ++ rest).length < size) :
    Before size c rest (o + byteLength cs) xs st :=
  ⟨h.plain, h.extras, h.passed.trans (passTrivia_blanks blank long)⟩

theorem comment {inside : List Char} (h : Before size c (commentOf (mask inside) ++ rest) o xs st)
    (no_end : ¬ ['*', '/'] <:+: inside) (long : (commentOf (mask inside) ++ rest).length < size) :
    Before size c rest (o + byteLength (commentOf inside))
      (commentAt "comment" ⟨o, o + byteLength (commentOf inside)⟩ :: xs) st := by
  rw [← byteLength_commentOf_mask]
  exact ⟨h.plain, List.forall_mem_cons.mpr ⟨rfl, h.extras⟩,
    h.passed.trans (passTrivia_comment (List.cons_ne_nil _ _) rfl
      (comment_commentOf_mask no_end rest) long)⟩

theorem preceded (h : Before size c rest o xs st) :
    Preceded grammar size o xs st (.plain rest 0 []) c := by
  obtain ⟨⟨ahead, start, rfl⟩, extras, passed⟩ := h
  refine ⟨rfl, rfl, rfl, rfl, extras, ?_⟩
  rw [passed, ← passTrivia_moved, Cursor.plain_moved, Nat.zero_add]
  rfl

/-- An item is read there as it is at the beginning of a sheet. -/
theorem answers {n : Nat} {r : Option Cursor} (h : Before size c rest o xs st)
    (here : Answers grammar size n (.rule .item) (.plain rest 0 []) r) :
    Answers grammar size n (.rule .item) c (r.map (Cursor.moved o (xs ++ st))) :=
  here.preceded (j := 40) steady_rules rfl rfl h.preceded

end Before

/-- The items of a sequence are its rule sets, read one after another. The induction is on the
segments; blanks and comments wait before the place of the reader until a rule set follows. -/
theorem answers_segments {ps : List Segment} {bound : Nat} (bounded : (textOf ps).length ≤ bound)
    (long : (mask (textOf ps)).length < size) (h : Before size c (mask (textOf ps)) o xs st) :
    ∃ rest o' st', Answers grammar size (100 * bound + 1001 + (textOf ps).length)
        (.many (.rule .item)) c (some (.plain rest o' st')) ∧
      passTrivia grammar [] size (.plain rest o' st') =
        .plain [] (o + byteLength (textOf ps)) ((nodesAt o ps).reverse ++ (xs ++ st)) := by
  induction ps generalizing c o xs st with
  | nil =>
      have some_ : 0 < size := Nat.zero_lt_of_lt long
      obtain ⟨n, rfl⟩ := Nat.exists_eq_succ_of_ne_zero (Nat.ne_zero_of_lt some_)
      have none_ := h.answers (answers_refused rfl some_ (j := 30) rfl)
      have passed := h.passed
      obtain ⟨ahead, start, rfl⟩ := h.plain
      exact ⟨ahead, start, st, Answers.done (none_.mono (by omega)), passed⟩
  | cons p ps ih =>
      have text : textOf (p :: ps) = p.text ++ textOf ps := rfl
      have nodes : nodesAt o (p :: ps) = p.nodes o ++ nodesAt (o + byteLength p.text) ps := rfl
      rw [text, List.length_append] at bounded
      rw [text, List.length_append, ← Nat.add_assoc, Nat.add_right_comm, nodes, byteLength_append,
        ← Nat.add_assoc o]
      rw [text] at long h
      have shorter : (textOf ps).length ≤ bound := by omega
      cases p with
      | blanks cs blank =>
          have masked : mask (cs ++ textOf ps) = cs ++ mask (textOf ps) := mask_blanks blank _
          rw [Segment.text, masked] at long h
          have place := h.blanks blank long
          rw [List.length_append] at long
          obtain ⟨rest, o', st', answers, passed⟩ := ih shorter (by omega) place
          exact ⟨rest, o', st', answers.mono (Nat.le_add_right _ _), passed⟩
      | comment inside no_end ends =>
          rw [Segment.text, mask_comment ends] at long h
          have place := h.comment no_end long
          rw [List.length_append] at long
          obtain ⟨rest, o', st', answers, passed⟩ := ih shorter (by omega) place
          refine ⟨rest, o', st', answers.mono (Nat.le_add_right _ _), passed.trans ?_⟩
          simp [Segment.nodes, Segment.text]
      | ruleSet cs n own =>
          rw [Segment.text, own.mask_append] at long h
          have here := h.answers (own.taken (mask (textOf ps)) size long)
          rw [Option.map_some, Cursor.plain_moved] at here
          have place : Before size
              (.plain (mask (textOf ps)) (byteLength cs + o) ([n.moved o] ++ (xs ++ st)))
              (mask (textOf ps)) (byteLength cs + o) [] ([n.moved o] ++ (xs ++ st)) := .refl _ _ _
          have longer : (Cursor.plain (mask (textOf ps)) (byteLength cs + o)
              ([n.moved o] ++ (xs ++ st))).height ≠ c.height := by
            rw [h.preceded.height]
            simp only [Cursor.amid, List.length_append, List.length_singleton]
            omega
          rw [List.length_append] at long
          obtain ⟨rest, o', st', answers, passed⟩ := ih shorter (by omega) place
          have some_ := own.length_pos
          rw [Segment.text] at bounded ⊢
          have more := Answers.more (k := 100 * bound + 1001 + (textOf ps).length)
            (here.mono (by omega)) longer answers
          refine ⟨rest, o', st', more.mono (by omega), passed.trans ?_⟩
          simp [Segment.nodes, Nat.add_comm]

end

theorem mask_textOf_ne_mark (ps : List Segment) (rest : List Char) :
    mask (textOf ps) ≠ '\uFEFF' :: rest := by
  induction ps generalizing rest with
  | nil => exact (List.cons_ne_nil _ _).symm
  | cons p ps ih => exact p.mask_append_ne_mark ih rest

/-- The tree of a sequence has the nodes of its segments, each moved to its place. -/
theorem parse_textOf (ps : List Segment) : (parse (mask (textOf ps))).children = nodesAt 0 ps := by
  have begins : Cursor.start (mask (textOf ps)) = .plain (mask (textOf ps)) 0 [] := by
    unfold Cursor.start
    split
    · rename_i rest text
      exact absurd text (mask_textOf_ne_mark ps rest)
    · rfl
  obtain ⟨rest, o, st, answers, passed⟩ :=
    answers_segments (Nat.le_refl _) (Nat.lt_succ_self _) (.refl (mask (textOf ps)) 0 [])
  have root := Answers.plain_rule (x := Rule.sheet) rfl answers
  rw [← begins] at root
  have tree := parse_of_passed (by rw [length_mask]; omega) root passed
  rw [parse, tree]
  simp [Node.children]

section

variable {source : List Char} {n : Node}

theorem stands_of_placed (h : n.Placed (mask source)) : n.span.Stands source :=
  stands_of_mask ⟨h.ordered, h.start, h.stop⟩

variable (before after : List Char)

theorem declarationOf?_moved (h : n.Everywhere (Node.Placed (mask source))) :
    declarationOf? (before ++ (source ++ after)) (n.moved (byteLength before)) =
      declarationOf? source n := by
  have colons : (fun c : Node => c.kind == .token ":") ∘ Node.moved (byteLength before) =
      fun c => c.kind == .token ":" := by
    funext c
    rw [Function.comp_apply, Node.kind_moved]
  unfold declarationOf?
  rw [Node.is_moved, Node.childOf?_moved, Node.children_moved, List.find?_map, colons]
  cases found : n.childOf? "property_name" with
  | none => rfl
  | some property =>
      cases found' : n.children.find? fun c => c.kind == .token ":" with
      | none => rfl
      | some colon =>
          have inside := (h.inside property (List.mem_of_find?_eq_some found)).here
          have inside' := (h.inside colon (List.mem_of_find?_eq_some found')).here
          have ends := h.here.within colon (List.mem_of_find?_eq_some found')
          have value : Span.Stands source ⟨colon.span.stop, n.span.stop⟩ :=
            stands_of_mask ⟨ends.2, inside'.stop, h.here.stop⟩
          have name := (stands_of_placed inside).slice_append before after
          have text := value.slice_append before after
          dsimp only [Option.map_some, Option.bind_eq_bind, Option.bind_some]
          rw [Node.span_moved, Node.span_moved, Node.span_moved, name, text]

theorem declarationsOf_moved (h : n.Everywhere (Node.Placed (mask source))) :
    declarationsOf (before ++ (source ++ after)) (n.moved (byteLength before)) =
      declarationsOf source n := by
  rw [declarationsOf, Node.namedChildren_moved, List.filterMap_map, declarationsOf]
  refine List.filterMap_congr fun d member => ?_
  exact declarationOf?_moved before after (h.inside d (List.mem_of_mem_filter member))

theorem recordRuleSet_moved (h : n.Everywhere (Node.Placed (mask source)))
    (atRules : List String) (t : StyleTable) :
    recordRuleSet (before ++ (source ++ after)) atRules t (n.moved (byteLength before)) =
      recordRuleSet source atRules t n := by
  unfold recordRuleSet
  rw [Node.childOf?_moved, Node.childOf?_moved]
  cases found : n.childOf? "selectors" with
  | none => rfl
  | some selectors =>
      cases found' : n.childOf? "block" with
      | none => rfl
      | some block =>
          have inside := (h.inside selectors (List.mem_of_find?_eq_some found)).here
          have inside' := h.inside block (List.mem_of_find?_eq_some found')
          have listed := (stands_of_placed inside).slice_append before after
          simp only [Option.map_some, declarationsOf_moved before after inside', Node.span_moved]
          rw [listed]

end

theorem recordItem_ruleSet {n : Node} (h : n.is "rule_set" = true) (css : List Char)
    (atRules : List String) (t : StyleTable) :
    recordItem css atRules t n = recordRuleSet css atRules t n := by
  cases n
  rw [recordItem]
  exact if_pos h

theorem Segment.recordItems_nodes (p : Segment) (before after : List Char) (t : StyleTable) :
    recordItems (before ++ (p.text ++ after)) [] t (p.nodes (byteLength before)) = p.record t := by
  cases p with
  | blanks cs blank => rfl
  | comment inside no_end ends => rfl
  | ruleSet cs n own =>
      have moved : (n.moved (byteLength before)).is "rule_set" = true := by
        rw [Node.is_moved, own.is]
      rw [Segment.nodes, recordItems, recordItems, recordItem_ruleSet moved, Segment.record,
        recordItem_ruleSet own.is]
      exact recordRuleSet_moved before after own.placed [] t

theorem recordItems_append (css : List Char) (atRules : List String) (t : StyleTable)
    (ns ms : List Node) : recordItems css atRules t (ns ++ ms) =
      recordItems css atRules (recordItems css atRules t ns) ms := by
  induction ns generalizing t with
  | nil => rfl
  | cons n ns ih => rw [List.cons_append, recordItems, ih, recordItems]

theorem recordItems_nodesAt (ps : List Segment) (before : List Char) (t : StyleTable) :
    recordItems (before ++ textOf ps) [] t (nodesAt (byteLength before) ps) =
      ps.foldl Segment.record t := by
  induction ps generalizing before t with
  | nil => rfl
  | cons p ps ih =>
      have text : before ++ textOf (p :: ps) = before ++ (p.text ++ textOf ps) := rfl
      have later := ih (before ++ p.text) (p.record t)
      rw [byteLength_append, List.append_assoc] at later
      rw [nodesAt, recordItems_append, text, p.recordItems_nodes before (textOf ps) t, later,
        List.foldl_cons]

/-- The table of a sequence is that of its rule sets, one after another, each recorded as if it
stood alone. -/
theorem StyleTable.ofCss_sequence {css : String} {ps : List Segment}
    (text : css.toList = textOf ps) : StyleTable.ofCss css = ps.foldl Segment.record .empty := by
  rw [StyleTable.ofCss, text, parse_textOf]
  exact recordItems_nodesAt ps [] .empty

end Restyle.Sheet
