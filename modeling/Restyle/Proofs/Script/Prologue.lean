import Restyle.Proofs.Script.Tags
/-!
What a script begins with. A statement that has a plain string for a child is that string and
holds no tag, since every operation on a string makes a node of its own around it; a comment and
the line of an interpreter hold nothing.
-/

namespace Restyle.Script

open Syntax (Node Kind Role Cursor Pattern Grammar Reads Left Leaves insideOf outsideOf)

variable {d : Dialect} {c e : Cursor}

/-- What was read has no plain string at its top, or has no tag at all. -/
def Parted (c e : Cursor) : Prop :=
  Leaves (fun n => differs "string" n.kind = true) c e ∨ Leaves TagFree c e

/-- Whether a pattern that reads one operand keeps strings apart from tags, the rules in `known`
being taken to do so. -/
def parted (known : Rule → Bool) : Pattern Rule → Bool
  | .either p q => parted known p && parted known q
  | .chain p ts => parted known p && ts.all fun t => differs "string" (.category t.1)
  | .rule r => known r
  | p => p.tops (differs "string") (fun _ => false) || p.ordinary tagCategories fun _ => false

theorem parted_of_plain {p : Pattern Rule} (read : Reads (grammar d) p c e)
    (framed' : p.framed (· == .markupExpression) = true)
    (plain : (p.tops (differs "string") (fun _ => false) ||
      p.ordinary tagCategories fun _ => false) = true) : Parted c e := by
  rcases Bool.or_eq_true _ _ ▸ plain with apart | free
  · exact .inl (leaves_other (by decide) read framed' apart)
  · exact .inr (tagFree_of_ordinary read framed' free)

/-- A reading of such a pattern keeps strings apart from tags. Where a chain has grown, all that was
read before lies in a node that is no string. -/
theorem parted_of_reads {known : Rule → Bool}
    (below : ∀ r, known r = true → ∀ c e, Reads (grammar d) (rules d r) c e → Parted c e)
    (p : Pattern Rule) (framed' : p.framed (· == .markupExpression) = true)
    (checked : parted known p = true) {c e : Cursor} (read : Reads (grammar d) p c e) :
    Parted c e := by
  cases p with
  | either p q =>
      rw [Pattern.framed, Bool.and_eq_true] at framed'
      rw [parted, Bool.and_eq_true] at checked
      cases read with
      | left _ one => exact parted_of_reads below p framed'.1 checked.1 one
      | right _ other => exact parted_of_reads below q framed'.2 checked.2 other
  | chain p ts =>
      have parts := framed'
      rw [Pattern.framed, Bool.and_eq_true] at parts
      rw [parted, Bool.and_eq_true] at checked
      cases read with
      | head _ first => exact parted_of_reads below p parts.1 checked.1 first
      | grown grows tail follows =>
          obtain ⟨ns, left, -⟩ := grows.frame (rules_framed d) framed'
          obtain ⟨ms, left', -⟩ :=
            follows.frame (rules_framed d) (Pattern.framed_of_mem parts.2 tail)
          have other := List.all_eq_true.mp checked.2 _ tail
          exact .inl ((Leaves.close (left.trans left') (fun _ => other) fun n member =>
            differs_of_extra (by decide) n (Syntax.mem_of_mem_outsideOf member).2).same rfl rfl)
  | rule r =>
      cases read with
      | rule inner =>
          rcases below r checked _ _ inner with apart | free
          · exact .inl (apart.same rfl rfl)
          · exact .inr (free.same rfl rfl)
  | _ => exact parted_of_plain read framed' checked

/-- How many rules an expression is read by until one takes a token. The rules that no expression
is read by as a whole come last. -/
def depth : Rule → Nat
  | .template | .object | .array | .element => 0
  | .primary => 1
  | .operand => 2
  | .expression => 3
  | .expressions => 4
  | _ => 5

theorem rules_parted (d : Dialect) {r : Rule} (inner : depth r < 5) (other : r ≠ .element) :
    parted (fun r' => decide (depth r' < depth r)) (rules d r) = true := by
  obtain ⟨typed, markup⟩ := d
  cases typed <;> cases markup <;> cases r <;>
    first | rfl | exact absurd rfl other | exact absurd inner (Nat.lt_irrefl 5)

theorem expression_parted (r : Rule) (inner : depth r < 5) {c e : Cursor}
    (read : Reads (grammar d) (rules d r) c e) : Parted c e := by
  by_cases element : r = .element
  · subst element
    exact .inl (leaves_no_string rfl read)
  · refine parted_of_reads (fun r' smaller c e read => ?_) _ ((rules_framed d).framed r)
      (rules_parted d inner element) read
    have less := of_decide_eq_true smaller
    exact expression_parted r' (Nat.lt_trans less inner) read
termination_by depth r

/-- The categories of the nodes that may stand before the first statement with code. -/
def leadingCategories : List String := ["comment", "hash_bang_line", "expression_statement"]

/-- A comment and the line of an interpreter hold nothing, and a statement with a plain string for a
child holds no tag. -/
structure Simple (n : Node) : Prop where
  empty : (n.is "comment" || n.is "hash_bang_line") = true → n.children = []
  literal : n.is "expression_statement" = true → (∃ c ∈ n.children, c.is "string" = true) →
    ∀ c ∈ n.children, TagFree c

theorem simple_of_other (k : Kind) (s : Span) (cs : List Node)
    (h : leadingCategories.contains k.name = false) : Simple (.mk k none s cs) := by
  simp only [leadingCategories, List.contains_eq_mem, List.mem_cons, List.not_mem_nil, or_false,
    decide_eq_false_iff_not, not_or] at h
  obtain ⟨comment, line, statement⟩ := h
  refine ⟨fun passed => ?_, fun is => ?_⟩
  · rw [is_eq_false (n := .mk k none s cs) comment, is_eq_false (n := .mk k none s cs) line] at passed
    cases passed
  · rw [is_eq_false (n := .mk k none s cs) statement] at is
    cases is

theorem simple_leaf (k : Kind) (s : Span) : Simple (.mk k none s []) :=
  ⟨fun _ => rfl, fun _ _ _ none => absurd none List.not_mem_nil⟩

theorem Simple.withRole {n : Node} (h : Simple n) (r : Role) : Simple (n.withRole r) := by
  cases n
  exact ⟨h.empty, h.literal⟩

theorem simple_role {r : Role} {p : Pattern Rule}
    (inner : p.Closes (grammar d) Simple fun _ => true) :
    (Pattern.role r p).Closes (grammar d) Simple fun _ => true :=
  ⟨inner, fun _ _ _ _ _ _ simple => simple.withRole r⟩

theorem simple_ordinary (p : Pattern Rule)
    (h : p.ordinary leadingCategories (fun _ => true) = true) :
    p.Closes (grammar d) Simple fun _ => true :=
  Pattern.closes_of_ordinary simple_of_other p h

theorem simple_element (d : Dialect) : (elementRule d).Closes (grammar d) Simple fun _ => true := by
  obtain ⟨typed, markup⟩ := d
  have name : tagName.Closes (grammar ⟨typed, markup⟩) Simple fun _ => true :=
    simple_role (simple_ordinary _ rfl)
  unfold elementRule
  dsimp only
  refine ⟨⟨⟨?_, ?_⟩, ⟨trivial, ?_, ?_⟩, ?_, trivial⟩, trivial⟩
  · -- What stands between the brackets of a tag.
    refine ⟨simple_ordinary _ rfl, ⟨name, ?_, simple_role (simple_ordinary _ rfl)⟩, trivial⟩
    cases typed <;> exact simple_ordinary _ rfl
  · exact Pattern.closesTails_of_ordinary simple_of_other _ _ rfl
  · exact simple_ordinary _ rfl
  · refine simple_role ⟨⟨simple_ordinary _ rfl, ⟨name, trivial⟩, simple_ordinary _ rfl⟩, ?_⟩
    exact fun _ _ _ s _ _ => simple_of_other _ s _ rfl
  · exact fun _ _ _ _ s _ _ _ => simple_of_other _ s _ rfl

theorem simple_expression :
    (Pattern.node "expression_statement" (.both (.rule .expressions) .semicolon)).Closes
      (grammar d) Simple fun _ => true := by
  refine ⟨⟨rfl, fun s => simple_leaf _ s⟩, ?_⟩
  intro c e ns s read left
  refine ⟨nofun, fun _ ⟨m, member, string⟩ => ?_⟩
  cases read with
  | both first second =>
      have inner : ∀ r, (r == .expressions) = true → ∀ c e,
          Reads (grammar d) (rules d r) c e → Parted c e := by
        intro r known c e
        rw [beq_iff_eq.mp known]
        exact expression_parted .expressions (by decide)
      rcases parted_of_reads inner _ rfl rfl first with apart | free
      · -- Without a string among the expressions there is none in the statement.
        have mark : Leaves (fun n => differs "string" n.kind = true) _ e :=
          leaves_other (by decide) second rfl rfl
        have none := (apart.trans mark).of_left left m (Syntax.mem_of_mem_insideOf member)
        rw [differs_eq_true_iff, string] at none
        cases none
      · have mark := tagFree_of_ordinary second rfl rfl
        exact fun n inside =>
          (free.trans mark).of_left left n (Syntax.mem_of_mem_insideOf inside)

/-- The patterns between which a choice is made. -/
def alternatives : Pattern Rule → List (Pattern Rule)
  | .either p q => p :: alternatives q
  | p => [p]

theorem closes_of_alternatives {S : Node → Prop} {known : Rule → Bool} (p : Pattern Rule)
    (h : ∀ q ∈ alternatives p, q.Closes (grammar d) S known) : p.Closes (grammar d) S known := by
  cases p with
  | either p q =>
      obtain ⟨first, others⟩ := List.forall_mem_cons.mp h
      exact ⟨first, closes_of_alternatives q others⟩
  | _ => exact h _ List.mem_cons_self

theorem simple_statement (d : Dialect) :
    (rules d .statement).Closes (grammar d) Simple fun _ => true := by
  have parts : ∃ qs, alternatives (rules d .statement) =
      qs ++ [.node "expression_statement" (.both (.rule .expressions) .semicolon)] ∧
      qs.all (fun q => q.ordinary leadingCategories fun _ => true) = true := by
    refine ⟨(alternatives (rules d .statement)).dropLast, ?_, ?_⟩
    · obtain ⟨typed, markup⟩ := d
      cases typed <;> rfl
    · obtain ⟨typed, markup⟩ := d
      cases typed <;> rfl
  obtain ⟨qs, all, plain⟩ := parts
  refine closes_of_alternatives _ fun q member => ?_
  rw [all, List.mem_append, List.mem_singleton] at member
  rcases member with other | rfl
  · exact simple_ordinary q (List.all_eq_true.mp plain q other)
  · exact simple_expression

theorem rules_simple (d : Dialect) (r : Rule) :
    (rules d r).Closes (grammar d) Simple fun _ => true := by
  by_cases element : r = .element
  · subst element
    exact simple_element d
  by_cases statement : r = .statement
  · subst statement
    exact simple_statement d
  by_cases program : r = .program
  · subst program
    exact ⟨⟨fun s => simple_leaf _ s, trivial⟩, rfl⟩
  refine simple_ordinary _ ?_
  obtain ⟨typed, markup⟩ := d
  cases typed <;> cases markup <;> cases r <;>
    first | rfl | exact absurd rfl element | exact absurd rfl statement | exact absurd rfl program

/-- Whether a kind is that of a named node of a tree without faults. -/
def isWord : Kind → Bool
  | .category _ | .error => true
  | _ => false

theorem isWord_of_extra (n : Node) (h : Cursor.isExtra n = true) : isWord n.kind = true := by
  rw [Cursor.isExtra, Node.isComment, Node.isError, Bool.or_eq_true, beq_iff_eq] at h
  rcases h with comment | error
  · obtain ⟨name, -, is⟩ := List.any_eq_true.mp comment
    rw [beq_iff_eq.mp is]
    rfl
  · rw [error]
    rfl

/-- A rule leaves named nodes if what it is made of does, the rules in `known` being taken to do
so. -/
theorem leaves_words {known : Rule → Bool}
    (below : ∀ r, known r = true → ∀ c e, Reads (grammar d) (rules d r) c e →
      Leaves (fun n => isWord n.kind = true) c e)
    {r : Rule} (checked : (rules d r).tops isWord known = true) (c e : Cursor)
    (read : Reads (grammar d) (rules d r) c e) : Leaves (fun n => isWord n.kind = true) c e :=
  read.tops isWord known (rules_framed d) isWord_of_extra below ((rules_framed d).framed r) checked

theorem program_words (read : Reads (grammar d) (.rule .program) c e) :
    Leaves (fun n => isWord n.kind = true) c e := by
  have inner : ∀ r, (r == .declaration || r == .block) = true → ∀ c e,
      Reads (grammar d) (rules d r) c e → Leaves (fun n => isWord n.kind = true) c e := by
    intro r known
    refine leaves_words (fun _ known => absurd known Bool.false_ne_true) ?_
    obtain ⟨typed, markup⟩ := d
    rcases Bool.or_eq_true _ _ ▸ known with same | same
    · rw [beq_iff_eq.mp same]
      cases typed <;> rfl
    · rw [beq_iff_eq.mp same]
      rfl
  have statement : ∀ r, (r == .statement) = true → ∀ c e,
      Reads (grammar d) (rules d r) c e → Leaves (fun n => isWord n.kind = true) c e := by
    intro r known
    rw [beq_iff_eq.mp known]
    refine leaves_words inner ?_
    obtain ⟨typed, markup⟩ := d
    cases typed <;> rfl
  refine read.tops isWord (· == .program) (rules_framed d) isWord_of_extra ?_ rfl rfl
  intro r known
  rw [beq_iff_eq.mp known]
  exact leaves_words (r := .program) statement rfl

/-- The children of a script without faults are named, and all nodes below it are simple. -/
theorem top_of_derived {source : List Char} {tree : Node} (h : tree.Derived (grammar d) source) :
    tree.namedChildren = tree.children ∧ ∀ n ∈ tree.children, n.Everywhere Simple := by
  refine ⟨List.filter_eq_self.mpr fun n member => ?_,
    h.everywhere (rules_framed d) (fun _ _ s => simple_leaf _ s) (fun r _ => rules_simple d r) rfl⟩
  have word := h.leaves (V := fun n => isWord n.kind = true) (fun _ _ _ => rfl)
    (fun _ _ read => program_words read) n member
  unfold Node.isNamed
  cases kind : n.kind with
  | category | error => rfl
  | token | missing =>
      rw [kind] at word
      cases word

end Restyle.Script
