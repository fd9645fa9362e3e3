import Restyle.Proofs.Syntax.Leaving
import Restyle.Script.Grammar
/-!
How the tags of markup lie in a tree. The name of a tag holds no other tag, nor does an attribute
with a plain string; an element has one opening tag, and what closes it is no tag of its own. Only
the rule for elements can break any of this, so that the other rules need not be read.
-/

namespace Restyle.Script

open Syntax (Node Kind Role Cursor Pattern Grammar Reads Left Leaves insideOf outsideOf)

def tagCategories : List String := ["jsx_opening_element", "jsx_self_closing_element"]

def isTag (n : Node) : Bool := n.is "jsx_opening_element" || n.is "jsx_self_closing_element"

/-- There is no tag at a node or below it. -/
def TagFree (n : Node) : Prop := n.Everywhere fun m => isTag m = false

/-- The categories of the nodes that hold tags in a way of their own. -/
def holdingCategories : List String := ["jsx_attribute", "jsx_element"]

/-- How a node holds its tags. -/
structure Shaped (n : Node) : Prop where
  named : n.role = some .name → TagFree n
  closing : n.role = some .closeTag → isTag n = false
  plain : n.is "jsx_attribute" = true → (∃ c ∈ n.children, c.is "string" = true) →
    ∀ c ∈ n.children, TagFree c
  single : n.is "jsx_element" = true →
    n.children.Pairwise fun a b => isOpening a = true → isOpening b = false

theorem is_eq_false {n : Node} {name : String} (h : n.kind.name ≠ name) : n.is name = false := by
  rw [Node.is, beq_eq_false_iff_ne]
  intro same
  exact h (congrArg Kind.name same)

theorem shaped_plain (k : Kind) (s : Span) (cs : List Node)
    (h : holdingCategories.contains k.name = false) : Shaped (.mk k none s cs) := by
  simp only [holdingCategories, List.contains_eq_mem, List.mem_cons, List.not_mem_nil, or_false,
    decide_eq_false_iff_not, not_or] at h
  refine ⟨nofun, nofun, fun is => ?_, fun is => ?_⟩
  · rw [is_eq_false (n := .mk k none s cs) h.1] at is
    cases is
  · rw [is_eq_false (n := .mk k none s cs) h.2] at is
    cases is

theorem isTag_eq_false {n : Node} (h : tagCategories.contains n.kind.name = false) :
    isTag n = false := by
  simp only [tagCategories, List.contains_eq_mem, List.mem_cons, List.not_mem_nil, or_false,
    decide_eq_false_iff_not, not_or] at h
  rw [isTag, is_eq_false h.1, is_eq_false h.2, Bool.or_false]

theorem isTag_of_is {n : Node} {name : String} (is : n.is name = true)
    (other : tagCategories.contains name = false) : isTag n = false := by
  rw [Node.is, beq_iff_eq] at is
  exact isTag_eq_false (by rwa [is])

variable {d : Dialect}

theorem rules_framed (d : Dialect) : (grammar d).Framed (· == .markupExpression) := by
  refine ⟨fun r => ?_, fun r leaving => ?_⟩
  · obtain ⟨typed, markup⟩ := d
    cases typed <;> cases markup <;> cases r <;> rfl
  · rw [beq_iff_eq.mp leaving]
    rfl

theorem rules_ordinary (d : Dialect) {r : Rule} (other : r ≠ .element) :
    (rules d r).ordinary holdingCategories (fun _ => true) = true := by
  obtain ⟨typed, markup⟩ := d
  cases typed <;> cases markup <;> cases r <;> first | rfl | exact absurd rfl other

/-- What is read without a rule, and without a tag of its own, is free of tags. -/
theorem tagFree_of_ordinary {p : Pattern Rule} {c e : Cursor} (h : Reads (grammar d) p c e)
    (framed' : p.framed (· == .markupExpression) = true)
    (plain : p.ordinary tagCategories (fun _ => false) = true) :
    Leaves TagFree c e :=
  h.everywhere (rules_framed d)
    (Syntax.forall_commentAt (fun _ => isTag_eq_false rfl) fun _ => isTag_eq_false rfl)
    (fun _ known => absurd known Bool.false_ne_true) framed'
    (Pattern.closes_of_ordinary (fun k s cs => isTag_eq_false (n := .mk k none s cs)) p plain)

theorem isTag_withRole (r : Role) (n : Node) : isTag (n.withRole r) = isTag n := by
  cases n
  rfl

theorem TagFree.withRole {n : Node} (h : TagFree n) (r : Role) : TagFree (n.withRole r) := by
  refine .mk ((isTag_withRole r n).trans h.here) ?_
  rw [Syntax.Node.children_withRole]
  exact h.inside

theorem Shaped.withRole {n : Node} (h : Shaped n) (r : Role) (name : r = .name → TagFree n)
    (closing : r = .closeTag → isTag n = false) : Shaped (n.withRole r) := by
  obtain ⟨k, r', s, cs⟩ := n
  exact ⟨fun role => (name (Option.some.inj role)).withRole r,
    fun role => closing (Option.some.inj role), h.plain, h.single⟩

theorem tagName_closes : tagName.Closes (grammar d) Shaped fun _ => true := by
  refine ⟨Pattern.closes_of_ordinary shaped_plain _ rfl, ?_⟩
  intro c e n ns read left shaped
  have free := (tagFree_of_ordinary read rfl rfl).of_left left n List.mem_cons_self
  exact shaped.withRole .name (fun _ => free) nofun

/-- Whether a kind is another one than the category `name`. -/
def differs (name : String) (k : Kind) : Bool := !(k == .category name)

theorem differs_eq_true_iff {name : String} {n : Node} :
    differs name n.kind = true ↔ n.is name = false := by
  rw [differs, Node.is, Bool.not_eq_true']

theorem differs_of_extra {name : String} (other : name ∉ Syntax.commentCategories) (n : Node)
    (h : Cursor.isExtra n = true) : differs name n.kind = true := by
  rw [differs_eq_true_iff, Node.is, beq_eq_false_iff_ne]
  intro kind
  rw [Cursor.isExtra, Node.isComment, Node.isError, kind, Bool.or_eq_true, beq_iff_eq] at h
  rcases h with comment | error
  · obtain ⟨category, among, is⟩ := List.any_eq_true.mp comment
    rw [Node.is, kind, beq_iff_eq] at is
    rw [Kind.category.inj is] at other
    exact other among
  · cases error

variable {c e : Cursor}

theorem chain_leaves {h : Pattern Rule} {ts us : List (String × Pattern Rule)}
    (read : Reads (grammar d) (.chain (.ending h ts) us) c e)
    (framed' : (Pattern.chain (.ending h ts) us).framed (· == .markupExpression) = true) :
    ∃ n os, Left c e (n :: os) ∧ ∀ m ∈ os, Cursor.isExtra m = true := by
  have parts := framed'
  rw [Pattern.framed, Pattern.framed, Bool.and_eq_true, Bool.and_eq_true] at parts
  cases read with
  | head tails first =>
      cases first with
      | @ending _ _ _ name _ _ _ first tail follows =>
          obtain ⟨ns, left, -⟩ := first.frame (rules_framed d) parts.1.1
          obtain ⟨ms, left', -⟩ :=
            follows.frame (rules_framed d) (Pattern.framed_of_mem parts.1.2 tail)
          obtain ⟨s, closed⟩ := (left.trans left').close name
          exact ⟨_, _, ⟨closed.stack, closed.height⟩, fun m member =>
            (Syntax.mem_of_mem_outsideOf member).2⟩
  | @grown _ _ _ name _ _ _ grows tail follows =>
      obtain ⟨ns, left, -⟩ := grows.frame (rules_framed d) framed'
      obtain ⟨ms, left', -⟩ := follows.frame (rules_framed d) (Pattern.framed_of_mem parts.2 tail)
      obtain ⟨s, closed⟩ := (left.trans left').close name
      exact ⟨_, _, ⟨closed.stack, closed.height⟩, fun m member =>
        (Syntax.mem_of_mem_outsideOf member).2⟩

theorem element_leaves (read : Reads (grammar d) (elementRule d) c e) :
    Leaves (fun n => differs "jsx_opening_element" n.kind = true) c e := by
  unfold elementRule at read
  cases read with
  | both first second =>
      cases second with
      | last passed =>
          obtain ⟨n, os, left, extras⟩ := chain_leaves first (by
            obtain ⟨typed, markup⟩ := d
            cases typed <;> rfl)
          refine ⟨_, left, List.forall_mem_cons.mpr ⟨?_, ?_⟩⟩
          · rw [left.stack, List.cons_append, List.head?_cons, Option.any_some] at passed
            exact passed
          · exact fun m member => differs_of_extra (by decide) m (extras m member)

/-- Whether a rule stands for markup inside of markup. -/
def inMarkup (r : Rule) : Bool := r == .markupExpression || r == .element

/-- A pattern that is seen to leave no node of a category leaves none. -/
theorem leaves_other {name : String} (other : name ∉ Syntax.commentCategories) {p : Pattern Rule}
    (read : Reads (grammar d) p c e) (framed' : p.framed (· == .markupExpression) = true)
    (apart : p.tops (differs name) (fun _ => false) = true) :
    Leaves (fun n => differs name n.kind = true) c e :=
  read.tops (differs name) (fun _ => false) (rules_framed d) (differs_of_extra other)
    (fun _ known => absurd known Bool.false_ne_true) framed' apart

theorem leaves_no_string {r : Rule} (markup : inMarkup r = true)
    (read : Reads (grammar d) (rules d r) c e) :
    Leaves (fun n => differs "string" n.kind = true) c e := by
  refine leaves_other (by decide) read ((rules_framed d).framed r) ?_
  rcases Bool.or_eq_true _ _ ▸ markup with same | same
  · rw [beq_iff_eq.mp same]
    rfl
  · rw [beq_iff_eq.mp same]
    rfl

theorem leaves_no_opening {r : Rule} (markup : inMarkup r = true)
    (read : Reads (grammar d) (rules d r) c e) :
    Leaves (fun n => differs "jsx_opening_element" n.kind = true) c e := by
  rcases Bool.or_eq_true _ _ ▸ markup with same | same
  · obtain rfl := beq_iff_eq.mp same
    exact leaves_other (by decide) read rfl rfl
  · obtain rfl := beq_iff_eq.mp same
    exact element_leaves read

/-- Either no tag stands in an attribute, or no plain string stands at its top. -/
theorem attribute_leaves {p q r s t : Pattern Rule}
    (read : Reads (grammar d)
      (.both p (.either (.both q (.either r (.either s t))) .nothing)) c e) :
    Reads (grammar d) (.both p (.both q r)) c e ∨
      Reads (grammar d) (.both p (.either (.both q (.either s t)) .nothing)) c e := by
  cases read with
  | both first second =>
      cases second with
      | left _ one =>
          cases one with
          | both sign value =>
              cases value with
              | left _ string => exact .inl (.both first (.both sign string))
              | right _ other => exact .inr (.both first (.left _ (.both sign other)))
      | right _ none => exact .inr (.both first (.right _ none))

/-- Where an attribute has a plain string, no tag stands in it. -/
theorem attribute_closes :
    tagAttribute.Closes (grammar d) Shaped fun _ => true := by
  refine ⟨⟨⟨Pattern.closes_of_ordinary shaped_plain _ rfl, ?_⟩, rfl⟩, ?_⟩
  · intro c e ns s read left
    refine ⟨nofun, nofun, ?_, nofun⟩
    rintro - ⟨m, member, string⟩
    rcases attribute_leaves read with plain | other
    · intro n inside
      exact (tagFree_of_ordinary plain rfl rfl).of_left left n (Syntax.mem_of_mem_insideOf inside)
    · have none := (other.tops (differs "string") inMarkup (rules_framed d)
        (differs_of_extra (by decide)) (fun r known c e => leaves_no_string known) rfl rfl).of_left
          left m (Syntax.mem_of_mem_insideOf member)
      rw [differs_eq_true_iff, string] at none
      cases none
  · intro c e n ns read left shaped
    exact shaped.withRole .attribute nofun nofun

theorem closing_closes {p : Pattern Rule} (inner : p.Closes (grammar d) Shaped fun _ => true)
    (framed' : p.framed (· == .markupExpression) = true) :
    (Pattern.role .closeTag (.node "jsx_closing_element" p)).Closes (grammar d) Shaped
      fun _ => true := by
  refine ⟨⟨inner, fun c e ns s _ _ => shaped_plain _ s _ rfl⟩, ?_⟩
  intro c e n ns read left shaped
  refine shaped.withRole .closeTag nofun fun _ => ?_
  cases read with
  | node name inner =>
      obtain ⟨ms, left', -⟩ := inner.frame (rules_framed d) framed'
      obtain ⟨s, closed⟩ := left'.close "jsx_closing_element"
      obtain ⟨rfl, -⟩ := List.cons.inj (left.unique closed)
      rfl

/-- Behind the node that a chain begins an element with there is no other opening tag. -/
theorem shaped_element {ms os : List Node} {n : Node} (s : Span)
    (later : ∀ m ∈ ms, isOpening m = false) (apart : ∀ m ∈ os, isOpening m = false) :
    Shaped (.mk (.category "jsx_element") none s (insideOf (ms ++ n :: os))) := by
  refine ⟨nofun, nofun, nofun, fun _ => ?_⟩
  refine List.Pairwise.sublist (List.dropWhile_suffix _).sublist ?_
  rw [List.pairwise_reverse, List.pairwise_append, List.pairwise_cons]
  refine ⟨?_, ⟨?_, ?_⟩, ?_⟩
  · exact List.pairwise_of_forall_mem_list fun a member b _ _ => later a member
  · intro m member opening
    rw [apart m member] at opening
    cases opening
  · exact List.pairwise_of_forall_mem_list fun a member b _ _ => apart a member
  · exact fun a member b _ _ => later a member

theorem element_closes (d : Dialect) :
    (elementRule d).Closes (grammar d) Shaped fun _ => true := by
  obtain ⟨typed, markup⟩ := d
  unfold elementRule
  dsimp only
  refine ⟨⟨⟨?_, ?_⟩, ⟨trivial, ?_, ?_⟩, ?_, trivial⟩, trivial⟩
  · -- What stands between the brackets of a tag.
    refine ⟨Pattern.closes_of_ordinary shaped_plain _ rfl,
      ⟨tagName_closes, ?_, attribute_closes⟩, trivial⟩
    cases typed <;> exact Pattern.closes_of_ordinary shaped_plain _ rfl
  · exact Pattern.closesTails_of_ordinary shaped_plain _ _ rfl
  · -- The children of an element.
    exact Pattern.closes_of_ordinary shaped_plain _ rfl
  · refine closing_closes ⟨?_, ⟨tagName_closes, trivial⟩, ?_⟩ rfl
    · exact Pattern.closes_of_ordinary shaped_plain _ rfl
    · exact Pattern.closes_of_ordinary shaped_plain _ rfl
  · -- The element itself.
    intro c d e ns s opened behind left
    obtain ⟨n, os, first, extras⟩ := chain_leaves opened (by cases typed <;> rfl)
    obtain ⟨ms, later, others⟩ := behind.tops (differs "jsx_opening_element") inMarkup
      (rules_framed _) (differs_of_extra (by decide)) (fun r known c e => leaves_no_opening known) rfl rfl
    rw [left.unique (first.trans later)]
    refine shaped_element s (fun m member => differs_eq_true_iff.mp (others m member)) ?_
    exact fun m member =>
      differs_eq_true_iff.mp (differs_of_extra (by decide) m (extras m member))

theorem rules_close (d : Dialect) (r : Rule) :
    (rules d r).Closes (grammar d) Shaped fun _ => true := by
  by_cases element : r = .element
  · rw [element]
    exact element_closes d
  · exact Pattern.closes_of_ordinary shaped_plain _ (rules_ordinary d element)

/-- Tags lie in this way everywhere in the tree of a script without faults. -/
theorem shaped_of_derived {source : List Char} {tree : Node} (h : tree.Derived (grammar d) source) :
    Shaped tree ∧ ∀ n ∈ tree.children, n.Everywhere Shaped := by
  refine ⟨?_, h.everywhere (rules_framed d)
    (Syntax.forall_commentAt (fun s => shaped_plain _ s [] rfl) fun s => shaped_plain _ s [] rfl)
    (fun r _ => rules_close d r) rfl⟩
  obtain ⟨c, e, -, -, rfl⟩ := h
  exact shaped_plain _ _ _ rfl

end Restyle.Script
