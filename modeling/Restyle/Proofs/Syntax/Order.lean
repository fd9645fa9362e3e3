import Restyle.Proofs.Syntax.Reading
import Restyle.Proofs.Text.Cut
/-!
The order of nodes in a tree. A reader leaves its nodes one after another: each begins where the one
before it has ended, at the earliest. So below every node of a tree without faults its children lie
one after another inside of it, and every node begins and ends between two characters. This holds
for every grammar.
-/

namespace Restyle.Syntax

open Text (byteLength)

variable {Rule : Type} {source : List Char}

/-- A property of a node and of all nodes below it. -/
inductive Node.Everywhere (P : Node → Prop) : Node → Prop
  | mk {n : Node} : P n → (∀ c ∈ n.children, Node.Everywhere P c) → Node.Everywhere P n

namespace Node.Everywhere

variable {P : Node → Prop} {n : Node}

theorem here (h : n.Everywhere P) : P n := by
  cases h with
  | mk here inside => exact here

theorem inside (h : n.Everywhere P) : ∀ c ∈ n.children, c.Everywhere P := by
  cases h with
  | mk here inside => exact inside

theorem leaf {k : Kind} {r : Option Role} {s : Span} (h : P (.mk k r s [])) :
    Node.Everywhere P (.mk k r s []) :=
  .mk h fun _ none => absurd none List.not_mem_nil

theorem imp {Q : Node → Prop} (h : n.Everywhere P) (one : ∀ m, P m → Q m) : n.Everywhere Q := by
  induction h with
  | @mk n here inside ih => exact .mk (one n here) ih

theorem and {Q : Node → Prop} (h : n.Everywhere P) (h' : n.Everywhere Q) :
    n.Everywhere fun m => P m ∧ Q m := by
  induction h with
  | @mk n here inside ih =>
      exact .mk ⟨here, h'.here⟩ fun c member => ih c member (h'.inside c member)

end Node.Everywhere

theorem Node.kind_withRole (r : Role) (n : Node) : (n.withRole r).kind = n.kind := by
  cases n
  rfl

theorem Node.span_withRole (r : Role) (n : Node) : (n.withRole r).span = n.span := by
  cases n
  rfl

theorem Node.children_withRole (r : Role) (n : Node) : (n.withRole r).children = n.children := by
  cases n
  rfl

/-- Nodes, the last one first, each of which ends before the one after it begins; the last one ends
at `stop` at the latest. -/
inductive Laid : Nat → List Node → Prop
  | nil {stop : Nat} : Laid stop []
  | cons {stop : Nat} {n : Node} {ns : List Node} : n.span.stop ≤ stop →
      n.span.start ≤ n.span.stop → Laid n.span.start ns → Laid stop (n :: ns)

theorem Laid.mono {a b : Nat} {ns : List Node} (h : Laid a ns) (le : a ≤ b) : Laid b ns := by
  cases h with
  | nil => exact .nil
  | cons ends ordered before => exact .cons (Nat.le_trans ends le) ordered before

theorem Laid.behind {stop : Nat} {last first : Node} {ns before : List Node}
    (h : Laid stop (ns ++ before)) (head : ns.head? = some last) (tail : ns.getLast? = some first) :
    first.span.start ≤ last.span.stop ∧ last.span.stop ≤ stop ∧ Laid first.span.start before := by
  induction ns generalizing stop last with
  | nil => cases head
  | cons n ns ih =>
      cases head
      cases h with
      | cons ends ordered laid =>
          cases ns with
          | nil =>
              cases tail
              exact ⟨ordered, ends, laid⟩
          | cons m ns =>
              rw [List.getLast?_cons_cons] at tail
              obtain ⟨le, bound, rest⟩ := ih laid rfl tail
              exact ⟨by omega, ends, rest⟩

theorem Laid.pairwise {stop : Nat} {ns : List Node} (h : Laid stop ns) :
    ns.reverse.Pairwise (fun a b => a.span.stop ≤ b.span.start) ∧
      ∀ n ∈ ns, n.span.start ≤ n.span.stop ∧ n.span.stop ≤ stop := by
  induction h with
  | nil => exact ⟨List.Pairwise.nil, by simp⟩
  | @cons stop n ns ends ordered before ih =>
      obtain ⟨apart, bounds⟩ := ih
      refine ⟨?_, ?_⟩
      · rw [List.reverse_cons, List.pairwise_append]
        refine ⟨apart, List.pairwise_singleton _ _, ?_⟩
        intro a member b last
        rw [List.mem_singleton.mp last]
        exact (bounds a (List.mem_reverse.mp member)).2
      · intro m member
        rcases List.mem_cons.mp member with rfl | earlier
        · exact ⟨ordered, ends⟩
        · have := bounds m earlier
          omega

theorem Laid.of_append {stop : Nat} {ns before : List Node} (h : Laid stop (ns ++ before)) :
    Laid stop ns := by
  induction ns generalizing stop with
  | nil => exact .nil
  | cons n ns ih =>
      cases h with
      | cons ends ordered laid => exact .cons ends ordered (ih laid)

theorem Laid.within {stop : Nat} {ns : List Node} (h : Laid stop ns) {first last : Node}
    (head : ns.getLast? = some first) (tail : ns.head? = some last) :
    ∀ n ∈ ns, first.span.start ≤ n.span.start ∧ n.span.stop ≤ last.span.stop := by
  induction h generalizing last with
  | nil => cases head
  | @cons stop m ns ends ordered before ih =>
      cases tail
      cases ns with
      | nil =>
          cases head
          intro n member
          rw [List.mem_singleton.mp member]
          exact ⟨Nat.le_refl _, Nat.le_refl _⟩
      | cons k ns =>
          rw [List.getLast?_cons_cons] at head
          have earlier := ih head rfl
          cases before with
          | cons ends' ordered' before =>
              intro n member
              rcases List.mem_cons.mp member with rfl | member
              · have := (earlier k List.mem_cons_self).1
                exact ⟨by omega, Nat.le_refl _⟩
              · have := earlier n member
                exact ⟨this.1, by omega⟩

/-- A node stands between characters of a source, and its children lie one after another inside of
it. -/
structure Node.Placed (source : List Char) (n : Node) : Prop where
  ordered : n.span.start ≤ n.span.stop
  start : Text.isBoundary n.span.start source = true
  stop : Text.isBoundary n.span.stop source = true
  apart : n.children.Pairwise fun a b => a.span.stop ≤ b.span.start
  within : ∀ c ∈ n.children, n.span.start ≤ c.span.start ∧ c.span.stop ≤ n.span.stop

theorem Node.Placed.withRole {n : Node} (h : n.Placed source) (r : Role) :
    (n.withRole r).Placed source := by
  cases n
  exact ⟨h.ordered, h.start, h.stop, h.apart, h.within⟩

namespace Cursor

/-- What is ahead is the rest of the source, and the nodes read so far lie in it one after
another. -/
structure Sited (source : List Char) (c : Cursor) : Prop where
  ahead : ∃ before, source = before ++ c.rest ∧ byteLength before = c.offset
  laid : Laid c.offset c.stack
  placed : ∀ n ∈ c.stack, n.Everywhere (Node.Placed source)

variable {c d : Cursor}

theorem start_sited (source : List Char) : (start source).Sited source := by
  unfold start
  split
  · rename_i rest
    exact ⟨⟨['\uFEFF'], rfl, rfl⟩, .nil, fun _ none => absurd none List.not_mem_nil⟩
  · exact ⟨⟨[], rfl, rfl⟩, .nil, fun _ none => absurd none List.not_mem_nil⟩

theorem Sited.boundary (h : c.Sited source) : Text.isBoundary c.offset source = true := by
  obtain ⟨before, parts, bytes⟩ := h.ahead
  exact Text.isBoundary_iff.mpr ⟨before, c.rest, parts, bytes⟩

theorem Sited.advance (h : c.Sited source) (n : Nat) : (c.advance n).Sited source where
  ahead := by
    obtain ⟨before, parts, bytes⟩ := h.ahead
    refine ⟨before ++ c.rest.take n, ?_, ?_⟩
    · rw [List.append_assoc]
      exact parts.trans (congrArg (before ++ ·) (List.take_append_drop n c.rest).symm)
    · rw [Text.byteLength_append, bytes]
      rfl
  laid := h.laid.mono (Nat.le_add_right _ _)
  placed := h.placed

theorem Sited.leaf (h : c.Sited source) (kind : Kind) (n : Nat) :
    ((c.advance n).push
      (.mk kind none ⟨c.offset, (c.advance n).offset⟩ [])).Sited source := by
  have next := h.advance n
  have ordered : c.offset ≤ (c.advance n).offset := Nat.le_add_right _ _
  refine ⟨next.ahead, .cons (Nat.le_refl _) ordered h.laid, ?_⟩
  intro m member
  rcases List.mem_cons.mp member with rfl | before
  · exact .leaf ⟨ordered, h.boundary, next.boundary, .nil, fun _ none =>
      absurd none List.not_mem_nil⟩
  · exact h.placed m before

theorem Sited.take (h : c.Sited source) (kind : Kind) (n : Nat) : (c.take kind n).Sited source :=
  ⟨(h.leaf kind n).ahead, (h.leaf kind n).laid, (h.leaf kind n).placed⟩

theorem Sited.assign (h : c.Sited source) (r : Role) : (c.assign r).Sited source := by
  unfold Cursor.assign
  split
  · rename_i n ns stack
    obtain ⟨ahead, laid, placed⟩ := h
    rw [stack] at laid placed
    refine ⟨ahead, ?_, ?_⟩
    · cases laid with
      | cons ends ordered before =>
          refine .cons ?_ ?_ ?_
          · rwa [Node.span_withRole]
          · rwa [Node.span_withRole]
          · rwa [Node.span_withRole]
    · obtain ⟨last, others⟩ := List.forall_mem_cons.mp placed
      refine List.forall_mem_cons.mpr ⟨.mk (last.here.withRole r) ?_, others⟩
      rw [Node.children_withRole]
      exact last.inside
  · exact h

theorem stack_parts (c : Cursor) (height : Nat) :
    c.stack = ((c.stack.take (c.height - height)).reverse.dropWhile isExtra).reverse ++
      (((c.stack.take (c.height - height)).reverse.takeWhile isExtra).reverse ++
        c.stack.drop (c.height - height)) := by
  rw [← List.append_assoc, ← List.reverse_append, List.takeWhile_append_dropWhile,
    List.reverse_reverse, List.take_append_drop]

/-- Closing nodes into one, wherever the first of them stands, keeps the order. -/
theorem Sited.close (h : c.Sited source) (name : String) (height : Nat) :
    (c.close name height).Sited source := by
  obtain ⟨ahead, laid, placed⟩ := h
  have boundary := Sited.boundary ⟨ahead, laid, placed⟩
  rw [stack_parts c height] at laid placed
  unfold Cursor.close
  dsimp only
  generalize (c.stack.take (c.height - height)).reverse.dropWhile isExtra = inside at laid placed ⊢
  generalize (c.stack.take (c.height - height)).reverse.takeWhile isExtra = outside
    at laid placed ⊢
  generalize c.stack.drop (c.height - height) = below at laid placed ⊢
  have others : ∀ n ∈ outside.reverse ++ below, n.Everywhere (Node.Placed source) :=
    fun n member => placed n (List.mem_append_right _ member)
  have own : ∀ n ∈ inside, n.Everywhere (Node.Placed source) :=
    fun n member => placed n (List.mem_append_left _ (List.mem_reverse.mpr member))
  cases first : inside.head? with
  | none =>
      obtain rfl := List.head?_eq_none_iff.mp first
      refine ⟨ahead, .cons (Nat.le_refl _) (Nat.le_refl _) laid, ?_⟩
      exact List.forall_mem_cons.mpr ⟨.leaf ⟨Nat.le_refl _, boundary, boundary, .nil,
        fun _ none => absurd none List.not_mem_nil⟩, others⟩
  | some f =>
      cases last : inside.getLast? with
      | none =>
          rw [List.getLast?_eq_none_iff.mp last] at first
          cases first
      | some l =>
          have tail : inside.reverse.head? = some l := by rw [List.head?_reverse, last]
          have head : inside.reverse.getLast? = some f := by rw [List.getLast?_reverse, first]
          obtain ⟨ordered, ends, before⟩ := laid.behind tail head
          refine ⟨ahead, .cons ends ordered before, ?_⟩
          have alone : Laid c.offset inside.reverse := laid.of_append
          refine List.forall_mem_cons.mpr ⟨.mk ⟨ordered, ?_, ?_, ?_, ?_⟩ own, others⟩
          · exact (own f (List.mem_of_head? first)).here.start
          · exact (own l (List.mem_of_getLast? last)).here.stop
          · have apart := alone.pairwise.1
            rwa [List.reverse_reverse] at apart
          · intro n member
            exact alone.within head tail n (List.mem_reverse.mpr member)

end Cursor

variable {g : Grammar Rule} {c d : Cursor}

theorem Passes.sited (h : Passes c d) (before : c.Sited source) : d.Sited source := by
  induction h with
  | refl c => exact before
  | skip n passes ih => exact ih (before.advance n)
  | comment category n passes ih => exact ih (before.leaf _ n)

theorem Reads.sited {p : Pattern Rule} (h : Reads g p c d) (before : c.Sited source) :
    d.Sited source := by
  induction h with
  | nothing c => exact before
  | token l n trivia => exact (trivia.sited before).take _ n
  | attached c l n => exact before.take _ n
  | both first second ih ih' => exact ih' (ih before)
  | left q one ih => exact ih before
  | right p other ih => exact ih before
  | done p c => exact before
  | more first later ih ih' => exact ih' (ih before)
  | head tails first ih => exact ih before
  | grown grows tail follows ih ih' =>
      obtain ⟨ahead, laid, placed⟩ := (ih' (ih before)).close _ _
      exact ⟨ahead, laid, placed⟩
  | ending first tail follows ih ih' =>
      obtain ⟨ahead, laid, placed⟩ := (ih' (ih before)).close _ _
      exact ⟨ahead, laid, placed⟩
  | last passed => exact before
  | rule inner ih =>
      obtain ⟨ahead, laid, placed⟩ := ih before
      exact ⟨ahead, laid, placed⟩
  | node name inner ih => exact (ih before).close name _
  | role r inner ih => exact (ih before).assign r
  | absent p c => exact before
  | ahead test c => exact before
  | understood place =>
      obtain ⟨ahead, laid, placed⟩ := place.sited before
      exact ⟨ahead, laid, placed⟩
  | semicolon n trivia => exact (trivia.sited before).take _ n
  | sameStatement c => exact before
  | bracketed inside inner ih =>
      obtain ⟨ahead, laid, placed⟩ := ih ⟨before.ahead, before.laid, before.placed⟩
      exact ⟨ahead, laid, placed⟩

/-- The children of a node lie one after another in a source of `total` bytes. -/
structure Node.InOrder (total : Nat) (n : Node) : Prop where
  apart : n.children.Pairwise fun a b => a.span.stop ≤ b.span.start
  ordered : ∀ c ∈ n.children, c.span.start ≤ c.span.stop
  within : ∀ c ∈ n.children, c.span.stop ≤ total

/-- Where a tree has no fault, the children of its root lie one after another, and all nodes below
it are placed. -/
theorem Node.Derived.inOrder {tree : Node} (h : tree.Derived g source) :
    tree.InOrder (byteLength source) ∧
      ∀ c ∈ tree.children, c.Everywhere (Node.Placed source) := by
  obtain ⟨c, d, reads, passes, rfl⟩ := h
  obtain ⟨⟨before, parts, bytes⟩, laid, placed⟩ :=
    passes.sited (reads.sited (Cursor.start_sited source))
  obtain ⟨apart, bounds⟩ := laid.pairwise
  have whole := congrArg byteLength parts
  rw [Text.byteLength_append] at whole
  refine ⟨⟨apart, ?_, ?_⟩, fun n member => placed n (List.mem_reverse.mp member)⟩
  · intro n member
    exact (bounds n (List.mem_reverse.mp member)).1
  · intro n member
    have := (bounds n (List.mem_reverse.mp member)).2
    omega

theorem parse_inOrder (faultless : (parse g source).hasFault = false) :
    (parse g source).InOrder (byteLength source) :=
  (parse_derived faultless).inOrder.1

end Restyle.Syntax
