import Restyle.Proofs.Text.Boundaries
import Restyle.Syntax.Fault
/-!
The faults of a tree and the text that is reported around them. A subtree without a fault has none
to list, so passing over it loses nothing: the list is that of all faulty nodes in document order.
The text around a node reaches thirty bytes to either side and is cut between characters.
-/

namespace Restyle.Syntax

open Text (byteLength)

namespace Node

def isFaulty (n : Node) : Bool := n.isError || n.isMissing

mutual
/-- A node and all nodes below it, each before those below it and all in source order. -/
def preorder : Node → List Node
  | .mk k r s cs => .mk k r s cs :: preorderOf cs

def preorderOf : List Node → List Node
  | [] => []
  | n :: ns => n.preorder ++ preorderOf ns
end

theorem mem_preorder {m : Node} {k : Kind} {r : Option Role} {s : Span} {cs : List Node} :
    m ∈ (mk k r s cs).preorder ↔ m = mk k r s cs ∨ ∃ c ∈ cs, m ∈ c.preorder := by
  have below : m ∈ preorderOf cs ↔ ∃ c ∈ cs, m ∈ c.preorder := by
    induction cs with
    | nil => simp only [preorderOf, List.not_mem_nil, false_and, exists_false]
    | cons n ns ih => simp only [preorderOf, List.mem_append, ih, List.mem_cons, exists_eq_or_imp]
  rw [preorder, List.mem_cons, below]

theorem self_mem_preorder (n : Node) : n ∈ n.preorder := by
  cases n
  exact mem_preorder.mpr (.inl rfl)

mutual
theorem hasFault_eq : (n : Node) → n.hasFault = n.preorder.any isFaulty
  | .mk k r s cs => by
      rw [hasFault, preorder, List.any_cons, anyFault_eq cs]
      rfl

theorem anyFault_eq : (ns : List Node) → anyFault ns = (preorderOf ns).any isFaulty
  | [] => rfl
  | n :: ns => by rw [anyFault, preorderOf, List.any_append, hasFault_eq n, anyFault_eq ns]
end

theorem hasFault_iff {n : Node} :
    n.hasFault = true ↔ ∃ m ∈ n.preorder, m.isFaulty = true := by
  rw [hasFault_eq, List.any_eq_true]

theorem hasFault_of_isMissing {n : Node} (h : n.isMissing = true) : n.hasFault = true := by
  cases n
  rw [hasFault, h, Bool.or_true, Bool.true_or]

/-- The faulty nodes of a tree in document order. -/
def faulty (n : Node) : List Node := n.preorder.filter isFaulty

theorem faulty_of_faultless {n : Node} (h : n.hasFault = false) : n.faulty = [] := by
  rw [hasFault_eq, List.any_eq_false] at h
  exact List.filter_eq_nil_iff.mpr h

mutual
theorem faults_eq_map (source : List Char) :
    (n : Node) → n.faults source = n.faulty.map (fault source)
  | .mk k r s cs => by
      have below := faultsOf_eq_map source cs
      rw [faults, below, faulty, preorder, List.filter_cons]
      change (if isFaulty _ then _ else _) ++ _ = _
      split <;> rfl

theorem faultsOf_eq_map (source : List Char) :
    (ns : List Node) → faultsOf source ns = ((preorderOf ns).filter isFaulty).map (fault source)
  | [] => rfl
  | n :: ns => by
      have here : (if n.hasFault || n.isMissing then n.faults source else [])
          = n.faulty.map (fault source) := by
        cases fault : n.hasFault with
        | true => exact faults_eq_map source n
        | false =>
            have none_missing : n.isMissing = false := by
              cases missing : n.isMissing with
              | true => rw [hasFault_of_isMissing missing] at fault; cases fault
              | false => rfl
            rw [none_missing, faulty_of_faultless fault]
            rfl
      rw [faultsOf, here, faultsOf_eq_map source ns, preorderOf, List.filter_append,
        List.map_append]
      rfl
end

end Node

theorem faults_eq (tree : Node) (source : List Char) :
    faults tree source = tree.faulty.map (Node.fault source) := by
  unfold faults
  cases fault : tree.hasFault with
  | true => exact tree.faults_eq_map source
  | false =>
      rw [Node.faulty_of_faultless fault]
      rfl

/-- A source cut around a span: `context` begins `margin` bytes before the span and ends as many
behind it, or where the source does. Where such a place lies inside a character, the rest of that
character belongs to the context. -/
structure Window (margin : Nat) (source : List Char) (s : Span) (before context after : List Char) :
    Prop where
  parts : source = before ++ (context ++ after)
  front : byteLength before = s.start - margin ∨
    ∃ c rest, context = c :: rest ∧ byteLength before < s.start - margin ∧
      s.start - margin < byteLength before + c.utf8Size
  back : byteLength before + byteLength context = min (s.stop + margin) (byteLength source) ∨
    ∃ rest c, context = rest ++ [c] ∧ byteLength before + byteLength rest < s.stop + margin ∧
      s.stop + margin < byteLength before + byteLength context

namespace Window

variable {margin : Nat} {source before context after : List Char} {s : Span}

theorem covers (h : Window margin source s before context after)
    (inside : s.stop ≤ byteLength source) :
    byteLength before ≤ s.start ∧ s.stop ≤ byteLength before + byteLength context := by
  obtain ⟨-, front, back⟩ := h
  constructor
  · rcases front with here | ⟨-, -, -, lower, -⟩ <;> omega
  · rcases back with here | ⟨-, -, -, -, upper⟩ <;> omega

theorem holds (h : Window margin source s before context after)
    (inside : s.stop ≤ byteLength source) {text : List Char}
    (found : Text.slice? s source = some text) :
    ∃ left right, context = left ++ (text ++ right) ∧
      byteLength before + byteLength left = s.start := by
  obtain ⟨first, last, source_eq, start, stop⟩ := Text.slice?_eq_some_iff.mp found
  obtain ⟨lower, upper⟩ := h.covers inside
  have cuts := h.parts.symm.trans source_eq
  obtain ⟨left, rfl, rest⟩ := Text.eq_append_of_append_eq cuts (by rw [start]; exact lower)
  rw [Text.byteLength_append] at start stop
  have whole : (left ++ text) ++ last = context ++ after := by
    rw [List.append_assoc]
    exact rest.symm
  obtain ⟨right, rfl, -⟩ := Text.eq_append_of_append_eq whole (by
    rw [Text.byteLength_append]
    omega)
  exact ⟨left, right, List.append_assoc _ _ _, start⟩

end Window

theorem contextOf_window {source : List Char} {s : Span} (ordered : s.start ≤ s.stop)
    (inside : s.stop ≤ byteLength source) :
    ∃ before after,
      Window contextMargin source s before (contextOf source s).toList after := by
  have first_inside : s.start - contextMargin ≤ byteLength source := by omega
  obtain ⟨before, rest, cut, start, front⟩ := Text.floorBoundary_cut first_inside
  obtain ⟨upto, after, cut', stop, back⟩ :=
    Text.ceilBoundary_cut source (s.stop + contextMargin)
  have lower : byteLength before ≤ s.start := by
    rw [start]
    exact Nat.le_trans (Text.floorBoundary_le _ _) (Nat.sub_le _ _)
  have upper : s.stop ≤ byteLength upto := by
    rw [stop]
    exact Nat.le_trans (Nat.le_min.mpr ⟨Nat.le_add_right _ _, inside⟩)
      (Text.min_le_ceilBoundary _ _)
  obtain ⟨context, rfl, rfl⟩ := Text.eq_append_of_append_eq (cut.symm.trans cut')
    (Nat.le_trans lower (Nat.le_trans ordered upper))
  rw [Text.byteLength_append] at stop back upper
  have same : (contextOf source s).toList = context := by
    unfold contextOf
    rw [String.toList_ofList]
    exact Text.slice_eq cut start.symm stop.symm
  rw [same]
  refine ⟨before, after, cut, ?_, ?_⟩
  · refine front.imp_right ?_
    rintro ⟨c, more, tail, less, greater⟩
    cases context with
    | nil =>
        rw [Text.byteLength_nil] at upper
        exact absurd less (by clear front back; omega)
    | cons d context =>
        obtain ⟨rfl, -⟩ := List.cons.inj tail
        exact ⟨d, context, rfl, less, greater⟩
  · refine back.imp_right ?_
    rintro ⟨ahead, c, tail, less, greater⟩
    obtain rfl | ⟨rest, d, rfl⟩ := List.eq_nil_or_concat context
    · rw [Text.byteLength_nil] at greater
      exact absurd greater (by clear front back; omega)
    · rw [List.concat_eq_append] at tail greater ⊢
      rw [← List.append_assoc] at tail
      obtain ⟨rfl, last⟩ := List.append_inj' tail rfl
      rw [Text.byteLength_append] at less
      exact ⟨rest, d, rfl, less, greater⟩

/-- A tree counts as faulty exactly where a node of it is, and the faults that are listed are those
of all faulty nodes, each once and in document order. Around a node inside the source the text that
is reported with a fault is a window of it that holds the text of the node. -/
theorem faults_listed (tree : Node) (source : List Char) :
    (∀ n : Node, n.hasFault = true ↔ ∃ m ∈ n.preorder, m.isFaulty = true) ∧
    faults tree source = (tree.preorder.filter Node.isFaulty).map (Node.fault source) ∧
    ∀ n : Node, n.span.start ≤ n.span.stop → n.span.stop ≤ byteLength source →
      ∃ before after,
        Window contextMargin source n.span before (n.fault source).context.toList after ∧
        byteLength before ≤ n.span.start ∧
        n.span.stop ≤ byteLength before + byteLength (n.fault source).context.toList ∧
        ∀ text, Text.slice? n.span source = some text → ∃ left right,
          (n.fault source).context.toList = left ++ (text ++ right) ∧
          byteLength before + byteLength left = n.span.start := by
  refine ⟨fun n => Node.hasFault_iff, faults_eq tree source, ?_⟩
  intro n ordered inside
  obtain ⟨before, after, window⟩ := contextOf_window ordered inside
  obtain ⟨lower, upper⟩ := window.covers inside
  exact ⟨before, after, window, lower, upper, fun text found => window.holds inside found⟩

/-- A source in which the text around its middle begins and ends inside characters of two bytes. -/
def accented : List Char :=
  List.replicate 20 'é' ++ ['x', 'y'] ++ List.replicate 20 'é'

def supplied : Node := .mk (.missing ";") none ⟨41, 41⟩ []

/-- An error with a supplied token inside it, next to a subtree that has no fault. -/
def broken : Node :=
  .mk (.category "program") none ⟨0, 82⟩
    [.mk (.category "identifier") none ⟨0, 40⟩ [], .mk .error none ⟨40, 42⟩ [supplied]]

theorem faults_listed_nested :
    (faults broken accented).map Fault.nodeKind = ["ERROR", ";"] ∧
    supplied.span.start ≤ supplied.span.stop ∧ supplied.span.stop ≤ byteLength accented ∧
    (supplied.fault accented).context.toList
      = List.replicate 15 'é' ++ ['x', 'y'] ++ List.replicate 15 'é' ∧
    ∃ before after,
      Window contextMargin accented supplied.span before
        (supplied.fault accented).context.toList after := by
  obtain ⟨-, listed, context⟩ := faults_listed broken accented
  have ordered : supplied.span.start ≤ supplied.span.stop := by decide
  have inside : supplied.span.stop ≤ byteLength accented := by decide
  obtain ⟨before, after, window, -⟩ := context supplied ordered inside
  exact ⟨by rw [listed]; rfl, ordered, inside, String.toList_ofList.trans (by decide),
    before, after, window⟩

end Restyle.Syntax
