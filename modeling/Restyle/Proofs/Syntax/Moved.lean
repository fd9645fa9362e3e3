import Restyle.Proofs.Syntax.Answers
import Restyle.Proofs.Syntax.Leaving
/-!
Reading at another place. Without repairs the reader looks at the text ahead of it and at nothing
that it has read. So behind other nodes and at another offset it leaves the same nodes, moved; and
what begins with a token is read the same with blanks and comments before it, which stay outside of
its nodes.
-/

namespace Restyle.Syntax

open Text (byteLength)

variable {Rule : Type}

namespace Node

mutual
def moved (k : Nat) : Node → Node
  | mk kind r s cs => mk kind r ⟨s.start + k, s.stop + k⟩ (movedAll k cs)

def movedAll (k : Nat) : List Node → List Node
  | [] => []
  | n :: ns => n.moved k :: movedAll k ns
end

variable (k : Nat)

theorem movedAll_eq_map (ns : List Node) : movedAll k ns = ns.map (moved k) := by
  induction ns with
  | nil => rfl
  | cons n ns ih => rw [movedAll, ih, List.map_cons]

@[simp] theorem kind_moved (n : Node) : (n.moved k).kind = n.kind := by
  cases n
  rfl

@[simp] theorem span_moved (n : Node) :
    (n.moved k).span = ⟨n.span.start + k, n.span.stop + k⟩ := by
  cases n
  rfl

@[simp] theorem children_moved (n : Node) : (n.moved k).children = n.children.map (moved k) := by
  cases n
  exact movedAll_eq_map k _

@[simp] theorem is_moved (name : String) (n : Node) : (n.moved k).is name = n.is name := by
  rw [Node.is, kind_moved, Node.is]

@[simp] theorem isExtra_moved (n : Node) :
    Cursor.isExtra (n.moved k) = Cursor.isExtra n := by
  simp only [Cursor.isExtra, isComment, is_moved, isError, kind_moved]

@[simp] theorem isNamed_moved (n : Node) : (n.moved k).isNamed = n.isNamed := by
  rw [Node.isNamed, kind_moved, Node.isNamed]

theorem namedChildren_moved (n : Node) :
    (n.moved k).namedChildren = n.namedChildren.map (moved k) := by
  have same : isNamed ∘ moved k = isNamed := funext (isNamed_moved k)
  rw [namedChildren, children_moved, List.filter_map, same, namedChildren]

theorem childOf?_moved (name : String) (n : Node) :
    (n.moved k).childOf? name = (n.childOf? name).map (moved k) := by
  have same : Node.is name ∘ moved k = Node.is name := funext (is_moved k name)
  rw [childOf?, children_moved, List.find?_map, same, childOf?]

end Node

theorem insideOf_map_moved (k : Nat) (ns : List Node) :
    insideOf (ns.map (Node.moved k)) = (insideOf ns).map (Node.moved k) := by
  have same : Cursor.isExtra ∘ Node.moved k = Cursor.isExtra := funext (Node.isExtra_moved k)
  rw [insideOf, ← List.map_reverse, List.dropWhile_map, same, insideOf]

theorem outsideOf_map_moved (k : Nat) (ns : List Node) :
    outsideOf (ns.map (Node.moved k)) = (outsideOf ns).map (Node.moved k) := by
  have same : Cursor.isExtra ∘ Node.moved k = Cursor.isExtra := funext (Node.isExtra_moved k)
  rw [outsideOf, ← List.map_reverse, List.takeWhile_map, same, ← List.map_reverse, outsideOf]

/-- Extras before the nodes that are closed go to those that stay outside. -/
theorem insideOf_append_extras {xs : List Node} (extras : ∀ x ∈ xs, Cursor.isExtra x = true)
    (ns : List Node) : insideOf (ns ++ xs) = insideOf ns := by
  rw [insideOf, List.reverse_append,
    List.dropWhile_append_of_pos fun x member => extras x (List.mem_reverse.mp member), insideOf]

theorem outsideOf_append_extras {xs : List Node} (extras : ∀ x ∈ xs, Cursor.isExtra x = true)
    (ns : List Node) : outsideOf (ns ++ xs) = outsideOf ns ++ xs := by
  rw [outsideOf, List.reverse_append,
    List.takeWhile_append_of_pos fun x member => extras x (List.mem_reverse.mp member),
    List.reverse_append, List.reverse_reverse, outsideOf]

/-- The span of a node over some nodes, an empty one where there are none. -/
def spanOver (offset : Nat) (ns : List Node) : Span :=
  match ns.head?, ns.getLast? with
  | some first, some last => ⟨first.span.start, last.span.stop⟩
  | _, _ => ⟨offset, offset⟩

theorem spanOver_map_moved (k offset : Nat) (ns : List Node) :
    spanOver (offset + k) (ns.map (Node.moved k)) =
      ⟨(spanOver offset ns).start + k, (spanOver offset ns).stop + k⟩ := by
  unfold spanOver
  rw [List.head?_map, List.getLast?_map]
  cases ns.head? with
  | none => rfl
  | some first =>
      cases ns.getLast? with
      | none => rfl
      | some last => simp

namespace Cursor

def moved (k : Nat) (before : List Node) (c : Cursor) : Cursor :=
  { c with
    offset := c.offset + k
    stack := c.stack.map (Node.moved k) ++ before
    height := c.height + before.length }

/-- The height is that of the stack. -/
def Counted (c : Cursor) : Prop := c.height = c.stack.length

variable {k : Nat} {before : List Node} {c : Cursor}

theorem advance_moved (n : Nat) : (c.moved k before).advance n = (c.advance n).moved k before := by
  simp only [moved, advance, Nat.add_right_comm]

theorem push_moved (n : Node) :
    (c.moved k before).push (n.moved k) = (c.push n).moved k before := by
  simp only [moved, push, List.map_cons, List.cons_append, Nat.add_right_comm]

theorem take_moved (kind : Kind) (n : Nat) :
    (c.moved k before).take kind n = (c.take kind n).moved k before := by
  have leaf : Node.mk kind none ⟨c.offset + k, (c.advance n).offset + k⟩ [] =
      (Node.mk kind none ⟨c.offset, (c.advance n).offset⟩ []).moved k := rfl
  unfold take
  rw [advance_moved]
  dsimp only
  change { ((c.advance n).moved k before).push
    (.mk kind none ⟨c.offset + k, (c.advance n).offset + k⟩ []) with
      supply := .none, operand := false } = _
  rw [leaf, push_moved]
  rfl

theorem plain_moved (rest : List Char) (o k : Nat) (st before : List Node) :
    (plain rest o st).moved k before = .plain rest (o + k) (st.map (Node.moved k) ++ before) := by
  simp [moved, amid]

theorem Counted.push (h : c.Counted) (n : Node) : (c.push n).Counted := congrArg (· + 1) h

theorem Counted.take (h : c.Counted) (kind : Kind) (n : Nat) : (c.take kind n).Counted :=
  congrArg (· + 1) h

theorem close_eq {ns below : List Node} {height : Nat} (stack : c.stack = ns ++ below)
    (count : c.height = height + ns.length) (name : String) :
    c.close name height = { c.settle with
      stack := .mk (.category name) none (spanOver c.offset (insideOf ns)) (insideOf ns) ::
        (outsideOf ns ++ below)
      height := height + (outsideOf ns).length + 1 } := by
  have parts : c.height - height = ns.length := by rw [count, Nat.add_sub_cancel_left]
  unfold close
  rw [parts, stack, List.take_left, List.drop_left, outsideOf, List.length_reverse]
  rfl

/-- The nodes above a height, and those below. -/
theorem Counted.parts (h : c.Counted) {height : Nat} (le : height ≤ c.height) :
    ∃ ns below, c.stack = ns ++ below ∧ c.height = height + ns.length ∧
      below.length = height := by
  refine ⟨c.stack.take (c.height - height), c.stack.drop (c.height - height),
    (List.take_append_drop _ _).symm, ?_, ?_⟩
  · rw [List.length_take, ← h]
    omega
  · rw [List.length_drop, ← h]
    omega

theorem Counted.close (h : c.Counted) {height : Nat} (le : height ≤ c.height) (name : String) :
    (c.close name height).Counted ∧ height ≤ (c.close name height).height := by
  obtain ⟨ns, below, stack, count, length⟩ := h.parts le
  rw [close_eq stack count]
  refine ⟨?_, ?_⟩
  · simp only [Counted, List.length_cons, List.length_append, length]
    omega
  · dsimp only
    omega

theorem close_moved (h : c.Counted) {height : Nat} (le : height ≤ c.height) (name : String) :
    (c.moved k before).close name (height + before.length) =
      (c.close name height).moved k before := by
  obtain ⟨ns, below, stack, count, length⟩ := h.parts le
  have stack' : (c.moved k before).stack =
      ns.map (Node.moved k) ++ (below.map (Node.moved k) ++ before) := by
    rw [← List.append_assoc, ← List.map_append, ← stack]
    rfl
  have count' : (c.moved k before).height =
      height + before.length + (ns.map (Node.moved k)).length := by
    rw [List.length_map, Nat.add_right_comm, ← count]
    rfl
  rw [close_eq stack count, close_eq stack' count', insideOf_map_moved, outsideOf_map_moved]
  have span := spanOver_map_moved k c.offset (insideOf ns)
  simp only [moved, settle, List.map_cons, List.map_append, List.cons_append, List.append_assoc,
    List.length_map, Node.moved, Node.movedAll_eq_map, span, Nat.add_right_comm]
  rfl

/-- Extras that stand below all nodes read stay outside, so it is one whether the nodes behind them
are closed or those and the extras. -/
theorem close_moved_extras (h : c.Counted) {xs : List Node}
    (extras : ∀ x ∈ xs, isExtra x = true) (name : String) :
    (c.moved k (xs ++ before)).close name before.length =
      (c.close name 0).moved k (xs ++ before) := by
  have stack' : (c.moved k (xs ++ before)).stack =
      (c.stack.map (Node.moved k) ++ xs) ++ before := by
    rw [List.append_assoc]
    rfl
  have count' : (c.moved k (xs ++ before)).height =
      before.length + (c.stack.map (Node.moved k) ++ xs).length := by
    rw [List.length_append, List.length_map, ← h]
    simp only [moved, List.length_append]
    omega
  have stack : c.stack = c.stack ++ [] := (List.append_nil _).symm
  have count : c.height = 0 + c.stack.length := by rw [Nat.zero_add, h]
  rw [close_eq stack count, close_eq stack' count', insideOf_append_extras extras,
    outsideOf_append_extras extras, insideOf_map_moved, outsideOf_map_moved]
  have span := spanOver_map_moved k c.offset (insideOf c.stack)
  have height : before.length + ((outsideOf c.stack).map (Node.moved k) ++ xs).length + 1 =
      0 + (outsideOf c.stack).length + 1 + (xs ++ before).length := by
    simp only [List.length_append, List.length_map]
    omega
  rw [height]
  simp only [moved, settle, List.map_cons, List.cons_append, List.append_assoc, List.append_nil,
    Node.moved, Node.movedAll_eq_map, span]
  rfl

end Cursor

namespace Pattern

mutual
/-- Whether a pattern looks at the text ahead only. -/
def steady : Pattern Rule → Bool
  | nothing | token _ | attached _ | rule _ | ahead _ => true
  | both p q | either p q => p.steady && q.steady
  | many p | node _ p | absent p | bracketed _ p => p.steady
  | chain p ts | ending p ts => p.steady && steadyTails ts
  | last _ | role _ _ | semicolon | sameStatement => false

def steadyTails : List (String × Pattern Rule) → Bool
  | [] => true
  | (_, p) :: ts => p.steady && steadyTails ts
end

end Pattern

/-- Two readings of which the second gives what the first gives, moved behind other nodes; and the
first keeps the nodes below a height. -/
inductive Carried (k : Nat) (before : List Node) (low : Nat) :
    Option Cursor × Frontier → Option Cursor × Frontier → Prop
  | none (f f' : Frontier) : Carried k before low (none, f) (none, f')
  | some {d : Cursor} (counted : d.Counted) (le : low ≤ d.height) (f f' : Frontier) :
      Carried k before low (some d, f) (some (d.moved k before), f')

section

variable {g : Grammar Rule} {size k : Nat} {before : List Node}

namespace Carried

variable {low low' : Nat} {r r' : Option Cursor × Frontier}

theorem mono (h : Carried k before low r r') (le : low' ≤ low) : Carried k before low' r r' := by
  cases h with
  | none f f' => exact .none f f'
  | some counted above f f' => exact .some counted (Nat.le_trans le above) f f'

theorem orElse {next next' : Cursor → Frontier → Option Cursor × Frontier}
    {other other' : Frontier → Option Cursor × Frontier} :
    Carried k before low r r' →
    (∀ d f f', d.Counted → low ≤ d.height →
      Carried k before low' (next d f) (next' (d.moved k before) f')) →
    (∀ f f', Carried k before low' (other f) (other' f')) →
    Carried k before low'
      (match r with
        | (Option.some d, f) => next d f
        | (Option.none, f) => other f)
      (match r' with
        | (Option.some d, f) => next' d f
        | (Option.none, f) => other' f) := by
  intro h later instead
  cases h with
  | none f f' => exact instead f f'
  | some counted above f f' => exact later _ f f' counted above

theorem andThen {next next' : Cursor → Frontier → Option Cursor × Frontier} :
    Carried k before low r r' →
    (∀ d f f', d.Counted → low ≤ d.height →
      Carried k before low' (next d f) (next' (d.moved k before) f')) →
    Carried k before low'
      (match r with
        | (Option.some d, f) => next d f
        | (Option.none, f) => (Option.none, f))
      (match r' with
        | (Option.some d, f) => next' d f
        | (Option.none, f) => (Option.none, f)) :=
  fun h later => h.orElse later .none

theorem fst (h : Carried k before low r r') : r'.1 = r.1.map (Cursor.moved k before) := by
  cases h with
  | none f f' => rfl
  | some counted above f f' => rfl

end Carried

theorem passTrivia_moved (fuel : Nat) (c : Cursor) :
    passTrivia g [] fuel (c.moved k before) = (passTrivia g [] fuel c).moved k before := by
  induction fuel generalizing c with
  | zero => rfl
  | succ fuel ih =>
      unfold passTrivia
      simp only [skipAt?, List.findSome?_nil]
      have ahead : (c.moved k before).rest = c.rest := rfl
      rw [ahead]
      cases c.rest with
      | nil => rfl
      | cons ch rest =>
          dsimp only
          by_cases blank : g.isBlank ch = true
          · rw [if_pos blank, if_pos blank, ← ih]
            simp only [Cursor.moved, Nat.add_right_comm]
          · rw [if_neg blank, if_neg blank]
            have same : commentAhead? g (c.moved k before) = commentAhead? g c := rfl
            rw [same]
            cases commentAhead? g c with
            | none => rfl
            | some found =>
                dsimp only
                rw [← ih, ← Cursor.push_moved, Node.moved, Cursor.advance_moved]
                rfl

theorem passTrivia_counted (fuel : Nat) {c : Cursor} (counted : c.Counted) :
    (passTrivia g [] fuel c).Counted ∧ c.height ≤ (passTrivia g [] fuel c).height := by
  induction fuel generalizing c with
  | zero => exact ⟨counted, Nat.le_refl _⟩
  | succ fuel ih =>
      unfold passTrivia
      simp only [skipAt?, List.findSome?_nil]
      cases c.rest with
      | nil => exact ⟨counted, Nat.le_refl _⟩
      | cons ch rest =>
          dsimp only
          by_cases blank : g.isBlank ch = true
          · rw [if_pos blank]
            exact ih (c := { c with rest := rest, offset := c.offset + ch.utf8Size }) counted
          · rw [if_neg blank]
            cases commentAhead? g c with
            | none => exact ⟨counted, Nat.le_refl _⟩
            | some found =>
                obtain ⟨counted', le⟩ := ih (Cursor.Counted.push (c := c.advance found.2) counted
                  (.mk (.category found.1) none ⟨c.offset, (c.advance found.2).offset⟩ []))
                exact ⟨counted', Nat.le_trans (Nat.le_succ _) le⟩

/-- A token depends on the text at its place, and on nothing that stands before but whether one was
supplied there. -/
theorem readToken_carried (l : Lexeme) {start start' here : Cursor} {low : Nat}
    (supply : start'.supply = start.supply) (counted : here.Counted) (le : low ≤ here.height)
    (boundaries boundaries' : List Boundary) (f f' : Frontier) :
    Carried k before low (readToken g [] l boundaries start here f)
      (readToken g [] l boundaries' start' (here.moved k before) f') := by
  have ahead : (here.moved k before).rest = here.rest := rfl
  unfold readToken
  rw [supply, ahead]
  by_cases opened : (start.supply == .opened) = true
  · rw [if_pos opened, if_pos opened]
    exact .none f f'
  · rw [if_neg opened, if_neg opened]
    by_cases stands : l.scan here.rest = 0
    · simp only [stands, suppliedAt, List.any_nil, Bool.and_false, bne_self_eq_false,
        Bool.false_and, Bool.false_eq_true, if_false]
      exact .none _ _
    · simp only [fitsBehindSkip, skipAt?, List.findSome?_nil, Option.isNone_none, Bool.true_or,
        Bool.and_true, bne_iff_ne, ne_eq, stands, not_false_eq_true, if_true,
        Cursor.take_moved]
      exact .some (counted.take _ _) (Nat.le_succ_of_le le) f f'

/-- To close nodes from a height behind other nodes is to close them without those, moved. -/
def Closes (k : Nat) (before : List Node) (height height' : Nat) : Prop :=
  ∀ (d : Cursor) (name : String), d.Counted → height ≤ d.height →
    (d.moved k before).close name height' = (d.close name height).moved k before

theorem closes_moved (c : Cursor) : Closes k before c.height (c.moved k before).height :=
  fun _ name counted le => Cursor.close_moved counted le name

/-- Behind other nodes the reader gives what it gives without them, moved. The induction is on the
fuel, over all three readers at once. -/
theorem reading_moved (steady : ∀ r, (g.rules r).steady = true) (fuel : Nat) :
    (∀ p c boundaries boundaries' f f', p.steady = true → c.Counted →
      Carried k before c.height (read g [] size fuel p boundaries c f)
        (read g [] size fuel p boundaries' (c.moved k before) f')) ∧
    (∀ tails height height' c boundaries boundaries' f f', Pattern.steadyTails tails = true →
      Closes k before height height' → c.Counted → height ≤ c.height →
      Carried k before height (grow g [] size fuel tails boundaries height c f)
        (grow g [] size fuel tails boundaries' height' (c.moved k before) f')) ∧
    (∀ tails height height' c boundaries boundaries' f f', Pattern.steadyTails tails = true →
      Closes k before height height' → c.Counted → height ≤ c.height →
      Carried k before height (readTail g [] size fuel tails boundaries height c f)
        (readTail g [] size fuel tails boundaries' height' (c.moved k before) f')) := by
  induction fuel with
  | zero =>
      refine ⟨?_, ?_, ?_⟩
      · intro p c boundaries boundaries' f f' _ _
        exact .none f f'
      · intro tails height height' c boundaries boundaries' f f' _ _ counted le
        exact .some counted le f f'
      · intro tails height height' c boundaries boundaries' f f' _ _ _ _
        exact .none f f'
  | succ fuel ih =>
      obtain ⟨ihRead, ihGrow, ihTail⟩ := ih
      refine ⟨?_, ?_, ?_⟩
      · intro p c boundaries boundaries' f f' own counted
        have supply : (c.moved k before).supply = c.supply := rfl
        cases p with
        | nothing => exact .some counted (Nat.le_refl _) f f'
        | token l =>
            obtain ⟨counted', le⟩ := passTrivia_counted (g := g) size counted
            simp only [read, passTrivia_moved]
            exact readToken_carried l supply counted' le boundaries boundaries' f f'
        | attached l =>
            simp only [read]
            exact readToken_carried l supply counted (Nat.le_refl _) boundaries boundaries' f f'
        | both p q =>
            rw [Pattern.steady, Bool.and_eq_true] at own
            simp only [read]
            refine (ihRead p c _ _ f f' own.1 counted).andThen fun d f f' counted' le => ?_
            exact (ihRead q d _ _ f f' own.2 counted').mono le
        | either p q =>
            rw [Pattern.steady, Bool.and_eq_true] at own
            simp only [read]
            exact (ihRead p c _ _ f f' own.1 counted).orElse
              (fun d f f' counted' le => .some counted' le f f')
              fun f f' => ihRead q c _ _ f f' own.2 counted
        | many p =>
            have goes := fun d => ihRead (.many p) d
            rw [Pattern.steady] at own
            simp only [read]
            refine (ihRead p c _ _ f f' own counted).orElse (fun d f f' counted' le => ?_)
              fun f f' => .some counted (Nat.le_refl _) f f'
            have progress : ((d.moved k before).offset == (c.moved k before).offset &&
                (d.moved k before).height == (c.moved k before).height) =
                  (d.offset == c.offset && d.height == c.height) := by
              rw [Bool.eq_iff_iff]
              simp [Cursor.moved]
            rw [progress]
            split
            · exact .some counted' le f f'
            · exact (goes d _ _ f f' own counted').mono le
        | chain head tails =>
            rw [Pattern.steady, Bool.and_eq_true] at own
            simp only [read]
            refine (ihRead head c _ _ f f' own.1 counted).andThen fun d f f' counted' le => ?_
            exact ihGrow tails _ _ d _ _ f f' own.2 (closes_moved c) counted' le
        | ending head tails =>
            rw [Pattern.steady, Bool.and_eq_true] at own
            simp only [read]
            refine (ihRead head c _ _ f f' own.1 counted).andThen fun d f f' counted' le => ?_
            exact ihTail tails _ _ d _ _ f f' own.2 (closes_moved c) counted' le
        | rule r =>
            simp only [read]
            refine (ihRead (g.rules r) c _ _ f f' (steady r) counted).andThen
              fun d f f' counted' le => ?_
            exact .some (d := { d.settle with operand := d.operand || g.isOperand r })
              counted' le f f'
        | node name p =>
            rw [Pattern.steady] at own
            simp only [read]
            refine (ihRead p c _ _ f f' own counted).andThen fun d f f' counted' le => ?_
            obtain ⟨counted'', le'⟩ := counted'.close le name
            rw [closes_moved c d name counted' le]
            exact .some counted'' le' f f'
        | absent p =>
            rw [Pattern.steady] at own
            simp only [read]
            exact (ihRead p c _ _ .none .none own counted).orElse (fun _ _ _ _ _ => .none f f')
              fun _ _ => .some counted (Nat.le_refl _) f f'
        | ahead test =>
            have same : (passTrivia g [] size (c.moved k before)).rest =
                (passTrivia g [] size c).rest := by rw [passTrivia_moved]; rfl
            simp only [read, same]
            split
            · exact .some counted (Nat.le_refl _) f f'
            · exact .none f f'
        | bracketed inside p =>
            rw [Pattern.steady] at own
            simp only [read]
            refine (ihRead p { c with bracketed := inside } _ _ f f' own counted).andThen
              fun d f f' counted' le => ?_
            exact .some (d := { d with bracketed := c.bracketed }) counted' le f f'
        | last test | role r p | semicolon | sameStatement => cases own
      · intro tails height height' c boundaries boundaries' f f' own closes counted le
        simp only [grow]
        exact (ihTail tails height height' c _ _ f f' own closes counted le).orElse
          (fun d f f' counted' le' => ihGrow tails height height' d _ _ f f' own closes counted' le')
          fun f f' => .some counted le f f'
      · intro tails height height' c boundaries boundaries' f f' own closes counted le
        cases tails with
        | nil => exact .none f f'
        | cons t tails =>
            rw [Pattern.steadyTails, Bool.and_eq_true] at own
            simp only [readTail]
            refine (ihRead t.2 c _ _ f f' own.1 counted).orElse (fun d f f' counted' le' => ?_)
              fun f f' => ihTail tails height height' c _ _ f f' own.2 closes counted le
            have above := Nat.le_trans le le'
            obtain ⟨counted'', le''⟩ := counted'.close above t.1
            rw [closes d t.1 counted' above]
            exact .some (d := { d.close t.1 height with operand := c.operand }) counted'' le'' f f'

end

end Restyle.Syntax
