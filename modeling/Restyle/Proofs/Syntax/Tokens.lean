import Restyle.Proofs.Syntax.Leaving
/-!
The tokens of a tree without faults. The reader takes a token only where it has characters, and what
it closes into a node was taken before; so every token of such a tree takes up some bytes of the
source. This holds for every grammar whose tokens take nothing from an empty text.
-/

namespace Restyle.Syntax

open Text (byteLength)

variable {Rule : Type}

/-- A token takes up some of the source. -/
def Node.Extended (n : Node) : Prop := ∀ t, n.kind = .token t → n.span.start < n.span.stop

namespace Pattern

mutual
/-- Whether the tokens of a pattern take nothing from an empty text. -/
def visible : Pattern Rule → Bool
  | token l | attached l => l.scan [] == 0
  | both p q | either p q => p.visible && q.visible
  | many p | node _ p | role _ p | bracketed _ p => p.visible
  | chain p ts | ending p ts => p.visible && visibleTails ts
  | nothing | last _ | rule _ | absent _ | ahead _ | semicolon | sameStatement => true

def visibleTails : List (String × Pattern Rule) → Bool
  | [] => true
  | (_, p) :: ts => p.visible && visibleTails ts
end

end Pattern

namespace Cursor

/-- The tokens below the nodes read so far are extended, but for those below a fault. -/
def Filled (c : Cursor) : Prop := ∀ n ∈ c.stack, n.hasFault = false → n.Everywhere Node.Extended

variable {c d : Cursor}

theorem start_filled (source : List Char) : (start source).Filled := by
  intro n member
  unfold start at member
  split at member <;> cases member

theorem Filled.comment (h : c.Filled) (name : String) (s : Span) :
    (c.push (commentAt name s)).Filled :=
  List.forall_mem_cons.mpr ⟨fun _ => .leaf nofun, h⟩

theorem Filled.take (h : c.Filled) (kind : Kind) {n : Nat} (some_ : n ≠ 0) (more : c.rest ≠ []) :
    (c.take kind n).Filled := by
  have taken : c.rest.take n ≠ [] := by
    rw [Ne, List.take_eq_nil_iff, not_or]
    exact ⟨some_, more⟩
  have positive : 0 < byteLength (c.rest.take n) := by
    rwa [Nat.pos_iff_ne_zero, Ne, Text.byteLength_eq_zero]
  refine List.forall_mem_cons.mpr ⟨fun _ => .leaf fun _ _ => ?_, h⟩
  exact Nat.lt_add_of_pos_right positive

theorem Filled.assign (h : c.Filled) (r : Role) : (c.assign r).Filled := by
  unfold Cursor.assign
  split
  · rename_i n ns stack
    rw [Filled, stack] at h
    obtain ⟨last, others⟩ := List.forall_mem_cons.mp h
    refine List.forall_mem_cons.mpr ⟨fun faultless => ?_, others⟩
    have own := last ((Node.hasFault_withRole r n).symm.trans faultless)
    refine .mk ?_ ?_
    · intro t kind
      rw [Node.kind_withRole] at kind
      rw [Node.span_withRole]
      exact own.here t kind
    · rw [Node.children_withRole]
      exact own.inside
  · exact h

theorem Filled.close (h : c.Filled) (name : String) (height : Nat) :
    (c.close name height).Filled := by
  rw [Filled, stack_parts c height] at h
  refine List.forall_mem_cons.mpr ⟨fun faultless => .mk nofun fun n inside => ?_, fun n below => ?_⟩
  · rw [Node.hasFault_category, Node.anyFault_eq_any, List.any_eq_false] at faultless
    exact h n (List.mem_append_left _ (List.mem_reverse.mpr inside))
      (Bool.eq_false_iff.mpr (faultless n inside))
  · exact h n (List.mem_append_right _ below)

end Cursor

section

open Cursor

variable {g : Grammar Rule} {repairs : List Repair} {size : Nat} {c d : Cursor}

theorem passSkip_filled (h : c.Filled) : (passSkip repairs c).Filled := by
  unfold passSkip
  split
  · exact List.forall_mem_cons.mpr ⟨nofun, h⟩
  · exact h

theorem passTrivia_filled (fuel : Nat) (h : c.Filled) : (passTrivia g repairs fuel c).Filled := by
  induction fuel generalizing c with
  | zero => exact h
  | succ fuel ih =>
      unfold passTrivia
      split
      · exact ih (passSkip_filled h)
      · split
        · exact h
        · split
          · exact ih h
          · split
            · exact h
            · exact ih (Filled.comment h _ _)

theorem readToken_filled {l : Lexeme} (visible : (l.scan [] == 0) = true)
    {before here : Cursor} (filled : before.Filled) (filled' : here.Filled)
    (boundaries : List Boundary) (f : Frontier) :
    Gives Filled (readToken g repairs l boundaries before here f) := by
  unfold readToken
  split
  · exact .none f
  · dsimp only
    split
    · rename_i taken
      have some_ := bne_iff_ne.mp (Bool.and_eq_true_iff.mp taken).1
      refine .some (filled'.take l.kind some_ fun empty => ?_) f
      rw [empty] at some_
      exact some_ (beq_iff_eq.mp visible)
    · split
      · refine .some ?_ f
        exact List.forall_mem_cons.mpr ⟨nofun, filled⟩
      · exact .none _

theorem semicolonPlace?_filled {fuel : Nat} (h : semicolonPlace? g repairs fuel c = some d)
    (filled : c.Filled) : d.Filled := by
  induction fuel generalizing c with
  | zero => cases h
  | succ fuel ih =>
      unfold semicolonPlace? at h
      split at h
      · cases h
      · split at h
        · cases h
          exact filled
        · split at h
          · rename_i next passed
            refine ih h ?_
            unfold passComment? at passed
            dsimp only at passed
            split at passed
            · cases passed
            · cases passed
              exact Filled.comment filled _ _
          · cases h

/-- A reading fills its nodes with extended tokens. The induction is on the fuel, over all three
readers at once. -/
theorem reading_filled (visible : ∀ r, (g.rules r).visible = true) (fuel : Nat) :
    (∀ p boundaries c f, p.visible = true → c.Filled →
      Gives Filled (read g repairs size fuel p boundaries c f)) ∧
    (∀ tails boundaries height c f, Pattern.visibleTails tails = true → c.Filled →
      Gives Filled (grow g repairs size fuel tails boundaries height c f)) ∧
    (∀ tails boundaries height c f, Pattern.visibleTails tails = true → c.Filled →
      Gives Filled (readTail g repairs size fuel tails boundaries height c f)) := by
  induction fuel with
  | zero =>
      refine ⟨?_, ?_, ?_⟩
      · intro p boundaries c f _ _
        simp only [read]
        exact .none f
      · intro tails boundaries height c f _ filled
        simp only [grow]
        exact .some filled f
      · intro tails boundaries height c f _ _
        simp only [readTail]
        exact .none f
  | succ fuel ih =>
      obtain ⟨ihRead, ihGrow, ihTail⟩ := ih
      refine ⟨?_, ?_, ?_⟩
      · intro p boundaries c f seen filled
        have passed : (passTrivia g repairs size c).Filled := passTrivia_filled size filled
        cases p with
        | nothing =>
            simp only [read]
            exact .some filled f
        | last test | ahead test | sameStatement =>
            simp only [read]
            split
            · exact .some filled f
            · exact .none f
        | token l =>
            simp only [read]
            exact readToken_filled seen filled passed boundaries f
        | attached l =>
            simp only [read]
            exact readToken_filled seen filled (passSkip_filled filled) boundaries f
        | both p q =>
            obtain ⟨seen_p, seen_q⟩ := Bool.and_eq_true_iff.mp seen
            simp only [read]
            exact (ihRead p _ c f seen_p filled).andThen fun d f first =>
              ihRead q _ d f seen_q first
        | either p q =>
            obtain ⟨seen_p, seen_q⟩ := Bool.and_eq_true_iff.mp seen
            simp only [read]
            exact (ihRead p _ c f seen_p filled).orElse (fun d f first => .some first f) fun f =>
              ihRead q _ c f seen_q filled
        | many p =>
            simp only [read]
            refine (ihRead p _ c f seen filled).orElse (fun d f first => ?_) fun f =>
              .some filled f
            split
            · exact .some first f
            · exact ihRead p.many _ d f seen first
        | chain head tails =>
            obtain ⟨seen_head, seen_tails⟩ := Bool.and_eq_true_iff.mp seen
            simp only [read]
            exact (ihRead head _ c f seen_head filled).andThen fun d f first =>
              ihGrow tails _ _ d f seen_tails first
        | ending head tails =>
            obtain ⟨seen_head, seen_tails⟩ := Bool.and_eq_true_iff.mp seen
            simp only [read]
            exact (ihRead head _ c f seen_head filled).andThen fun d f first =>
              ihTail tails _ _ d f seen_tails first
        | rule r =>
            simp only [read]
            exact (ihRead (g.rules r) _ c f (visible r) filled).andThen fun d f inner =>
              .some (d := { d.settle with operand := d.operand || g.isOperand r }) inner f
        | node name p =>
            simp only [read]
            exact (ihRead p _ c f seen filled).andThen fun d f inner =>
              .some (inner.close name c.height) f
        | role r p =>
            simp only [read]
            exact (ihRead p _ c f seen filled).andThen fun d f inner => .some (inner.assign r) f
        | absent p =>
            simp only [read]
            split
            · exact .none f
            · exact .some filled f
        | semicolon =>
            have own : Gives Filled (readToken g repairs semicolonLexeme boundaries c
                (passTrivia g repairs size c) f) :=
              readToken_filled rfl filled passed boundaries f
            simp only [read]
            split
            · split
              · rename_i next place
                have filled' := semicolonPlace?_filled place filled
                exact .some (d := { next with operand := false }) filled' f
              · exact own
            · exact own
        | bracketed inside p =>
            simp only [read]
            exact (ihRead p _ { c with bracketed := inside } f seen filled).andThen
              fun d f inner => .some (d := { d with bracketed := c.bracketed }) inner f
      · intro tails boundaries height c f seen filled
        simp only [grow]
        exact (ihTail tails _ height c f seen filled).orElse
          (fun d f first => ihGrow tails _ height d f seen first) fun f => .some filled f
      · intro tails boundaries height c f seen filled
        cases tails with
        | nil =>
            simp only [readTail]
            exact .none f
        | cons tail tails =>
            obtain ⟨seen_first, seen_others⟩ := Bool.and_eq_true_iff.mp seen
            simp only [readTail]
            exact (ihRead tail.2 _ c f seen_first filled).orElse
              (fun d f follows => .some (d := { d.close tail.1 height with operand := c.operand })
                (follows.close tail.1 height) f)
              fun f => ihTail tails _ height c f seen_others filled

theorem parse_extended (visible : ∀ r, (g.rules r).visible = true) {source : List Char}
    (faultless : (parse g source).hasFault = false) :
    ∀ n ∈ (parse g source).children, n.Everywhere Node.Extended := by
  obtain ⟨repairs, reading⟩ := parse_readWith faultless
  generalize parse g source = tree at reading faultless ⊢
  obtain ⟨fuel, c, f, last, first, ended, rfl⟩ := exists_of_readWith reading
  have filled : c.Filled :=
    ((reading_filled visible fuel).1 _ _ _ _ rfl (start_filled source)).of_some first
  have filled : last.Filled := ended ▸ passTrivia_filled _ filled
  rw [Node.hasFault_category, Node.anyFault_reverse, Node.anyFault_eq_any, List.any_eq_false]
    at faultless
  intro n member
  have below := List.mem_reverse.mp member
  exact filled n below (Bool.eq_false_iff.mpr (faultless n below))

end

end Restyle.Syntax
