import Restyle.Proofs.Syntax.Order
/-!
Reading under repairs. Whatever the repairs give up or supply, the reader goes forward: what it
puts on top of the nodes read before lies behind the place where it stood. So its nodes stay in
order, and where it gets stuck it can go back to any boundary and keep what stands before it.
-/

namespace Restyle.Syntax

open Text (byteLength)

variable {Rule : Type} {source : List Char}

namespace Cursor

/-- On top of the nodes that were read at the first cursor, which still cover what they covered,
stand nodes that begin behind it. -/
def Later (c d : Cursor) : Prop :=
  c.offset ≤ d.offset ∧ ∃ above below, d.stack = above ++ below ∧
    below.map Node.span = c.stack.map Node.span ∧ d.height = c.height + above.length ∧
    ∀ n ∈ above, c.offset ≤ n.span.start

variable {c d e : Cursor}

theorem Later.refl (c : Cursor) : Later c c :=
  ⟨Nat.le_refl _, [], c.stack, rfl, rfl, rfl, nofun⟩

theorem Later.trans (h : Later c d) (h' : Later d e) : Later c e := by
  obtain ⟨le, above, below, stack, same, height, behind⟩ := h
  obtain ⟨le', above', below', stack', same', height', behind'⟩ := h'
  rw [stack, List.map_append] at same'
  obtain ⟨upper, lower, rfl, same_upper, same_lower⟩ := List.map_eq_append_iff.mp same'
  refine ⟨Nat.le_trans le le', above' ++ upper, lower, ?_, same_lower.trans same, ?_, ?_⟩
  · rw [stack', List.append_assoc]
  · have length := congrArg List.length same_upper
    rw [List.length_map, List.length_map] at length
    rw [height', height, List.length_append, length, Nat.add_assoc, Nat.add_comm above.length]
  · intro n member
    rcases List.mem_append.mp member with new | old
    · exact Nat.le_trans le (behind' n new)
    · have span : n.span ∈ above.map Node.span := same_upper ▸ List.mem_map_of_mem old
      obtain ⟨m, member', same_span⟩ := List.mem_map.mp span
      rw [← same_span]
      exact behind m member'

theorem Later.advance (h : Later c d) (n : Nat) : Later c (d.advance n) := by
  obtain ⟨le, above, below, stack⟩ := h
  exact ⟨Nat.le_trans le (Nat.le_add_right _ _), above, below, stack⟩

theorem Later.push (h : Later c d) {n : Node} (behind : c.offset ≤ n.span.start) :
    Later c (d.push n) := by
  obtain ⟨le, above, below, stack, same, height, others⟩ := h
  refine ⟨le, n :: above, below, congrArg (n :: ·) stack, same, congrArg (· + 1) height, ?_⟩
  exact List.forall_mem_cons.mpr ⟨behind, others⟩

theorem Later.assign (h : Later c d) (r : Role) : Later c (d.assign r) := by
  unfold Cursor.assign
  split
  · rename_i n ns top
    obtain ⟨le, above, below, stack, same, height, behind⟩ := h
    rw [top] at stack
    cases above with
    | nil =>
        rw [List.nil_append] at stack
        rw [← stack, List.map_cons] at same
        refine ⟨le, [], n.withRole r :: ns, rfl, ?_, height, nofun⟩
        rwa [List.map_cons, Node.span_withRole]
    | cons m above =>
        obtain ⟨rfl, rest⟩ := List.cons.inj stack
        obtain ⟨first, others⟩ := List.forall_mem_cons.mp behind
        refine ⟨le, n.withRole r :: above, below, congrArg (n.withRole r :: ·) rest, same, height,
          ?_⟩
        refine List.forall_mem_cons.mpr ⟨?_, others⟩
        rwa [Node.span_withRole]
  · exact h

theorem Later.close (h : Later c d) (name : String) : Later c (d.close name c.height) := by
  obtain ⟨le, above, below, stack, same, height, behind⟩ := h
  have count : d.height - c.height = above.length := by omega
  unfold Cursor.close
  dsimp only
  rw [count, stack, List.take_left, List.drop_left]
  have parts := List.takeWhile_append_dropWhile (p := isExtra) (l := above.reverse)
  generalize above.reverse.takeWhile isExtra = outside at parts ⊢
  generalize above.reverse.dropWhile isExtra = inside at parts ⊢
  have first : ∀ n ∈ outside ++ inside, c.offset ≤ n.span.start := by
    rw [parts]
    exact fun n member => behind n (List.mem_reverse.mp member)
  refine ⟨le, _ :: outside.reverse, below, rfl, same, ?_, ?_⟩
  · rw [List.length_cons, List.length_reverse]
    rfl
  · refine List.forall_mem_cons.mpr ⟨?_, fun n member =>
      first n (List.mem_append_left _ (List.mem_reverse.mp member))⟩
    cases head : inside.head? with
    | none => exact le
    | some f =>
        have member : f ∈ outside ++ inside := List.mem_append_right _ (List.mem_of_head? head)
        cases inside.getLast? with
        | none => exact le
        | some l => exact first f member

/-- From one cursor to a later one that lies in the source with its nodes in order. -/
structure Onward (source : List Char) (c d : Cursor) : Prop where
  sited : d.Sited source
  later : Later c d

theorem Onward.trans (h : Onward source c d) (h' : Onward source d e) : Onward source c e :=
  ⟨h'.sited, h.later.trans h'.later⟩

theorem Sited.onward (h : c.Sited source) : Onward source c c := ⟨h, Later.refl c⟩

theorem Onward.leaf (h : Onward source c d) (kind : Kind) (n : Nat) :
    Onward source c ((d.advance n).push (.mk kind none ⟨d.offset, (d.advance n).offset⟩ [])) :=
  ⟨h.sited.leaf kind n, (h.later.advance n).push h.later.1⟩

theorem Onward.take (h : Onward source c d) (kind : Kind) (n : Nat) :
    Onward source c (d.take kind n) :=
  ⟨h.sited.take kind n, (h.leaf kind n).later⟩

theorem Onward.assign (h : Onward source c d) (r : Role) : Onward source c (d.assign r) :=
  ⟨h.sited.assign r, h.later.assign r⟩

theorem Onward.close (h : Onward source c d) (name : String) :
    Onward source c (d.close name c.height) :=
  ⟨h.sited.close name c.height, h.later.close name⟩

/-- What a cursor remembers besides its place and its nodes does not matter. -/
theorem Onward.remember (h : Onward source c d) (supply : Supply) (bracketed operand : Bool) :
    Onward source c
      { d with supply := supply, bracketed := bracketed, operand := operand } :=
  ⟨⟨h.sited.ahead, h.sited.laid, h.sited.placed⟩, h.later⟩

theorem Sited.supply (h : c.Sited source) (name : String) :
    Onward source c (c.push (.mk (.missing name) none ⟨c.offset, c.offset⟩ [])) := by
  refine ⟨⟨h.ahead, .cons (Nat.le_refl _) (Nat.le_refl _) h.laid, ?_⟩,
    (Later.refl c).push (Nat.le_refl _)⟩
  exact List.forall_mem_cons.mpr ⟨.leaf ⟨Nat.le_refl _, h.boundary, h.boundary, .nil,
    fun _ none => absurd none List.not_mem_nil⟩, h.placed⟩

end Cursor

/-- What a repair gives up begins where the repair stands or behind it, and is placed as other nodes
are. -/
def Repair.Placed (source : List Char) : Repair → Prop
  | .skip at_ span children =>
    at_ ≤ span.start ∧ (Node.mk .error none span children).Everywhere (Node.Placed source)
  | .supply _ _ => True

variable {g : Grammar Rule} {repairs : List Repair} {size : Nat} {c d : Cursor}

open Cursor

theorem skipAt?_mem {offset : Nat} {span : Span} {children : List Node}
    (h : skipAt? repairs offset = some (span, children)) :
    .skip offset span children ∈ repairs := by
  obtain ⟨r, member, found⟩ := List.exists_of_findSome?_eq_some h
  cases r with
  | skip n s ns =>
      dsimp only at found
      split at found
      · rename_i same
        cases found
        rwa [beq_iff_eq.mp same] at member
      · cases found
  | supply n t => cases found

section

variable (placed : ∀ r ∈ repairs, r.Placed source)

include placed

theorem passSkip_onward (h : c.Sited source) : Onward source c (passSkip repairs c) := by
  unfold passSkip
  split
  · rename_i span children at_
    obtain ⟨behind, error⟩ := placed _ (skipAt?_mem at_)
    have forward : c.offset ≤ span.stop := Nat.le_trans behind error.here.ordered
    obtain ⟨before, parts, bytes⟩ := h.ahead
    obtain ⟨upto, after, parts', stop⟩ := Text.isBoundary_iff.mp error.here.stop
    have stop : byteLength upto = span.stop := stop
    obtain ⟨between, rfl, ahead⟩ := Text.eq_append_of_append_eq (parts.symm.trans parts')
      (by rw [bytes, stop]; exact forward)
    have inside : span.stop - c.offset = byteLength between := by
      rw [← stop, ← bytes, Text.byteLength_append, Nat.add_sub_cancel_left]
    dsimp only
    rw [ahead, inside, Text.splitAtByte?_append]
    refine ⟨⟨⟨before ++ between, parts', stop⟩, ?_, ?_⟩, forward, [_], c.stack, rfl, rfl, rfl, ?_⟩
    · exact .cons (Nat.le_refl _) error.here.ordered (h.laid.mono behind)
    · exact List.forall_mem_cons.mpr ⟨error, h.placed⟩
    · exact List.forall_mem_singleton.mpr behind
  · exact h.onward

theorem passTrivia_onward (fuel : Nat) (h : c.Sited source) :
    Onward source c (passTrivia g repairs fuel c) := by
  induction fuel generalizing c with
  | zero => exact h.onward
  | succ fuel ih =>
      unfold passTrivia
      split
      · have passed := passSkip_onward placed h
        exact passed.trans (ih passed.sited)
      · split
        · exact h.onward
        · split
          · rename_i ch rest ahead _
            rw [← advance_one ahead]
            have passed : Onward source c (c.advance 1) :=
              ⟨h.advance 1, (Later.refl c).advance 1⟩
            exact passed.trans (ih passed.sited)
          · split
            · exact h.onward
            · rename_i name n _
              have passed := h.onward.leaf (.category name) n
              exact passed.trans (ih passed.sited)

end

theorem passComment?_onward (h : c.Sited source) (passed : passComment? g c = some d) :
    Onward source c d := by
  unfold passComment? at passed
  dsimp only at passed
  split at passed
  · cases passed
  · cases passed
    have blanks := (Later.refl c).advance (c.rest.takeWhile g.isBlank).length
    exact Onward.leaf ⟨h.advance _, blanks⟩ (.category "comment") _

theorem semicolonPlace?_onward {fuel : Nat} (h : c.Sited source)
    (place : semicolonPlace? g repairs fuel c = some d) : Onward source c d := by
  induction fuel generalizing c with
  | zero => cases place
  | succ fuel ih =>
      unfold semicolonPlace? at place
      split at place
      · cases place
      · split at place
        · cases place
          exact h.onward
        · split at place
          · rename_i next passed
            have first := passComment?_onward h passed
            exact first.trans (ih first.sited place)
          · cases place

/-- The reader comes to a cursor from the beginning of the source. -/
def Cursor.Reached (source : List Char) (c : Cursor) : Prop := Onward source (start source) c

theorem start_reached (source : List Char) : (start source).Reached source :=
  (start_sited source).onward

theorem Cursor.Reached.behind (h : c.Reached source) :
    ∀ n ∈ c.stack, (start source).offset ≤ n.span.start := by
  obtain ⟨-, -, above, below, stack, same, -, behind⟩ := h
  have bottom : (start source).stack = [] := by
    unfold start
    split <;> rfl
  rw [bottom, List.map_nil, List.map_eq_nil_iff] at same
  rwa [stack, same, List.append_nil]

def Boundary.Before (b : Boundary) (c : Cursor) : Prop :=
  ∃ e : Cursor, e.offset = b.offset ∧ e.height = b.height ∧ Later e c

theorem Boundary.Before.trans {b : Boundary} (h : b.Before c) (later : Later c d) : b.Before d := by
  obtain ⟨e, offset, height, first⟩ := h
  exact ⟨e, offset, height, first.trans later⟩

/-- The nodes and the boundaries of a site are those of a cursor that the reader came to. -/
def Site.Met (source : List Char) (s : Site) : Prop :=
  ∃ c : Cursor, c.Reached source ∧ c.offset = s.offset ∧ c.stack = s.stack ∧
    c.height = s.height ∧ ∀ b ∈ s.boundaries, b.Before c

/-- A frontier lies in the source, and its sites lie before it. -/
structure Frontier.Sound (source : List Char) (f : Frontier) : Prop where
  ahead : f.rest = [] ∨ ∃ c : Cursor, c.Reached source ∧ c.rest = f.rest ∧ c.offset = f.reach
  sites : ∀ s ∈ f.sites, s.Met source ∧ s.offset ≤ f.reach

theorem Frontier.none_sound (source : List Char) : Frontier.none.Sound source :=
  ⟨.inl rfl, fun _ none => absurd none List.not_mem_nil⟩

/-- What a reader is given: a cursor that it came to by the boundaries, and a frontier. -/
structure Ready (source : List Char) (boundaries : List Boundary) (c : Cursor) (f : Frontier) :
    Prop where
  reached : c.Reached source
  passed : ∀ b ∈ boundaries, b.Before c
  frontier : f.Sound source

/-- How a reader answers: it goes on from where it stood, or is stuck. -/
inductive Goes (source : List Char) (c : Cursor) : Option Cursor × Frontier → Prop
  | on {d : Cursor} {f : Frontier} : Onward source c d → f.Sound source → Goes source c (some d, f)
  | stuck {f : Frontier} : f.Sound source → Goes source c (none, f)

section

variable {boundaries : List Boundary} {f f' : Frontier} {answer : Option Cursor × Frontier}

theorem start_ready (source : List Char) : Ready source [] (start source) .none :=
  ⟨start_reached source, fun _ none => absurd none List.not_mem_nil, Frontier.none_sound source⟩

theorem Ready.onward (h : Ready source boundaries c f) (onward : Onward source c d)
    (frontier : f'.Sound source) : Ready source boundaries d f' :=
  ⟨h.reached.trans onward, fun b member => (h.passed b member).trans onward.later, frontier⟩

theorem Ready.mark (h : Ready source boundaries c f) :
    Ready source (⟨c.offset, c.height⟩ :: boundaries) c f :=
  ⟨h.reached, List.forall_mem_cons.mpr ⟨⟨c, rfl, rfl, Later.refl c⟩, h.passed⟩, h.frontier⟩

theorem Ready.note (h : Ready source boundaries c f) (onward : Onward source c d)
    (expected : String) : (f.note expected boundaries c d).Sound source := by
  have here : d.rest = [] ∨ ∃ e : Cursor, e.Reached source ∧ e.rest = d.rest ∧
      e.offset = d.offset := .inr ⟨d, h.reached.trans onward, rfl, rfl⟩
  have met : Site.Met source ⟨expected, c.offset, c.stack, c.height, boundaries⟩ :=
    ⟨c, h.reached, rfl, rfl, rfl, h.passed⟩
  unfold Frontier.note
  dsimp only
  split
  · exact ⟨here, List.forall_mem_singleton.mpr ⟨met, onward.later.1⟩⟩
  · split
    · rename_i same
      refine ⟨h.frontier.ahead, List.forall_mem_cons.mpr ⟨⟨met, ?_⟩, h.frontier.sites⟩⟩
      rw [beq_iff_eq.mp same]
      exact onward.later.1
    · exact h.frontier

theorem Goes.trans (h : Goes source d answer) (onward : Onward source c d) :
    Goes source c answer := by
  cases h with
  | on further frontier => exact .on (onward.trans further) frontier
  | stuck frontier => exact .stuck frontier

theorem Goes.of_some (h : Goes source c answer) (same : answer = (some d, f)) :
    Onward source c d ∧ f.Sound source := by
  subst same
  cases h with
  | on onward frontier => exact ⟨onward, frontier⟩

theorem Goes.of_none (h : Goes source c answer) (same : answer = (none, f)) : f.Sound source := by
  subst same
  cases h with
  | stuck frontier => exact frontier

theorem Goes.orElse {b : Cursor} {next : Cursor → Frontier → Option Cursor × Frontier}
    {other : Frontier → Option Cursor × Frontier} :
    Goes source c answer →
    (∀ d f, Onward source c d → f.Sound source → Goes source b (next d f)) →
    (∀ f, f.Sound source → Goes source b (other f)) →
    Goes source b (match answer with
      | (some d, f) => next d f
      | (none, f) => other f) := by
  intro h later instead
  cases h with
  | on onward frontier => exact later _ _ onward frontier
  | stuck frontier => exact instead _ frontier

theorem Goes.andThen {b : Cursor} {next : Cursor → Frontier → Option Cursor × Frontier} :
    Goes source c answer →
    (∀ d f, Onward source c d → f.Sound source → Goes source b (next d f)) →
    Goes source b (match answer with
      | (some d, f) => next d f
      | (none, f) => (none, f)) :=
  fun h later => h.orElse later fun _ => .stuck

theorem readToken_goes {l : Lexeme} {here : Cursor} (h : Ready source boundaries c f)
    (onward : Onward source c here) :
    Goes source c (readToken g repairs l boundaries c here f) := by
  unfold readToken
  split
  · exact .stuck h.frontier
  · dsimp only
    split
    · exact .on (onward.take _ _) h.frontier
    · split
      · exact .on ((h.reached.sited.supply l.kind.name).remember _ _ _) h.frontier
      · exact .stuck (h.note onward _)

end

section

variable (placed : ∀ r ∈ repairs, r.Placed source)

include placed

/-- The reader goes on or is stuck at a sound frontier. The induction is on the fuel, over all three
readers at once; a chain whose head begins at `b` goes on from there, also where it has grown as
far as `c`, for the nodes of its head may be closed once more. -/
theorem reading_goes (fuel : Nat) :
    (∀ p boundaries c f, Ready source boundaries c f →
      Goes source c (read g repairs size fuel p boundaries c f)) ∧
    (∀ tails boundaries b c f, Ready source boundaries b f → Onward source b c →
      Goes source b (grow g repairs size fuel tails boundaries b.height c f)) ∧
    (∀ tails boundaries b c f, Ready source boundaries c f → Onward source b c →
      Goes source b (readTail g repairs size fuel tails boundaries b.height c f)) := by
  induction fuel with
  | zero =>
      refine ⟨?_, ?_, ?_⟩
      · intro p boundaries c f ready
        simp only [read]
        exact .stuck ready.frontier
      · intro tails boundaries b c f ready onward
        simp only [grow]
        exact .on onward ready.frontier
      · intro tails boundaries b c f ready onward
        simp only [readTail]
        exact .stuck ready.frontier
  | succ fuel ih =>
      obtain ⟨ihRead, ihGrow, ihTail⟩ := ih
      refine ⟨?_, ?_, ?_⟩
      · intro p boundaries c f ready
        have sited := ready.reached.sited
        cases p with
        | nothing =>
            simp only [read]
            exact .on sited.onward ready.frontier
        | token l =>
            simp only [read]
            exact readToken_goes ready (passTrivia_onward placed size sited)
        | attached l =>
            simp only [read]
            exact readToken_goes ready (passSkip_onward placed sited)
        | both p q =>
            simp only [read]
            refine (ihRead _ _ _ _ ready).andThen fun d f onward frontier => ?_
            exact (ihRead _ _ _ _ (ready.onward onward frontier).mark).trans onward
        | either p q =>
            simp only [read]
            exact (ihRead _ _ _ _ ready).orElse (fun d f => .on) fun f frontier =>
              ihRead _ _ _ _ ⟨ready.reached, ready.passed, frontier⟩
        | many p =>
            simp only [read]
            refine (ihRead _ _ _ _ ready.mark).orElse (fun d f onward frontier => ?_) fun f =>
              .on sited.onward
            split
            · exact .on onward frontier
            · exact (ihRead _ _ _ _ (ready.onward onward frontier)).trans onward
        | chain head tails =>
            simp only [read]
            refine (ihRead _ _ _ _ ready).andThen fun d f onward frontier => ?_
            exact ihGrow _ _ _ _ _ ⟨ready.reached, ready.passed, frontier⟩ onward
        | ending head tails =>
            simp only [read]
            refine (ihRead _ _ _ _ ready).andThen fun d f onward frontier => ?_
            exact ihTail _ _ _ _ _ (ready.onward onward frontier).mark onward
        | last test =>
            simp only [read]
            split
            · exact .on sited.onward ready.frontier
            · exact .stuck ready.frontier
        | rule r =>
            simp only [read]
            exact (ihRead _ _ _ _ ready).andThen fun d f onward frontier =>
              .on (onward.remember _ _ _) frontier
        | node name p =>
            simp only [read]
            exact (ihRead _ _ _ _ ready).andThen fun d f onward frontier =>
              .on (onward.close name) frontier
        | role r p =>
            simp only [read]
            exact (ihRead _ _ _ _ ready).andThen fun d f onward frontier =>
              .on (onward.assign r) frontier
        | absent p =>
            simp only [read]
            split
            · exact .stuck ready.frontier
            · exact .on sited.onward ready.frontier
        | ahead test =>
            simp only [read]
            split
            · exact .on sited.onward ready.frontier
            · exact .stuck ready.frontier
        | semicolon =>
            have own : Goes source c (readToken g repairs semicolonLexeme boundaries c
                (passTrivia g repairs size c) f) :=
              readToken_goes ready (passTrivia_onward placed size sited)
            simp only [read]
            split
            · split
              · rename_i place
                have onward := semicolonPlace?_onward sited place
                exact .on (onward.remember _ _ false) ready.frontier
              · exact own
            · exact own
        | sameStatement =>
            simp only [read]
            split
            · exact .on sited.onward ready.frontier
            · exact .stuck ready.frontier
        | bracketed inside p =>
            have opened : Onward source c { c with bracketed := inside } :=
              sited.onward.remember _ _ _
            have inner := (ihRead p _ _ _ (ready.onward opened ready.frontier)).trans opened
            simp only [read]
            exact inner.andThen fun d f onward frontier => .on (onward.remember _ _ _) frontier
      · intro tails boundaries b c f ready onward
        have further := (ready.onward onward ready.frontier).mark
        simp only [grow]
        refine (ihTail _ _ _ _ _ further onward).orElse (fun d f grown frontier => ?_) fun f =>
          .on onward
        exact ihGrow _ _ _ _ _ ⟨ready.reached, ready.passed, frontier⟩ grown
      · intro tails boundaries b c f ready onward
        cases tails with
        | nil =>
            simp only [readTail]
            exact .stuck ready.frontier
        | cons tail tails =>
            simp only [readTail]
            refine (ihRead _ _ _ _ ready).orElse (fun d f follows frontier => ?_) fun f frontier => ?_
            · exact .on (((onward.trans follows).close tail.1).remember _ _ _) frontier
            · exact ihTail _ _ _ _ _ ⟨ready.reached, ready.passed, frontier⟩ onward

theorem readRoot_goes {size fuel : Nat} :
    Goes source (start source) (read g repairs size fuel (.rule g.root) [] (start source) .none) :=
  (reading_goes placed fuel).1 _ _ _ _ (start_ready source)

/-- All nodes of a tree that is read under repairs are placed. -/
theorem readWith_placed {tree : Node} (h : readWith g repairs source = .ok tree) :
    tree.Everywhere (Node.Placed source) := by
  obtain ⟨fuel, c, f, last, reading, ended, rfl⟩ := exists_of_readWith h
  obtain ⟨onward, -⟩ := (readRoot_goes placed).of_some reading
  have reached : last.Reached source :=
    ended ▸ onward.trans (passTrivia_onward placed _ onward.sited)
  obtain ⟨apart, bounds⟩ := reached.sited.laid.pairwise
  refine .mk ⟨reached.later.1, (start_sited source).boundary, reached.sited.boundary, apart, ?_⟩
    fun n member => reached.sited.placed n (List.mem_reverse.mp member)
  intro n member
  have member := List.mem_reverse.mp member
  exact ⟨reached.behind n member, (bounds n member).2⟩

/-- Where the reader does not come to the end, its frontier is sound. -/
theorem readWith_sound {f : Frontier} (h : readWith g repairs source = .error f) :
    f.Sound source := by
  unfold readWith at h
  dsimp only at h
  split at h
  · rename_i c f' reading
    obtain ⟨onward, frontier⟩ := (readRoot_goes placed).of_some reading
    split at h
    · cases h
    · cases h
      have ended := ((start_ready source).onward onward frontier).mark
      exact ended.note (passTrivia_onward placed _ onward.sited) "end"
  · rename_i f' reading
    cases h
    exact (readRoot_goes placed).of_none reading

end

end Restyle.Syntax
