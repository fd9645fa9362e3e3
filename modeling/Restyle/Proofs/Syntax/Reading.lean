import Restyle.Proofs.Syntax.Attempts
/-!
What was read. A reading of a pattern is a derivation that says which parts of the pattern were
taken from where to where, without the fuel, the frontier and the repairs of the reader, and without what
the reader looked at ahead. A reading that leaves no fault has given up and supplied nothing, so a
tree without faults has a derivation.
-/

namespace Restyle.Syntax

variable {Rule : Type}

namespace Node

theorem anyFault_eq_any (ns : List Node) : anyFault ns = ns.any hasFault := by
  induction ns with
  | nil => rfl
  | cons n ns ih => rw [anyFault, List.any_cons, ih]

theorem anyFault_append (ms ns : List Node) :
    anyFault (ms ++ ns) = (anyFault ms || anyFault ns) := by
  simp only [anyFault_eq_any, List.any_append]

theorem anyFault_reverse (ns : List Node) : anyFault ns.reverse = anyFault ns := by
  simp only [anyFault_eq_any, List.any_reverse]

theorem hasFault_category (name : String) (r : Option Role) (s : Span) (cs : List Node) :
    (mk (.category name) r s cs).hasFault = anyFault cs := rfl

theorem hasFault_withRole (r : Role) (n : Node) : (n.withRole r).hasFault = n.hasFault := by
  cases n
  rfl

end Node

/-- A comment as it stands in a tree. -/
def commentAt (name : String) (s : Span) : Node := .mk (.category name) none s []

/-- From one cursor to another characters and comments are passed over. -/
inductive Passes : Cursor → Cursor → Prop
  | refl (c : Cursor) : Passes c c
  | skip {c d : Cursor} (n : Nat) : Passes (c.advance n) d → Passes c d
  | comment {c d : Cursor} {name : String} (category : name ∈ commentCategories) (n : Nat) :
      Passes ((c.advance n).push (commentAt name ⟨c.offset, (c.advance n).offset⟩)) d →
        Passes c d

/-- `Reads g p c d`: read from `c` the pattern `p` ends at `d`. -/
inductive Reads (g : Grammar Rule) : Pattern Rule → Cursor → Cursor → Prop
  | nothing (c : Cursor) : Reads g .nothing c c
  | token {c d : Cursor} (l : Lexeme) (n : Nat) (trivia : Passes c d) :
      Reads g (.token l) c (d.take l.kind n)
  | attached (c : Cursor) (l : Lexeme) (n : Nat) : Reads g (.attached l) c (c.take l.kind n)
  | both {p q : Pattern Rule} {c d e : Cursor} (first : Reads g p c d) (second : Reads g q d e) :
      Reads g (.both p q) c e
  | left {p : Pattern Rule} {c d : Cursor} (q : Pattern Rule) (one : Reads g p c d) :
      Reads g (.either p q) c d
  | right {q : Pattern Rule} {c d : Cursor} (p : Pattern Rule) (other : Reads g q c d) :
      Reads g (.either p q) c d
  | done (p : Pattern Rule) (c : Cursor) : Reads g (.many p) c c
  | more {p : Pattern Rule} {c d e : Cursor} (first : Reads g p c d)
      (later : Reads g (.many p) d e) : Reads g (.many p) c e
  | head {h : Pattern Rule} {c d : Cursor} (tails : List (String × Pattern Rule))
      (first : Reads g h c d) : Reads g (.chain h tails) c d
  | grown {h p : Pattern Rule} {tails : List (String × Pattern Rule)} {name : String}
      {c d e : Cursor} (grows : Reads g (.chain h tails) c d) (tail : (name, p) ∈ tails)
      (follows : Reads g p d e) :
      Reads g (.chain h tails) c { e.close name c.height with operand := d.operand }
  | ending {h p : Pattern Rule} {tails : List (String × Pattern Rule)} {name : String}
      {c d e : Cursor} (first : Reads g h c d) (tail : (name, p) ∈ tails)
      (follows : Reads g p d e) :
      Reads g (.ending h tails) c { e.close name c.height with operand := d.operand }
  | last {c : Cursor} {test : Node → Bool} (passed : c.stack.head?.any test = true) :
      Reads g (.last test) c c
  | rule {r : Rule} {c d : Cursor} (inner : Reads g (g.rules r) c d) :
      Reads g (.rule r) c { d.settle with operand := d.operand || g.isOperand r }
  | node {p : Pattern Rule} {c d : Cursor} (name : String) (inner : Reads g p c d) :
      Reads g (.node name p) c (d.close name c.height)
  | role {p : Pattern Rule} {c d : Cursor} (r : Role) (inner : Reads g p c d) :
      Reads g (.role r p) c (d.assign r)
  | absent (p : Pattern Rule) (c : Cursor) : Reads g (.absent p) c c
  | ahead (test : List Char → Bool) (c : Cursor) : Reads g (.ahead test) c c
  | understood {c d : Cursor} (place : Passes c d) :
      Reads g .semicolon c { d with operand := false }
  | semicolon {c d : Cursor} (n : Nat) (trivia : Passes c d) :
      Reads g .semicolon c (d.take semicolonLexeme.kind n)
  | sameStatement (c : Cursor) : Reads g .sameStatement c c
  | bracketed {p : Pattern Rule} {c d : Cursor} (inside : Bool)
      (inner : Reads g p { c with bracketed := inside } d) :
      Reads g (.bracketed inside p) c { d with bracketed := c.bracketed }

/-- How a reader answers: it stops, or comes to a cursor of which `P` holds. -/
inductive Gives (P : Cursor → Prop) : Option Cursor × Frontier → Prop
  | some {d : Cursor} (comes : P d) (f : Frontier) : Gives P (some d, f)
  | none (f : Frontier) : Gives P (none, f)

namespace Gives

variable {P Q : Cursor → Prop} {answer : Option Cursor × Frontier}

theorem of_some {d : Cursor} {f : Frontier} (h : Gives P answer) (same : answer = (Option.some d, f)) :
    P d := by
  subst same
  cases h with
  | some comes => exact comes

theorem mono (h : Gives P answer) (weaker : ∀ d, P d → Q d) : Gives Q answer := by
  cases h with
  | some comes f => exact .some (weaker _ comes) f
  | none f => exact .none f

theorem orElse {next : Cursor → Frontier → Option Cursor × Frontier}
    {other : Frontier → Option Cursor × Frontier} :
    Gives P answer → (∀ d f, P d → Gives Q (next d f)) → (∀ f, Gives Q (other f)) →
    Gives Q (match answer with
      | (Option.some d, f) => next d f
      | (Option.none, f) => other f) := by
  intro h later instead
  cases h with
  | some comes f => exact later _ f comes
  | none f => exact instead f

theorem andThen {next : Cursor → Frontier → Option Cursor × Frontier} :
    Gives P answer → (∀ d f, P d → Gives Q (next d f)) →
    Gives Q (match answer with
      | (Option.some d, f) => next d f
      | (Option.none, f) => (Option.none, f)) :=
  fun h later => h.orElse later .none

end Gives

namespace Cursor

/-- There is no fault among the nodes read so far. -/
def Clean (c : Cursor) : Prop := Node.anyFault c.stack = false

theorem clean_push {c : Cursor} {n : Node} {ns : List Node} (h : c.Clean)
    (stack : c.stack = n :: ns) : n.hasFault = false ∧ Node.anyFault ns = false := by
  rw [Clean, stack, Node.anyFault, Bool.or_eq_false_iff] at h
  exact h

theorem advance_one {c : Cursor} {ch : Char} {rest : List Char} (ahead : c.rest = ch :: rest) :
    c.advance 1 = { c with rest := rest, offset := c.offset + ch.utf8Size } := by
  unfold advance
  rw [ahead]
  rfl

theorem anyFault_close (c : Cursor) (name : String) (height : Nat) :
    Node.anyFault (c.close name height).stack = Node.anyFault c.stack := by
  have whole : c.stack = (((c.stack.take (c.height - height)).reverse.dropWhile isExtra).reverse ++
      ((c.stack.take (c.height - height)).reverse.takeWhile isExtra).reverse) ++
        c.stack.drop (c.height - height) := by
    rw [← List.reverse_append, List.takeWhile_append_dropWhile, List.reverse_reverse,
      List.take_append_drop]
  conv => rhs; rw [whole]
  unfold close
  simp only [Node.anyFault, Node.hasFault_category, Node.anyFault_append, Node.anyFault_reverse,
    Bool.or_assoc]

theorem anyFault_assign (c : Cursor) (r : Role) :
    Node.anyFault (c.assign r).stack = Node.anyFault c.stack := by
  unfold assign
  cases stack : c.stack with
  | nil => exact congrArg Node.anyFault stack
  | cons n ns => simp only [Node.anyFault, Node.hasFault_withRole]

end Cursor

section

variable {g : Grammar Rule} {repairs : List Repair} {size : Nat}

open Cursor

/-- If the nodes at the end have no fault, those at the beginning have none and `R` holds. -/
def Since (c d : Cursor) (R : Prop) : Prop := d.Clean → c.Clean ∧ R

theorem Since.refl {c : Cursor} {R : Prop} (r : R) : Since c c R := fun clean => ⟨clean, r⟩

theorem Since.imp {c d : Cursor} {R S : Prop} (h : Since c d R) (goes : R → S) : Since c d S :=
  fun clean => (h clean).imp_right goes

theorem Since.trans {c d e : Cursor} {R S T : Prop} (first : Since c d R) (second : Since d e S)
    (both : R → S → T) : Since c e T := by
  intro clean
  obtain ⟨between, s⟩ := second clean
  obtain ⟨before, r⟩ := first between
  exact ⟨before, both r s⟩

/-- Closing and giving roles make no fault and hide none. -/
theorem Since.close {c d : Cursor} {R : Prop} (h : Since c d R) (name : String) (height : Nat) :
    Since c (d.close name height) R := by
  intro clean
  rw [Clean, anyFault_close] at clean
  exact h clean

theorem Since.assign {c d : Cursor} {R : Prop} (h : Since c d R) (r : Role) :
    Since c (d.assign r) R := by
  intro clean
  rw [Clean, anyFault_assign] at clean
  exact h clean

theorem passSkip_clean {c : Cursor} (h : (passSkip repairs c).Clean) :
    skipAt? repairs c.offset = none ∧ passSkip repairs c = c := by
  unfold passSkip at h ⊢
  cases at_ : skipAt? repairs c.offset with
  | none => exact ⟨rfl, rfl⟩
  | some skipped =>
      rw [at_] at h
      cases h

theorem category_of_commentAhead? {c : Cursor} {name : String} {n : Nat}
    (h : commentAhead? g c = some (name, n)) : name ∈ commentCategories := by
  unfold commentAhead? at h
  split at h
  · cases h
    exact List.mem_cons_self
  · split at h
    · cases h
    · cases h
      exact List.mem_cons_of_mem _ List.mem_cons_self
  · cases h

theorem passTrivia_passes (fuel : Nat) (c : Cursor) :
    Since c (passTrivia g repairs fuel c) (Passes c (passTrivia g repairs fuel c)) := by
  induction fuel generalizing c with
  | zero => exact fun clean => ⟨clean, .refl c⟩
  | succ fuel ih =>
      unfold passTrivia
      split
      · rename_i skipped at_
        intro clean
        rw [(passSkip_clean (ih _ clean).1).1] at at_
        cases at_
      · split
        · exact fun clean => ⟨clean, .refl c⟩
        · split
          · rename_i ch rest ahead _
            intro clean
            obtain ⟨before, passes⟩ := ih _ clean
            exact ⟨before, .skip 1 (advance_one ahead ▸ passes)⟩
          · split
            · exact fun clean => ⟨clean, .refl c⟩
            · rename_i name n ahead
              intro clean
              obtain ⟨before, passes⟩ := ih _ clean
              exact ⟨(clean_push before rfl).2,
                .comment (category_of_commentAhead? ahead) n passes⟩

theorem readToken_reads (l : Lexeme) (boundaries : List Boundary) (before here : Cursor)
    (f : Frontier) :
    Gives (fun d => Since here d (∃ n, d = here.take l.kind n))
      (readToken g repairs l boundaries before here f) := by
  unfold readToken
  split
  · exact .none f
  · dsimp only
    split
    · exact .some (fun clean => ⟨(clean_push clean rfl).2, _, rfl⟩) f
    · split
      · refine .some (fun clean => ?_) f
        cases (clean_push clean rfl).1
      · exact .none _

theorem passComment?_passes {c d : Cursor} (h : passComment? g c = some d) :
    Since c d (∀ e, Passes d e → Passes c e) := by
  unfold passComment? at h
  dsimp only at h
  split at h
  · cases h
  · cases h
    exact fun clean => ⟨(clean_push clean rfl).2, fun e passes =>
      .skip _ (.comment List.mem_cons_self _ passes)⟩

theorem semicolonPlace?_passes {fuel : Nat} {c d : Cursor}
    (h : semicolonPlace? g repairs fuel c = some d) : Since c d (Passes c d) := by
  induction fuel generalizing c with
  | zero => cases h
  | succ fuel ih =>
      unfold semicolonPlace? at h
      split at h
      · cases h
      · split at h
        · cases h
          exact fun clean => ⟨clean, .refl _⟩
        · split at h
          · rename_i next passed
            intro clean
            obtain ⟨between, passes⟩ := ih h clean
            obtain ⟨before, goes⟩ := passComment?_passes passed between
            exact ⟨before, goes d passes⟩
          · cases h

/-- A reading that leaves no fault is a derivation. The induction is on the fuel, over all three
readers at once; a chain that has come as far as `c` goes on from there. -/
theorem reading_reads (fuel : Nat) :
    (∀ p boundaries c f,
      Gives (fun d => Since c d (Reads g p c d)) (read g repairs size fuel p boundaries c f)) ∧
    (∀ h tails boundaries b c f,
      Gives (fun d => Since c d (Reads g (.chain h tails) b c → Reads g (.chain h tails) b d))
        (grow g repairs size fuel tails boundaries b.height c f)) ∧
    (∀ tails boundaries height c f,
      Gives (fun d => Since c d (∃ name p e, (name, p) ∈ tails ∧ Reads g p c e ∧
          d = { e.close name height with operand := c.operand }))
        (readTail g repairs size fuel tails boundaries height c f)) := by
  induction fuel with
  | zero =>
      refine ⟨?_, ?_, ?_⟩
      · intro p boundaries c f
        simp only [read]
        exact .none f
      · intro h tails boundaries b c f
        simp only [grow]
        exact .some (.refl id) f
      · intro tails boundaries height c f
        simp only [readTail]
        exact .none f
  | succ fuel ih =>
      obtain ⟨ihRead, ihGrow, ihTail⟩ := ih
      refine ⟨?_, ?_, ?_⟩
      · intro p boundaries c f
        cases p with
        | nothing =>
            simp only [read]
            exact .some (.refl (.nothing c)) f
        | token l =>
            simp only [read]
            refine (readToken_reads l boundaries c _ f).mono fun d taken => ?_
            refine (passTrivia_passes size c).trans taken ?_
            rintro passes ⟨n, rfl⟩
            exact .token l n passes
        | attached l =>
            simp only [read]
            refine (readToken_reads l boundaries c _ f).mono fun d taken clean => ?_
            obtain ⟨between, n, rfl⟩ := taken clean
            have same := (passSkip_clean between).2
            rw [same] at between ⊢
            exact ⟨between, .attached c l n⟩
        | both p q =>
            simp only [read]
            refine (ihRead p boundaries c f).andThen fun d f first => ?_
            exact (ihRead q _ d f).mono fun e second => first.trans second .both
        | either p q =>
            simp only [read]
            refine (ihRead p boundaries c f).orElse (fun d f one => ?_) fun f => ?_
            · exact .some (one.imp (.left q)) f
            · exact (ihRead q boundaries c f).mono fun d other => other.imp (.right p)
        | many p =>
            simp only [read]
            refine (ihRead p _ c f).orElse (fun d f first => ?_) fun f => ?_
            · split
              · exact .some (first.imp (.more · (.done p d))) f
              · exact (ihRead (.many p) boundaries d f).mono fun e later => first.trans later .more
            · exact .some (.refl (.done p c)) f
        | chain head tails =>
            simp only [read]
            refine (ihRead head boundaries c f).andThen fun d f first => ?_
            refine (ihGrow head tails boundaries c d f).mono fun e grows => ?_
            exact first.trans grows fun read goes => goes (.head tails read)
        | ending head tails =>
            simp only [read]
            refine (ihRead head boundaries c f).andThen fun d f first => ?_
            refine (ihTail tails _ c.height d f).mono fun e last => first.trans last ?_
            rintro read ⟨name, p, e, tail, follows, rfl⟩
            exact .ending read tail follows
        | last test =>
            simp only [read]
            split
            · rename_i passed
              exact .some (.refl (.last passed)) f
            · exact .none f
        | rule r =>
            simp only [read]
            refine (ihRead (g.rules r) boundaries c f).andThen fun d f inner => ?_
            exact .some (inner.imp .rule) f
        | node name p =>
            simp only [read]
            refine (ihRead p boundaries c f).andThen fun d f inner => ?_
            exact .some ((inner.imp (.node name)).close name c.height) f
        | role r p =>
            simp only [read]
            refine (ihRead p boundaries c f).andThen fun d f inner => ?_
            exact .some ((inner.imp (.role r)).assign r) f
        | absent p =>
            simp only [read]
            split
            · exact .none f
            · exact .some (.refl (.absent p c)) f
        | ahead test =>
            simp only [read]
            split
            · exact .some (.refl (.ahead test c)) f
            · exact .none f
        | semicolon =>
            have own : Gives (fun d => Since c d (Reads g .semicolon c d))
                (readToken g repairs semicolonLexeme boundaries c
                  (passTrivia g repairs size c) f) := by
              refine (readToken_reads semicolonLexeme boundaries c _ f).mono fun d taken => ?_
              refine (passTrivia_passes size c).trans taken ?_
              rintro passes ⟨n, rfl⟩
              exact .semicolon n passes
            simp only [read]
            split
            · split
              · rename_i place
                exact .some ((semicolonPlace?_passes place).imp .understood) f
              · exact own
            · exact own
        | sameStatement =>
            simp only [read]
            split
            · exact .some (.refl (.sameStatement c)) f
            · exact .none f
        | bracketed inside p =>
            simp only [read]
            refine (ihRead p boundaries _ f).andThen fun d f inner => ?_
            exact .some (inner.imp (.bracketed inside)) f
      · intro h tails boundaries b c f
        simp only [grow]
        refine (ihTail tails _ b.height c f).orElse (fun d f first => ?_) fun f => ?_
        · refine (ihGrow h tails boundaries b d f).mono fun e grows => first.trans grows ?_
          rintro ⟨name, p, e, tail, follows, rfl⟩ goes read
          exact goes (.grown read tail follows)
        · exact .some (.refl id) f
      · intro tails boundaries height c f
        cases tails with
        | nil =>
            simp only [readTail]
            exact .none f
        | cons tail tails =>
            simp only [readTail]
            refine (ihRead tail.2 boundaries c f).orElse (fun d f follows => ?_) fun f => ?_
            · have closed := follows.close tail.1 height
              exact .some (closed.imp fun read =>
                ⟨tail.1, tail.2, d, List.mem_cons_self, read, rfl⟩) f
            · refine (ihTail tails boundaries height c f).mono fun d other => other.imp ?_
              rintro ⟨name, p, e, member, reads⟩
              exact ⟨name, p, e, List.mem_cons_of_mem tail member, reads⟩

/-- A tree without faults is what a derivation of the root leaves, with the trivia behind it. -/
def Node.Derived (g : Grammar Rule) (source : List Char) (tree : Node) : Prop :=
  ∃ c d, Reads g (.rule g.root) (Cursor.start source) c ∧ Passes c d ∧
    tree = .mk (.category g.rootName) none ⟨(Cursor.start source).offset, d.offset⟩ d.stack.reverse

/-- The tree of a whole source has the nodes that the reader has left at the end. -/
theorem exists_of_readWith {source : List Char} {tree : Node}
    (h : readWith g repairs source = .ok tree) :
    ∃ fuel c f last, read g repairs (source.length + 1) fuel (.rule g.root) []
        (Cursor.start source) .none = (some c, f) ∧
      last = passTrivia g repairs (source.length + 1) c ∧
      tree = .mk (.category g.rootName) none ⟨(Cursor.start source).offset, last.offset⟩
        last.stack.reverse := by
  unfold readWith at h
  dsimp only at h
  split at h
  · rename_i c f reading
    split at h
    · cases h
      exact ⟨_, c, f, _, reading, rfl, rfl⟩
    · cases h
  · cases h

theorem readWith_derived {source : List Char} {tree : Node}
    (h : readWith g repairs source = .ok tree) (faultless : tree.hasFault = false) :
    tree.Derived g source := by
  obtain ⟨fuel, c, f, last, reading, rfl, rfl⟩ := exists_of_readWith h
  rw [Node.hasFault_category, Node.anyFault_reverse] at faultless
  obtain ⟨between, passes⟩ := passTrivia_passes _ _ faultless
  obtain ⟨-, reads⟩ := ((reading_reads fuel).1 _ _ _ _).of_some reading between
  exact ⟨c, _, reads, passes, rfl⟩

end

section

variable {g : Grammar Rule} {source : List Char}

theorem parse_readWith (faultless : (parse g source).hasFault = false) :
    ∃ repairs, readWith g repairs source = .ok (parse g source) := by
  rcases parse_tried g source with ⟨repairs, -, reading⟩ | ⟨f, -, same⟩
  · exact ⟨repairs, reading⟩
  · rw [same] at faultless
    cases faultless

theorem parse_derived (faultless : (parse g source).hasFault = false) :
    (parse g source).Derived g source := by
  obtain ⟨repairs, reading⟩ := parse_readWith faultless
  exact readWith_derived reading faultless

end

end Restyle.Syntax
