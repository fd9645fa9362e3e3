import Mathlib.Data.List.TakeWhile
import Restyle.Proofs.Syntax.Order
/-!
The nodes that a reading leaves. A reading adds nodes to those that are there and does not touch
these, provided that roles are given to nodes only that were read for them. What holds of every node
where it is closed then holds of every node of a tree, whatever the rules of the grammar do with one
another.
-/

namespace Restyle.Syntax

variable {Rule : Type} {g : Grammar Rule}

/-- Between two cursors the nodes `ns`, last one first, were left. -/
structure Left (c d : Cursor) (ns : List Node) : Prop where
  stack : d.stack = ns ++ c.stack
  height : d.height = c.height + ns.length

/-- What goes into a node that is closed over `ns`, and the extras before it that stay outside. -/
def insideOf (ns : List Node) : List Node := ns.reverse.dropWhile Cursor.isExtra

def outsideOf (ns : List Node) : List Node := (ns.reverse.takeWhile Cursor.isExtra).reverse

theorem mem_of_mem_insideOf {n : Node} {ns : List Node} (h : n ∈ insideOf ns) : n ∈ ns :=
  List.mem_reverse.mp ((List.dropWhile_suffix _).subset h)

theorem mem_of_mem_outsideOf {n : Node} {ns : List Node} (h : n ∈ outsideOf ns) :
    n ∈ ns ∧ Cursor.isExtra n = true := by
  have taken := List.mem_reverse.mp h
  exact ⟨List.mem_reverse.mp ((List.takeWhile_prefix _).subset taken),
    List.mem_takeWhile_imp taken⟩

namespace Left

variable {c d e : Cursor} {ns ms : List Node}

theorem refl (c : Cursor) : Left c c [] := ⟨rfl, rfl⟩

theorem trans (h : Left c d ns) (h' : Left d e ms) : Left c e (ms ++ ns) := by
  refine ⟨?_, ?_⟩
  · rw [h'.stack, h.stack, List.append_assoc]
  · rw [h'.height, h.height, List.length_append]
    omega

theorem unique (h : Left c d ns) (h' : Left c d ms) : ns = ms :=
  List.append_cancel_right (h.stack.symm.trans h'.stack)

theorem take (h : Left c d ns) (kind : Kind) (n : Nat) :
    Left c (d.take kind n) (.mk kind none ⟨d.offset, (d.advance n).offset⟩ [] :: ns) := by
  refine ⟨congrArg (_ :: ·) h.stack, ?_⟩
  rw [List.length_cons, ← Nat.add_assoc, ← h.height]
  rfl

theorem close (h : Left c d ns) (name : String) :
    ∃ s, Left c (d.close name c.height)
      (.mk (.category name) none s (insideOf ns) :: outsideOf ns) := by
  have count : d.height - c.height = ns.length := by
    rw [h.height, Nat.add_sub_cancel_left]
  have taken : d.stack.take (d.height - c.height) = ns := by
    rw [count, h.stack, List.take_left]
  have dropped : d.stack.drop (d.height - c.height) = c.stack := by
    rw [count, h.stack, List.drop_left]
  unfold Cursor.close
  rw [taken, dropped]
  refine ⟨_, rfl, ?_⟩
  dsimp only
  rw [List.length_cons, outsideOf, List.length_reverse, Nat.add_assoc]

theorem assign {n : Node} (h : Left c d (n :: ns)) (r : Role) :
    Left c (d.assign r) (n.withRole r :: ns) := by
  have stack : d.stack = n :: (ns ++ c.stack) := h.stack
  unfold Cursor.assign
  rw [stack]
  exact ⟨rfl, h.height⟩

end Left

namespace Pattern

/-- Whether a pattern leaves a node wherever it is read, the rules in `leaving` being taken to do
so. -/
def leaves (leaving : Rule → Bool) : Pattern Rule → Bool
  | token _ | attached _ | node _ _ | ending _ _ => true
  | both p q => p.leaves leaving || q.leaves leaving
  | either p q => p.leaves leaving && q.leaves leaving
  | chain p _ | role _ p | bracketed _ p => p.leaves leaving
  | rule r => leaving r
  | nothing | many _ | last _ | absent _ | ahead _ | semicolon | sameStatement => false

mutual
/-- Whether roles are given only where a node is left. -/
def framed (leaving : Rule → Bool) : Pattern Rule → Bool
  | both p q | either p q => p.framed leaving && q.framed leaving
  | many p | node _ p | bracketed _ p => p.framed leaving
  | chain p ts | ending p ts => p.framed leaving && framedTails leaving ts
  | role _ p => p.leaves leaving && p.framed leaving
  | nothing | token _ | attached _ | last _ | rule _ | absent _ | ahead _ | semicolon
  | sameStatement => true

def framedTails (leaving : Rule → Bool) : List (String × Pattern Rule) → Bool
  | [] => true
  | (_, p) :: ts => p.framed leaving && framedTails leaving ts
end

theorem framed_of_mem {leaving : Rule → Bool} {ts : List (String × Pattern Rule)}
    (h : framedTails leaving ts = true) {name : String} {p : Pattern Rule}
    (member : (name, p) ∈ ts) : p.framed leaving = true := by
  induction ts with
  | nil => cases member
  | cons t ts ih =>
      rw [framedTails, Bool.and_eq_true] at h
      rcases List.mem_cons.mp member with rfl | later
      · exact h.1
      · exact ih h.2 later

end Pattern

/-- The rules of a grammar give roles only where a node is left; those in `leaving` leave one. -/
structure Grammar.Framed (g : Grammar Rule) (leaving : Rule → Bool) : Prop where
  framed : ∀ r, (g.rules r).framed leaving = true
  leaves : ∀ r, leaving r = true → (g.rules r).leaves leaving = true

theorem forall_commentAt {V : Node → Prop} (plain : ∀ s, V (commentAt "comment" s))
    (html : ∀ s, V (commentAt "html_comment" s)) :
    ∀ name ∈ commentCategories, ∀ s, V (commentAt name s) :=
  List.forall_mem_cons.mpr ⟨plain, List.forall_mem_singleton.mpr html⟩

theorem Passes.left {c d : Cursor} (h : Passes c d) :
    ∃ ns, Left c d ns ∧ ∀ n ∈ ns, ∃ name ∈ commentCategories, ∃ s, n = commentAt name s := by
  induction h with
  | refl c => exact ⟨[], .refl c, fun n none => absurd none List.not_mem_nil⟩
  | skip n passes ih =>
      obtain ⟨ns, left, comments⟩ := ih
      exact ⟨ns, ⟨left.stack, left.height⟩, comments⟩
  | @comment c d name category n passes ih =>
      obtain ⟨ns, left, comments⟩ := ih
      have first : Left c ((c.advance n).push (commentAt name ⟨c.offset, (c.advance n).offset⟩))
          [commentAt name ⟨c.offset, (c.advance n).offset⟩] := ⟨rfl, rfl⟩
      refine ⟨_, first.trans left, ?_⟩
      intro m member
      rcases List.mem_append.mp member with later | here
      · exact comments m later
      · exact ⟨name, category, _, List.mem_singleton.mp here⟩

section

variable {leaving : Rule → Bool} (frames : g.Framed leaving)

include frames

/-- A reading leaves the nodes before it as they are. -/
theorem Reads.frame {p : Pattern Rule} {c d : Cursor} (h : Reads g p c d)
    (framed : p.framed leaving = true) :
    ∃ ns, Left c d ns ∧ (p.leaves leaving = true → ns ≠ []) := by
  induction h with
  | nothing c => exact ⟨[], .refl c, nofun⟩
  | token l n trivia =>
      obtain ⟨ns, left, -⟩ := trivia.left
      exact ⟨_, left.take l.kind n, fun _ => List.cons_ne_nil _ _⟩
  | attached c l n => exact ⟨_, (Left.refl c).take l.kind n, fun _ => List.cons_ne_nil _ _⟩
  | both first second ih ih' =>
      rw [Pattern.framed, Bool.and_eq_true] at framed
      obtain ⟨ns, left, some_p⟩ := ih framed.1
      obtain ⟨ms, left', some_q⟩ := ih' framed.2
      refine ⟨ms ++ ns, left.trans left', ?_⟩
      intro leaves none
      rw [List.append_eq_nil_iff] at none
      rw [Pattern.leaves, Bool.or_eq_true] at leaves
      rcases leaves with p | q
      · exact some_p p none.2
      · exact some_q q none.1
  | left q one ih =>
      rw [Pattern.framed, Bool.and_eq_true] at framed
      obtain ⟨ns, left, leaves⟩ := ih framed.1
      refine ⟨ns, left, fun h => leaves ?_⟩
      rw [Pattern.leaves, Bool.and_eq_true] at h
      exact h.1
  | right p other ih =>
      rw [Pattern.framed, Bool.and_eq_true] at framed
      obtain ⟨ns, left, leaves⟩ := ih framed.2
      refine ⟨ns, left, fun h => leaves ?_⟩
      rw [Pattern.leaves, Bool.and_eq_true] at h
      exact h.2
  | done p c => exact ⟨[], .refl c, nofun⟩
  | more first later ih ih' =>
      obtain ⟨ns, left, -⟩ := ih framed
      obtain ⟨ms, left', -⟩ := ih' framed
      exact ⟨_, left.trans left', nofun⟩
  | head tails first ih =>
      rw [Pattern.framed, Bool.and_eq_true] at framed
      exact ih framed.1
  | @grown h p tails name c d e grows tail follows ih ih' =>
      obtain ⟨ns, left, -⟩ := ih framed
      rw [Pattern.framed, Bool.and_eq_true] at framed
      obtain ⟨ms, left', -⟩ := ih' (Pattern.framed_of_mem framed.2 tail)
      obtain ⟨s, closed⟩ := (left.trans left').close name
      exact ⟨_, ⟨closed.stack, closed.height⟩, fun _ => List.cons_ne_nil _ _⟩
  | @ending h p tails name c d e first tail follows ih ih' =>
      rw [Pattern.framed, Bool.and_eq_true] at framed
      obtain ⟨ns, left, -⟩ := ih framed.1
      obtain ⟨ms, left', -⟩ := ih' (Pattern.framed_of_mem framed.2 tail)
      obtain ⟨s, closed⟩ := (left.trans left').close name
      exact ⟨_, ⟨closed.stack, closed.height⟩, fun _ => List.cons_ne_nil _ _⟩
  | @last c test passed => exact ⟨[], .refl c, nofun⟩
  | @rule r c d inner ih =>
      obtain ⟨ns, left, leaves⟩ := ih (frames.framed r)
      exact ⟨ns, ⟨left.stack, left.height⟩, fun h => leaves (frames.leaves r h)⟩
  | node name inner ih =>
      obtain ⟨ns, left, -⟩ := ih framed
      obtain ⟨s, closed⟩ := left.close name
      exact ⟨_, closed, fun _ => List.cons_ne_nil _ _⟩
  | role r inner ih =>
      rw [Pattern.framed, Bool.and_eq_true] at framed
      obtain ⟨ns, left, leaves⟩ := ih framed.2
      obtain ⟨n, ms, rfl⟩ := List.exists_cons_of_ne_nil (leaves framed.1)
      exact ⟨_, left.assign r, fun _ => List.cons_ne_nil _ _⟩
  | absent p c => exact ⟨[], .refl c, nofun⟩
  | ahead test c => exact ⟨[], .refl c, nofun⟩
  | understood place =>
      obtain ⟨ns, left, -⟩ := place.left
      exact ⟨ns, ⟨left.stack, left.height⟩, nofun⟩
  | semicolon n trivia =>
      obtain ⟨ns, left, -⟩ := trivia.left
      exact ⟨_, left.take semicolonLexeme.kind n, fun _ => List.cons_ne_nil _ _⟩
  | sameStatement c => exact ⟨[], .refl c, nofun⟩
  | bracketed inside inner ih =>
      obtain ⟨ns, left, leaves⟩ := ih framed
      exact ⟨ns, ⟨left.stack, left.height⟩, leaves⟩

end

/-- Between two cursors nodes were left that all satisfy `V`. -/
def Leaves (V : Node → Prop) (c d : Cursor) : Prop := ∃ ns, Left c d ns ∧ ∀ n ∈ ns, V n

namespace Leaves

variable {V : Node → Prop} {c d e : Cursor}

theorem refl (c : Cursor) : Leaves V c c :=
  ⟨[], .refl c, fun _ none => absurd none List.not_mem_nil⟩

theorem of_left {ns : List Node} (h : Leaves V c d) (left : Left c d ns) : ∀ n ∈ ns, V n := by
  obtain ⟨ms, left', all⟩ := h
  rw [left.unique left']
  exact all

theorem trans (h : Leaves V c d) (h' : Leaves V d e) : Leaves V c e := by
  obtain ⟨ns, left, all⟩ := h
  obtain ⟨ms, left', all'⟩ := h'
  exact ⟨_, left.trans left', List.forall_mem_append.mpr ⟨all', all⟩⟩

theorem take (h : Leaves V c d) {kind : Kind} (n : Nat) (leaf : ∀ s, V (.mk kind none s [])) :
    Leaves V c (d.take kind n) := by
  obtain ⟨ns, left, all⟩ := h
  exact ⟨_, left.take kind n, List.forall_mem_cons.mpr ⟨leaf _, all⟩⟩

theorem close {ns : List Node} {name : String} (left : Left c d ns)
    (closed : ∀ s, V (.mk (.category name) none s (insideOf ns)))
    (outside : ∀ n ∈ outsideOf ns, V n) : Leaves V c (d.close name c.height) := by
  obtain ⟨s, left'⟩ := left.close name
  exact ⟨_, left', List.forall_mem_cons.mpr ⟨closed s, outside⟩⟩

theorem same {d' : Cursor} (h : Leaves V c d) (stack : d'.stack = d.stack)
    (height : d'.height = d.height) : Leaves V c d' := by
  obtain ⟨ns, left, all⟩ := h
  exact ⟨ns, ⟨stack.trans left.stack, height.trans left.height⟩, all⟩

end Leaves

theorem Passes.leaves {V : Node → Prop} {c d : Cursor} (h : Passes c d)
    (comment : ∀ name ∈ commentCategories, ∀ s, V (commentAt name s)) : Leaves V c d := by
  obtain ⟨ns, left, comments⟩ := h.left
  refine ⟨ns, left, fun n member => ?_⟩
  obtain ⟨name, category, s, rfl⟩ := comments n member
  exact comment name category s

theorem isComment_commentAt {name : String} (category : name ∈ commentCategories) (s : Span) :
    (commentAt name s).isComment = true :=
  List.any_eq_true.mpr ⟨name, category, beq_self_eq_true _⟩

theorem isExtra_of_isComment {n : Node} (h : n.isComment = true) : Cursor.isExtra n = true :=
  Bool.or_eq_true_iff.mpr (.inl h)

/-- The children of a whole source are what its root leaves, and comments. -/
theorem Node.Derived.leaves {V : Node → Prop} {source : List Char} {tree : Node}
    (h : tree.Derived g source) (comment : ∀ name ∈ commentCategories, ∀ s, V (commentAt name s))
    (root : ∀ c d, Reads g (.rule g.root) c d → Leaves V c d) : ∀ n ∈ tree.children, V n := by
  obtain ⟨c, d, reads, passes, rfl⟩ := h
  have empty : (Cursor.start source).stack = [] := by
    unfold Cursor.start
    split <;> rfl
  obtain ⟨ns, left, all⟩ := (root _ _ reads).trans (passes.leaves comment)
  have stack : d.stack = ns := by
    rw [left.stack, empty, List.append_nil]
  intro n member
  exact all n (stack ▸ List.mem_reverse.mp member)

namespace Pattern

/-- Whether each node that a pattern leaves is of an accepted kind, the rules in `known` being
taken to leave such nodes. -/
def tops (accepted : Kind → Bool) (known : Rule → Bool) : Pattern Rule → Bool
  | token l | attached l => accepted l.kind
  | both p q | either p q => p.tops accepted known && q.tops accepted known
  | many p | role _ p | bracketed _ p => p.tops accepted known
  | chain p ts => p.tops accepted known && ts.all fun t => accepted (.category t.1)
  | ending _ ts => ts.all fun t => accepted (.category t.1)
  | rule r => known r
  | node name _ => accepted (.category name)
  | semicolon => accepted semicolonLexeme.kind
  | nothing | last _ | absent _ | ahead _ | sameStatement => true

end Pattern

section

variable (accepted : Kind → Bool) (known : Rule → Bool) {leaving : Rule → Bool}
  (frames : g.Framed leaving)
  (extra : ∀ n, Cursor.isExtra n = true → accepted n.kind = true)
  (rules : ∀ r, known r = true → ∀ c d, Reads g (g.rules r) c d →
    Leaves (fun n => accepted n.kind = true) c d)

include frames extra rules

theorem Reads.tops {p : Pattern Rule} {c d : Cursor} (h : Reads g p c d)
    (framed : p.framed leaving = true) (tops : p.tops accepted known = true) :
    Leaves (fun n => accepted n.kind = true) c d := by
  have comment : ∀ name ∈ commentCategories, ∀ s, accepted (commentAt name s).kind = true :=
    fun _ category s => extra _ (isExtra_of_isComment (isComment_commentAt category s))
  have outside : ∀ ns, ∀ n ∈ outsideOf ns, accepted n.kind = true :=
    fun ns n member => extra n (mem_of_mem_outsideOf member).2
  induction h with
  | nothing c => exact .refl c
  | token l n trivia => exact (trivia.leaves comment).take n fun _ => tops
  | attached c l n => exact (Leaves.refl c).take n fun _ => tops
  | both first second ih ih' =>
      rw [Pattern.framed, Bool.and_eq_true] at framed
      rw [Pattern.tops, Bool.and_eq_true] at tops
      exact (ih framed.1 tops.1).trans (ih' framed.2 tops.2)
  | left q one ih =>
      rw [Pattern.framed, Bool.and_eq_true] at framed
      rw [Pattern.tops, Bool.and_eq_true] at tops
      exact ih framed.1 tops.1
  | right p other ih =>
      rw [Pattern.framed, Bool.and_eq_true] at framed
      rw [Pattern.tops, Bool.and_eq_true] at tops
      exact ih framed.2 tops.2
  | done p c => exact .refl c
  | more first later ih ih' => exact (ih framed tops).trans (ih' framed tops)
  | head tails first ih =>
      rw [Pattern.framed, Bool.and_eq_true] at framed
      rw [Pattern.tops, Bool.and_eq_true] at tops
      exact ih framed.1 tops.1
  | @grown h p tails name c d e grows tail follows ih ih' =>
      obtain ⟨ns, left, -⟩ := grows.frame frames framed
      rw [Pattern.framed, Bool.and_eq_true] at framed
      obtain ⟨ms, left', -⟩ := follows.frame frames (Pattern.framed_of_mem framed.2 tail)
      rw [Pattern.tops, Bool.and_eq_true] at tops
      have closed := List.all_eq_true.mp tops.2 _ tail
      exact (Leaves.close (left.trans left') (fun _ => closed) (outside _)).same rfl rfl
  | @ending h p tails name c d e first tail follows ih ih' =>
      rw [Pattern.framed, Bool.and_eq_true] at framed
      obtain ⟨ns, left, -⟩ := first.frame frames framed.1
      obtain ⟨ms, left', -⟩ := follows.frame frames (Pattern.framed_of_mem framed.2 tail)
      have closed := List.all_eq_true.mp tops _ tail
      exact (Leaves.close (left.trans left') (fun _ => closed) (outside _)).same rfl rfl
  | last passed => exact .refl _
  | @rule r c d inner ih => exact (rules r tops c d inner).same rfl rfl
  | node name inner ih =>
      obtain ⟨ns, left, -⟩ := inner.frame frames framed
      exact .close left (fun _ => tops) (outside _)
  | role r inner ih =>
      rw [Pattern.framed, Bool.and_eq_true] at framed
      obtain ⟨ns, left, leaves⟩ := inner.frame frames framed.2
      obtain ⟨n, ms, rfl⟩ := List.exists_cons_of_ne_nil (leaves framed.1)
      obtain ⟨first, others⟩ :=
        List.forall_mem_cons.mp ((ih framed.2 tops).of_left left)
      exact ⟨_, left.assign r, List.forall_mem_cons.mpr ⟨by rwa [Node.kind_withRole], others⟩⟩
  | absent p c => exact .refl c
  | ahead test c => exact .refl c
  | understood place => exact (place.leaves comment).same rfl rfl
  | semicolon n trivia => exact (trivia.leaves comment).take n fun _ => tops
  | sameStatement c => exact .refl c
  | bracketed inside inner ih =>
      obtain ⟨ns, left, all⟩ := ih framed tops
      exact ⟨ns, ⟨left.stack, left.height⟩, all⟩

end

namespace Pattern

mutual
/-- That `S` holds of each node that a pattern leaves in the tree at the time it leaves it, the
rules in `known` being taken to do so. -/
def Closes (g : Grammar Rule) (S : Node → Prop) (known : Rule → Bool) : Pattern Rule → Prop
  | token l | attached l => ∀ s, S (.mk l.kind none s [])
  | both p q | either p q => p.Closes g S known ∧ q.Closes g S known
  | many p | bracketed _ p => p.Closes g S known
  | chain p ts => p.Closes g S known ∧ ClosesTails g S known (chain p ts) ts
  | ending p ts => p.Closes g S known ∧ ClosesTails g S known p ts
  | rule r => known r = true
  | node name p => p.Closes g S known ∧ ∀ c d ns s, Reads g p c d → Left c d ns →
      S (.mk (.category name) none s (insideOf ns))
  | role r p => p.Closes g S known ∧ ∀ c d n ns, Reads g p c d → Left c d (n :: ns) → S n →
      S (n.withRole r)
  | semicolon => ∀ s, S (.mk semicolonLexeme.kind none s [])
  | nothing | last _ | absent _ | ahead _ | sameStatement => True

/-- The same of tails behind a head. -/
def ClosesTails (g : Grammar Rule) (S : Node → Prop) (known : Rule → Bool)
    (head : Pattern Rule) : List (String × Pattern Rule) → Prop
  | [] => True
  | (name, p) :: ts => p.Closes g S known ∧
      (∀ c d e ns s, Reads g head c d → Reads g p d e → Left c e ns →
        S (.mk (.category name) none s (insideOf ns))) ∧
      ClosesTails g S known head ts
end

variable {S : Node → Prop} {known : Rule → Bool}

theorem closes_of_mem {head : Pattern Rule} {ts : List (String × Pattern Rule)}
    (h : ClosesTails g S known head ts) {name : String} {p : Pattern Rule}
    (member : (name, p) ∈ ts) : p.Closes g S known ∧
      ∀ c d e ns s, Reads g head c d → Reads g p d e → Left c e ns →
        S (.mk (.category name) none s (insideOf ns)) := by
  induction ts with
  | nil => cases member
  | cons t ts ih =>
      rw [ClosesTails] at h
      obtain ⟨inner, closed, others⟩ := h
      rcases List.mem_cons.mp member with rfl | later
      · exact ⟨inner, closed⟩
      · exact ih others later

mutual
/-- Whether a pattern gives no roles and leaves no node of a special kind. -/
def ordinary (special : List String) (known : Rule → Bool) : Pattern Rule → Bool
  | token l | attached l => !special.contains l.kind.name
  | both p q | either p q => p.ordinary special known && q.ordinary special known
  | many p | bracketed _ p => p.ordinary special known
  | chain p ts | ending p ts => p.ordinary special known && ordinaryTails special known ts
  | rule r => known r
  | node name p => !special.contains name && p.ordinary special known
  | role _ _ => false
  | semicolon => !special.contains semicolonLexeme.kind.name
  | nothing | last _ | absent _ | ahead _ | sameStatement => true

def ordinaryTails (special : List String) (known : Rule → Bool) :
    List (String × Pattern Rule) → Bool
  | [] => true
  | (name, p) :: ts =>
    !special.contains name && p.ordinary special known && ordinaryTails special known ts
end

section

variable {special : List String}
  (plain : ∀ k s cs, special.contains (Kind.name k) = false → S (.mk k none s cs))

include plain

mutual
/-- Where `S` asks nothing of a node without a role and of no special kind, it holds of the nodes
that an ordinary pattern leaves. -/
theorem closes_of_ordinary (p : Pattern Rule) (h : p.ordinary special known = true) :
    p.Closes g S known := by
  cases p with
  | nothing | last | absent | ahead | sameStatement => trivial
  | token l | attached l =>
      rw [ordinary, Bool.not_eq_true'] at h
      exact fun s => plain _ s [] h
  | semicolon =>
      rw [ordinary, Bool.not_eq_true'] at h
      exact fun s => plain _ s [] h
  | both p q | either p q =>
      rw [ordinary, Bool.and_eq_true] at h
      exact ⟨closes_of_ordinary p h.1, closes_of_ordinary q h.2⟩
  | many p => exact closes_of_ordinary p h
  | bracketed inside p => exact closes_of_ordinary p h
  | chain p ts =>
      rw [ordinary, Bool.and_eq_true] at h
      exact ⟨closes_of_ordinary p h.1, closesTails_of_ordinary _ ts h.2⟩
  | ending p ts =>
      rw [ordinary, Bool.and_eq_true] at h
      exact ⟨closes_of_ordinary p h.1, closesTails_of_ordinary _ ts h.2⟩
  | rule r => exact h
  | node name p =>
      rw [ordinary, Bool.and_eq_true, Bool.not_eq_true'] at h
      exact ⟨closes_of_ordinary p h.2, fun c d ns s _ _ => plain (.category name) s _ h.1⟩
  | role r p => cases h

theorem closesTails_of_ordinary (head : Pattern Rule) (ts : List (String × Pattern Rule))
    (h : ordinaryTails special known ts = true) : ClosesTails g S known head ts := by
  cases ts with
  | nil => trivial
  | cons t ts =>
      obtain ⟨name, p⟩ := t
      rw [ordinaryTails, Bool.and_eq_true, Bool.and_eq_true, Bool.not_eq_true'] at h
      exact ⟨closes_of_ordinary p h.1.2, fun c d e ns s _ _ _ => plain (.category name) s _ h.1.1,
        closesTails_of_ordinary head ts h.2⟩
end

end

end Pattern

section

variable {S : Node → Prop} {leaving known : Rule → Bool} (frames : g.Framed leaving)
  (comment : ∀ name ∈ commentCategories, ∀ s, S (commentAt name s))
  (rules : ∀ r, known r = true → (g.rules r).Closes g S known)

include frames comment rules

/-- What holds of every node at the time it is left holds of every node of a tree in the end. -/
theorem Reads.everywhere {p : Pattern Rule} {c d : Cursor} (h : Reads g p c d)
    (framed : p.framed leaving = true) (closes : p.Closes g S known) :
    Leaves (Node.Everywhere S) c d := by
  have comment' : ∀ name ∈ commentCategories, ∀ s, (commentAt name s).Everywhere S :=
    fun name category s => .leaf (comment name category s)
  have close : ∀ {c d ns name}, Left c d ns → (∀ n ∈ ns, n.Everywhere S) →
      (∀ s, S (.mk (.category name) none s (insideOf ns))) →
      Leaves (Node.Everywhere S) c (d.close name c.height) := by
    intro c d ns name left all here
    exact .close left (fun s => .mk (here s) fun n member => all n (mem_of_mem_insideOf member))
      fun n member => all n (mem_of_mem_outsideOf member).1
  induction h with
  | nothing c => exact .refl c
  | token l n trivia => exact (trivia.leaves comment').take n fun s => .leaf (closes s)
  | attached c l n => exact (Leaves.refl c).take n fun s => .leaf (closes s)
  | both first second ih ih' =>
      rw [Pattern.framed, Bool.and_eq_true] at framed
      exact (ih framed.1 closes.1).trans (ih' framed.2 closes.2)
  | left q one ih =>
      rw [Pattern.framed, Bool.and_eq_true] at framed
      exact ih framed.1 closes.1
  | right p other ih =>
      rw [Pattern.framed, Bool.and_eq_true] at framed
      exact ih framed.2 closes.2
  | done p c => exact .refl c
  | more first later ih ih' => exact (ih framed closes).trans (ih' framed closes)
  | head tails first ih =>
      rw [Pattern.framed, Bool.and_eq_true] at framed
      exact ih framed.1 closes.1
  | @grown h p tails name c d e grows tail follows ih ih' =>
      have before := ih framed closes
      rw [Pattern.framed, Bool.and_eq_true] at framed
      obtain ⟨inner, here⟩ := Pattern.closes_of_mem closes.2 tail
      obtain ⟨ns, left, all⟩ := before.trans (ih' (Pattern.framed_of_mem framed.2 tail) inner)
      exact (close left all fun s => here c d e ns s grows follows left).same rfl rfl
  | @ending h p tails name c d e first tail follows ih ih' =>
      rw [Pattern.framed, Bool.and_eq_true] at framed
      obtain ⟨inner, here⟩ := Pattern.closes_of_mem closes.2 tail
      obtain ⟨ns, left, all⟩ := (ih framed.1 closes.1).trans
        (ih' (Pattern.framed_of_mem framed.2 tail) inner)
      exact (close left all fun s => here c d e ns s first follows left).same rfl rfl
  | last passed => exact .refl _
  | @rule r c d inner ih => exact (ih (frames.framed r) (rules r closes)).same rfl rfl
  | node name inner ih =>
      obtain ⟨ns, left, all⟩ := ih framed closes.1
      exact close left all fun s => closes.2 _ _ ns s inner left
  | role r inner ih =>
      rw [Pattern.framed, Bool.and_eq_true] at framed
      obtain ⟨ns, left, leaves⟩ := inner.frame frames framed.2
      obtain ⟨n, ms, rfl⟩ := List.exists_cons_of_ne_nil (leaves framed.1)
      obtain ⟨first, others⟩ := List.forall_mem_cons.mp ((ih framed.2 closes.1).of_left left)
      refine ⟨_, left.assign r, List.forall_mem_cons.mpr ⟨.mk ?_ ?_, others⟩⟩
      · exact closes.2 _ _ n ms inner left first.here
      · rw [Node.children_withRole]
        exact first.inside
  | absent p c => exact .refl c
  | ahead test c => exact .refl c
  | understood place => exact (place.leaves comment').same rfl rfl
  | semicolon n trivia => exact (trivia.leaves comment').take n fun s => .leaf (closes s)
  | sameStatement c => exact .refl c
  | bracketed inside inner ih =>
      obtain ⟨ns, left, all⟩ := ih framed closes
      exact ⟨ns, ⟨left.stack, left.height⟩, all⟩

theorem Node.Derived.everywhere {source : List Char} {tree : Node} (h : tree.Derived g source)
    (root : known g.root = true) : ∀ n ∈ tree.children, n.Everywhere S :=
  h.leaves (fun name category s => .leaf (comment name category s)) fun _ _ reads =>
    reads.everywhere frames comment rules rfl root

end

/-- A node of a category has no children. -/
def Node.Bare (name : String) (n : Node) : Prop := n.is name = true → n.children = []

namespace Pattern

mutual
/-- Whether a pattern closes no nodes into one of a category. -/
def spares (name : String) : Pattern Rule → Bool
  | both p q | either p q => p.spares name && q.spares name
  | many p | role _ p | bracketed _ p => p.spares name
  | chain p ts | ending p ts => p.spares name && sparesTails name ts
  | node other p => other != name && p.spares name
  | nothing | token _ | attached _ | last _ | rule _ | absent _ | ahead _ | semicolon
  | sameStatement => true

def sparesTails (name : String) : List (String × Pattern Rule) → Bool
  | [] => true
  | (other, p) :: ts => other != name && p.spares name && sparesTails name ts
end

theorem bare_of_ne {name other : String} (differ : (other != name) = true) (s : Span)
    (cs : List Node) : Node.Bare name (.mk (.category other) none s cs) := by
  intro is
  rw [bne_iff_ne] at differ
  rw [Node.is, beq_iff_eq] at is
  exact absurd (Kind.category.inj is) differ

mutual
theorem closes_of_spares {name : String} (p : Pattern Rule) (h : p.spares name = true) :
    p.Closes g (Node.Bare name) fun _ => true := by
  cases p with
  | nothing | last | absent | ahead | sameStatement => trivial
  | token | attached | semicolon => exact fun s _ => rfl
  | rule => rfl
  | both p q | either p q =>
      rw [spares, Bool.and_eq_true] at h
      exact ⟨closes_of_spares p h.1, closes_of_spares q h.2⟩
  | many p => exact closes_of_spares p h
  | bracketed inside p => exact closes_of_spares p h
  | chain p ts =>
      rw [spares, Bool.and_eq_true] at h
      exact ⟨closes_of_spares p h.1, closesTails_of_spares _ ts h.2⟩
  | ending p ts =>
      rw [spares, Bool.and_eq_true] at h
      exact ⟨closes_of_spares p h.1, closesTails_of_spares _ ts h.2⟩
  | node other p =>
      rw [spares, Bool.and_eq_true] at h
      exact ⟨closes_of_spares p h.2, fun c d ns s _ _ => bare_of_ne h.1 s _⟩
  | role r p =>
      refine ⟨closes_of_spares p h, fun c d n ns _ _ bare is => ?_⟩
      rw [Node.children_withRole]
      refine bare ?_
      rwa [Node.is, Node.kind_withRole] at is

theorem closesTails_of_spares {name : String} (head : Pattern Rule)
    (ts : List (String × Pattern Rule)) (h : sparesTails name ts = true) :
    ClosesTails g (Node.Bare name) (fun _ => true) head ts := by
  cases ts with
  | nil => trivial
  | cons t ts =>
      obtain ⟨other, p⟩ := t
      rw [sparesTails, Bool.and_eq_true, Bool.and_eq_true] at h
      exact ⟨closes_of_spares p h.1.2, fun c d e ns s _ _ _ => bare_of_ne h.1.1 s _,
        closesTails_of_spares head ts h.2⟩
end

end Pattern

/-- In a tree without faults the nodes of a category that no rule closes nodes into have no
children. -/
theorem Node.Derived.bare {leaving : Rule → Bool} (frames : g.Framed leaving) {name : String}
    (spared : ∀ r, (g.rules r).spares name = true) {source : List Char} {tree : Node}
    (h : tree.Derived g source) : ∀ n ∈ tree.children, n.Everywhere (Node.Bare name) :=
  h.everywhere frames (fun _ _ _ _ => rfl) (fun r _ => Pattern.closes_of_spares _ (spared r)) rfl

end Restyle.Syntax
