import Restyle.Proofs.Syntax.Moved
/-!
What stands before a first token. A pattern that begins with a token is read with blanks and
comments before it as without them: its nodes are the same, moved, and the comments stay outside.
-/

namespace Restyle.Syntax

open Text (byteLength byteLength_append)

variable {Rule : Type} {g : Grammar Rule} {size : Nat}

theorem pos_of_commentAhead? {c : Cursor} {found : String × Nat}
    (h : commentAhead? g c = some found) : 0 < found.2 := by
  unfold commentAhead? at h
  split at h
  · cases h
    exact Nat.succ_pos _
  · split at h
    · cases h
    · cases h
      exact Nat.succ_pos _
  · cases h

/-- The fuel for blanks and comments does not matter where there is one for each character. -/
theorem passTrivia_enough {fuel fuel' : Nat} {c : Cursor} (enough : c.rest.length < fuel)
    (enough' : c.rest.length < fuel') : passTrivia g [] fuel c = passTrivia g [] fuel' c := by
  induction fuel generalizing fuel' c with
  | zero => exact absurd enough (Nat.not_lt_zero _)
  | succ fuel ih =>
      obtain ⟨fuel', rfl⟩ := Nat.exists_eq_succ_of_ne_zero (Nat.ne_zero_of_lt enough')
      unfold passTrivia
      simp only [skipAt?, List.findSome?_nil]
      cases ahead : c.rest with
      | nil => rfl
      | cons ch rest =>
          rw [ahead, List.length_cons] at enough enough'
          have shorter : rest.length < fuel := Nat.lt_of_succ_lt_succ enough
          have shorter' : rest.length < fuel' := Nat.lt_of_succ_lt_succ enough'
          dsimp only
          by_cases blank : g.isBlank ch = true
          · rw [if_pos blank, if_pos blank]
            exact ih shorter shorter'
          · rw [if_neg blank, if_neg blank]
            cases comment : commentAhead? g c with
            | none => rfl
            | some found =>
                have some_ := pos_of_commentAhead? comment
                have left : (c.advance found.2).rest.length ≤ rest.length := by
                  simp only [Cursor.advance, ahead, List.length_drop, List.length_cons]
                  omega
                exact ih (Nat.lt_of_le_of_lt left shorter) (Nat.lt_of_le_of_lt left shorter')

theorem passTrivia_blanks {blanks rest : List Char} (blank : ∀ b ∈ blanks, g.isBlank b = true)
    {o : Nat} {st : List Node} (long : (blanks ++ rest).length < size) :
    passTrivia g [] size (.plain (blanks ++ rest) o st) =
      passTrivia g [] size (.plain rest (o + byteLength blanks) st) := by
  induction blanks generalizing o with
  | nil => rfl
  | cons b blanks ih =>
      obtain ⟨first, others⟩ := List.forall_mem_cons.mp blank
      have shorter : (blanks ++ rest).length < size := Nat.lt_of_succ_lt long
      obtain ⟨n, rfl⟩ := Nat.exists_eq_succ_of_ne_zero (Nat.ne_zero_of_lt long)
      have one : passTrivia g [] (n + 1) (.plain (b :: blanks ++ rest) o st) =
          passTrivia g [] n (.plain (blanks ++ rest) (o + b.utf8Size) st) := by
        conv => lhs; unfold passTrivia
        simp only [skipAt?, List.findSome?_nil, Cursor.amid, List.cons_append, first, if_true]
      have enough : (blanks ++ rest).length < n := Nat.lt_of_succ_lt_succ long
      rw [one, passTrivia_enough enough shorter, ih others shorter, Text.byteLength_cons,
        Nat.add_assoc]

theorem passTrivia_comment {text rest : List Char} (some_ : text ≠ [])
    (mark : text.head?.all (!g.isBlank ·) = true) (scan : g.comment (text ++ rest) = text.length)
    {o : Nat} {st : List Node} (long : (text ++ rest).length < size) :
    passTrivia g [] size (.plain (text ++ rest) o st) =
      passTrivia g [] size (.plain rest (o + byteLength text)
        (commentAt "comment" ⟨o, o + byteLength text⟩ :: st)) := by
  obtain ⟨ch, cs, rfl⟩ := List.exists_cons_of_ne_nil some_
  obtain ⟨n, rfl⟩ := Nat.exists_eq_succ_of_ne_zero (Nat.ne_zero_of_lt long)
  have solid : g.isBlank ch = false := by simpa using mark
  have shorter : rest.length < n := by
    simp only [List.length_cons, List.length_append] at long
    omega
  have passed : (Cursor.plain (ch :: cs ++ rest) o st).advance (ch :: cs).length =
      .plain rest (o + byteLength (ch :: cs)) st := by
    simp only [Cursor.advance, Cursor.amid, List.drop_left, List.take_left]
  have one : passTrivia g [] (n + 1) (.plain (ch :: cs ++ rest) o st) =
      passTrivia g [] n (.plain rest (o + byteLength (ch :: cs))
        (commentAt "comment" ⟨o, o + byteLength (ch :: cs)⟩ :: st)) := by
    have ahead : (Cursor.plain (ch :: cs ++ rest) o st).rest = ch :: (cs ++ rest) := rfl
    conv => lhs; unfold passTrivia
    have found : commentAhead? g (.plain (ch :: cs ++ rest) o st) =
        some ("comment", (ch :: cs).length) := by
      unfold commentAhead?
      rw [ahead, ← List.cons_append, scan, List.length_cons]
    simp only [skipAt?, List.findSome?_nil, ahead, solid, Bool.false_eq_true, if_false, found]
    rw [passed]
    rfl
  rw [one, passTrivia_enough shorter (Nat.lt_succ_of_lt shorter)]

/-- A check that every alternative of a pattern begins with a token. -/
def leads (g : Grammar Rule) : Nat → Pattern Rule → Bool
  | 0, _ => false
  | fuel + 1, p =>
    match p with
    | .token _ => true
    | .both (.absent p) q => leads g fuel p && leads g fuel q
    | .both p _ | .chain p _ | .node _ p => leads g fuel p
    | .either p q => leads g fuel p && leads g fuel q
    | .rule r => leads g fuel (g.rules r)
    | _ => false

section

variable {k : Nat} {before xs : List Node} {b c : Cursor}

/-- At `c` stands what stands at `b`, with more blanks and comments before it: behind these the
reader is where it is behind those at `b`, moved, with the comments below. -/
structure Preceded (g : Grammar Rule) (size k : Nat) (xs before : List Node) (b c : Cursor) :
    Prop where
  bottom : b.stack = []
  counted : b.Counted
  height : c.height = before.length
  supply : c.supply = b.supply
  extras : ∀ x ∈ xs, Cursor.isExtra x = true
  passed : passTrivia g [] size c = (passTrivia g [] size b).moved k (xs ++ before)

theorem Preceded.height_eq (h : Preceded g size k xs before b c) : b.height = 0 := by
  rw [h.counted, h.bottom, List.length_nil]

theorem Preceded.closes (h : Preceded g size k xs before b c) :
    Closes k (xs ++ before) b.height c.height := by
  intro d name counted _
  rw [h.height, h.height_eq]
  exact Cursor.close_moved_extras counted h.extras name

/-- What begins with a token is read with more blanks and comments before it as without them, and is
absent from both places or from none. The induction is on the fuel, over both. -/
theorem reading_preceded (steady : ∀ r, (g.rules r).steady = true)
    (h : Preceded g size k xs before b c) (fuel : Nat) :
    (∀ p j boundaries boundaries' f f', leads g j p = true → p.steady = true →
      Carried k (xs ++ before) b.height (read g [] size fuel p boundaries b f)
        (read g [] size fuel p boundaries' c f')) ∧
    (∀ p j boundaries boundaries' f f', leads g j p = true → p.steady = true →
      ((read g [] size fuel (.absent p) boundaries b f).1 = none ∧
        (read g [] size fuel (.absent p) boundaries' c f').1 = none) ∨
      ((read g [] size fuel (.absent p) boundaries b f).1 = some b ∧
        (read g [] size fuel (.absent p) boundaries' c f').1 = some c)) := by
  induction fuel with
  | zero =>
      refine ⟨?_, ?_⟩
      · intro p j boundaries boundaries' f f' _ _
        exact .none f f'
      · intro p j boundaries boundaries' f f' _ _
        exact .inl ⟨rfl, rfl⟩
  | succ fuel ih =>
      obtain ⟨ih, ihAbsent⟩ := ih
      refine ⟨?_, ?_⟩
      · intro p j boundaries boundaries' f f' first own
        cases j with
        | zero => cases first
        | succ j =>
          cases p with
          | token l =>
              obtain ⟨counted, le⟩ := passTrivia_counted (g := g) size h.counted
              simp only [read, h.passed]
              exact readToken_carried l h.supply counted le boundaries boundaries' f f'
          | both p q =>
              rw [Pattern.steady, Bool.and_eq_true] at own
              simp only [read]
              by_cases test : ∃ t, p = .absent t
              · obtain ⟨t, rfl⟩ := test
                rw [leads, Bool.and_eq_true] at first
                rcases ihAbsent t j boundaries boundaries' f f' first.1 own.1 with
                  ⟨stopped, stopped'⟩ | ⟨unmoved, unmoved'⟩
                · obtain ⟨f₁, stopped⟩ := exists_frontier stopped
                  obtain ⟨f₂, stopped'⟩ := exists_frontier stopped'
                  rw [stopped, stopped']
                  exact .none f₁ f₂
                · obtain ⟨f₁, unmoved⟩ := exists_frontier unmoved
                  obtain ⟨f₂, unmoved'⟩ := exists_frontier unmoved'
                  rw [unmoved, unmoved']
                  exact ih q j _ _ f₁ f₂ first.2 own.2
              · have leading : leads g j p = true := by
                  rwa [leads.eq_4 _ _ _ _ fun t same => test ⟨t, same⟩] at first
                refine (ih p j _ _ f f' leading own.1).andThen fun d f f' counted le => ?_
                exact ((reading_moved steady fuel).1 q d _ _ f f' own.2 counted).mono le
          | either p q =>
              rw [Pattern.steady, Bool.and_eq_true] at own
              rw [leads, Bool.and_eq_true] at first
              simp only [read]
              exact (ih p j _ _ f f' first.1 own.1).orElse
                (fun d f f' counted le => .some counted le f f')
                fun f f' => ih q j _ _ f f' first.2 own.2
          | chain head tails =>
              rw [Pattern.steady, Bool.and_eq_true] at own
              rw [leads] at first
              simp only [read]
              refine (ih head j _ _ f f' first own.1).andThen fun d f f' counted le => ?_
              exact (reading_moved steady fuel).2.1 tails _ _ d _ _ f f' own.2 h.closes counted le
          | rule r =>
              rw [leads] at first
              simp only [read]
              refine (ih (g.rules r) j _ _ f f' first (steady r)).andThen
                fun d f f' counted le => ?_
              exact .some (d := { d.settle with operand := d.operand || g.isOperand r })
                counted le f f'
          | node name p =>
              rw [Pattern.steady] at own
              rw [leads] at first
              simp only [read]
              refine (ih p j _ _ f f' first own).andThen fun d f f' counted le => ?_
              obtain ⟨counted', le'⟩ := counted.close le name
              rw [h.closes d name counted le]
              exact .some counted' le' f f'
          | nothing | attached l | many p | ending p ts | last test | role r p | absent p
          | ahead test | semicolon | sameStatement | bracketed inside p => cases first
      · intro p j boundaries boundaries' f f' first own
        have carried := ih p j boundaries boundaries' .none .none first own
        simp only [read]
        generalize read g [] size fuel p boundaries b .none = here at carried ⊢
        generalize read g [] size fuel p boundaries' c .none = there at carried ⊢
        cases carried with
        | none => exact .inr ⟨rfl, rfl⟩
        | some => exact .inl ⟨rfl, rfl⟩

/-- Without repairs, and given enough fuel: the answer there is the answer here, moved. -/
theorem Answers.preceded {p : Pattern Rule} {n j : Nat} {r : Option Cursor}
    (steady : ∀ r, (g.rules r).steady = true) (own : p.steady = true) (first : leads g j p = true)
    (h : Preceded g size k xs before b c) (here : Answers g size n p b r) :
    Answers g size n p c (r.map (Cursor.moved k (xs ++ before))) := by
  intro fuel boundaries f enough
  have carried := (reading_preceded steady h fuel).1 p j boundaries boundaries f f first own
  rw [carried.fst, here fuel boundaries f enough]

end

end Restyle.Syntax
