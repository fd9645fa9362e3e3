import Restyle.Text
/-!
Cutting a text at a byte offset. An offset has a cut exactly where the text falls into two texts of
which the first takes that many bytes, and then there is but one such pair. Spans between such
offsets may lie apart or one within the other.
-/

namespace Restyle.Text

@[simp] theorem byteLength_nil : byteLength [] = 0 := rfl

@[simp] theorem byteLength_cons (c : Char) (cs : List Char) :
    byteLength (c :: cs) = c.utf8Size + byteLength cs := rfl

@[simp] theorem byteLength_append (before after : List Char) :
    byteLength (before ++ after) = byteLength before + byteLength after := by
  induction before with
  | nil => simp only [List.nil_append, byteLength_nil, Nat.zero_add]
  | cons c cs ih => simp only [List.cons_append, byteLength_cons, ih, Nat.add_assoc]

@[simp] theorem byteLength_eq_zero {cs : List Char} : byteLength cs = 0 ↔ cs = [] := by
  cases cs with
  | nil => simp only [byteLength_nil]
  | cons c cs =>
      have positive := c.utf8Size_pos
      simp only [byteLength_cons, reduceCtorEq, iff_false]
      omega

theorem eq_of_append_eq {before after before' after' : List Char}
    (same : before ++ after = before' ++ after') (bytes : byteLength before = byteLength before') :
    before = before' ∧ after = after' := by
  induction before generalizing before' with
  | nil =>
      have empty : before' = [] := byteLength_eq_zero.mp bytes.symm
      subst empty
      exact ⟨rfl, same⟩
  | cons c cs ih =>
      cases before' with
      | nil => exact absurd (byteLength_eq_zero.mp bytes) (List.cons_ne_nil c cs)
      | cons d ds =>
          obtain ⟨rfl, tails⟩ := List.cons.inj same
          have shorter : byteLength cs = byteLength ds := by
            simpa only [byteLength_cons, Nat.add_left_cancel_iff] using bytes
          obtain ⟨rfl, rfl⟩ := ih tails shorter
          exact ⟨rfl, rfl⟩

theorem eq_append_of_append_eq {before after before' after' : List Char}
    (same : before ++ after = before' ++ after') (bytes : byteLength before ≤ byteLength before') :
    ∃ between, before' = before ++ between ∧ after = between ++ after' := by
  rcases List.append_eq_append_iff.mp same with ⟨between, h, h'⟩ | ⟨between, rfl, rfl⟩
  · exact ⟨between, h, h'⟩
  · have none_between : between = [] := by
      apply byteLength_eq_zero.mp
      simp only [byteLength_append] at bytes
      omega
    subst none_between
    exact ⟨[], by simp only [List.append_nil], by simp only [List.nil_append]⟩

@[simp] theorem splitAtByte?_append (before after : List Char) :
    splitAtByte? (byteLength before) (before ++ after) = some (before, after) := by
  induction before with
  | nil => cases after <;> rfl
  | cons c cs ih =>
      have positive := c.utf8Size_pos
      obtain ⟨n, hn⟩ : ∃ n, c.utf8Size + byteLength cs = n + 1 :=
        Nat.exists_eq_succ_of_ne_zero (by omega)
      have fits : c.utf8Size ≤ n + 1 := by omega
      have left : n + 1 - c.utf8Size = byteLength cs := by omega
      simp only [byteLength_cons, hn, List.cons_append, splitAtByte?, if_pos fits, left, ih]

theorem splitAtByte?_sound {n : Nat} {cs before after : List Char}
    (h : splitAtByte? n cs = some (before, after)) :
    cs = before ++ after ∧ byteLength before = n := by
  induction cs generalizing n before after with
  | nil =>
      cases n with
      | zero => cases h; exact ⟨rfl, rfl⟩
      | succ n => cases h
  | cons c cs ih =>
      cases n with
      | zero => cases h; exact ⟨rfl, rfl⟩
      | succ n =>
          by_cases fits : c.utf8Size ≤ n + 1
          · simp only [splitAtByte?, if_pos fits] at h
            cases cut : splitAtByte? (n + 1 - c.utf8Size) cs with
            | none => simp only [cut, reduceCtorEq] at h
            | some p =>
                simp only [cut, Option.some.injEq, Prod.mk.injEq] at h
                obtain ⟨rfl, rfl⟩ := h
                obtain ⟨rfl, bytes⟩ := ih cut
                refine ⟨rfl, ?_⟩
                simp only [byteLength_cons]
                omega
          · simp only [splitAtByte?, if_neg fits, reduceCtorEq] at h

theorem splitAtByte?_eq_some_iff {n : Nat} {cs before after : List Char} :
    splitAtByte? n cs = some (before, after) ↔ cs = before ++ after ∧ byteLength before = n := by
  constructor
  · exact splitAtByte?_sound
  · rintro ⟨rfl, rfl⟩
    exact splitAtByte?_append before after

theorem isBoundary_iff {n : Nat} {cs : List Char} :
    isBoundary n cs = true ↔ ∃ before after, cs = before ++ after ∧ byteLength before = n := by
  unfold isBoundary
  rw [Option.isSome_iff_exists]
  constructor
  · rintro ⟨⟨before, after⟩, h⟩
    exact ⟨before, after, splitAtByte?_sound h⟩
  · rintro ⟨before, after, h⟩
    exact ⟨(before, after), splitAtByte?_eq_some_iff.mpr h⟩

/-- The bytes between two cuts are the text between them. -/
theorem slice_append (before inside after : List Char) :
    slice ⟨byteLength before, byteLength before + byteLength inside⟩ (before ++ (inside ++ after))
      = inside := by
  have ordered : (guard (byteLength before ≤ byteLength before + byteLength inside) : Option Unit)
      = some () := if_pos (Nat.le_add_right _ _)
  rw [slice, slice?, ordered, Option.bind_eq_bind, Option.bind_some,
    splitAtByte?_append before (inside ++ after), Option.bind_eq_bind, Option.bind_some]
  change ((splitAtByte? (byteLength before + byteLength inside - byteLength before)
    (inside ++ after)).bind _).getD [] = inside
  rw [Nat.add_sub_cancel_left, splitAtByte?_append inside after]
  rfl

/-- A range has a text exactly where the source falls into what stands before it, that text and
what stands after it. -/
theorem slice?_eq_some_iff {s : Span} {cs inside : List Char} :
    slice? s cs = some inside ↔
      ∃ before after, cs = before ++ (inside ++ after) ∧ byteLength before = s.start ∧
        byteLength before + byteLength inside = s.stop := by
  unfold slice?
  constructor
  · intro found
    obtain ⟨_, ordered, found⟩ := Option.bind_eq_some_iff.mp found
    obtain ⟨⟨before, rest⟩, first, found⟩ := Option.bind_eq_some_iff.mp found
    obtain ⟨⟨taken, after⟩, second, same⟩ := Option.bind_eq_some_iff.mp found
    cases same
    obtain ⟨rfl, start⟩ := splitAtByte?_sound first
    obtain ⟨rfl, bytes⟩ := splitAtByte?_sound second
    have le : s.start ≤ s.stop := by
      change (if s.start ≤ s.stop then some () else none) = some _ at ordered
      split at ordered
      · assumption
      · cases ordered
    refine ⟨before, after, rfl, start, ?_⟩
    rw [start, bytes]
    exact Nat.add_sub_of_le le
  · rintro ⟨before, after, rfl, start, stop⟩
    have ordered : (guard (s.start ≤ s.stop) : Option Unit) = some () :=
      if_pos (by rw [← start, ← stop]; exact Nat.le_add_right _ _)
    have bytes : s.stop - s.start = byteLength inside := by
      rw [← start, ← stop, Nat.add_sub_cancel_left]
    rw [ordered, ← start, Option.bind_eq_bind, Option.bind_some, splitAtByte?_append,
      Option.bind_eq_bind, Option.bind_some, start]
    dsimp only
    rw [bytes, splitAtByte?_append]
    rfl

theorem slice_eq {source before inside after : List Char} {s : Span}
    (text : source = before ++ (inside ++ after)) (start : s.start = byteLength before)
    (stop : s.stop = byteLength before + byteLength inside) : slice s source = inside := by
  obtain ⟨_, _⟩ := s
  cases start
  cases stop
  rw [text]
  exact slice_append before inside after

theorem slice_zero_append (before after : List Char) :
    slice ⟨0, byteLength before⟩ (before ++ after) = before := by
  simpa only [byteLength_nil, Nat.zero_add, List.nil_append] using slice_append [] before after

theorem slice_of_le {s : Span} (h : s.stop ≤ s.start) (cs : List Char) : slice s cs = [] := by
  have zero : s.stop - s.start = 0 := Nat.sub_eq_zero_of_le h
  cases found : slice? s cs with
  | none => rw [slice, found, Option.getD_none]
  | some inside =>
      have whole := found
      rw [slice?, zero] at whole
      obtain ⟨-, -, whole⟩ := Option.bind_eq_some_iff.mp whole
      obtain ⟨⟨_, after⟩, -, whole⟩ := Option.bind_eq_some_iff.mp whole
      obtain ⟨⟨taken, rest⟩, cut, whole⟩ := Option.bind_eq_some_iff.mp whole
      have nothing : taken = [] := byteLength_eq_zero.mp (splitAtByte?_sound cut).2
      obtain rfl : taken = inside := Option.some.inj whole
      subst nothing
      rw [slice, found, Option.getD_some]

end Restyle.Text

namespace Restyle

/-- One of two spans ends before the other begins. -/
def Span.Apart (a b : Span) : Prop := a.stop ≤ b.start ∨ b.stop ≤ a.start

def Span.Within (a b : Span) : Prop := b.start ≤ a.start ∧ a.stop ≤ b.stop

/-- A span stands between characters of a source. -/
structure Span.Stands (source : List Char) (s : Span) : Prop where
  ordered : s.start ≤ s.stop
  start : Text.isBoundary s.start source = true
  stop : Text.isBoundary s.stop source = true

namespace Span

variable {a b c : Span}

theorem Apart.symm (h : a.Apart b) : b.Apart a := Or.symm h

theorem Apart.of_within {a' b' : Span} (h : a.Apart b) (wa : a'.Within a) (wb : b'.Within b) :
    a'.Apart b' := by
  obtain ⟨_, _⟩ := wa
  obtain ⟨_, _⟩ := wb
  unfold Apart at h ⊢
  omega

theorem Apart.not_both (h : a.Apart b) (extended : c.start < c.stop) (in_a : c.Within a)
    (in_b : c.Within b) : False := by
  obtain ⟨_, _⟩ := in_a
  obtain ⟨_, _⟩ := in_b
  unfold Apart at h
  omega

theorem Within.refl (a : Span) : a.Within a := ⟨Nat.le_refl _, Nat.le_refl _⟩

theorem Within.trans (h : a.Within b) (h' : b.Within c) : a.Within c :=
  ⟨Nat.le_trans h'.1 h.1, Nat.le_trans h.2 h'.2⟩

theorem Stands.parts {source : List Char} (h : a.Stands source) :
    ∃ before inside after, source = before ++ (inside ++ after) ∧
      Text.byteLength before = a.start ∧
      Text.byteLength before + Text.byteLength inside = a.stop := by
  obtain ⟨before, rest, parts, start⟩ := Text.isBoundary_iff.mp h.start
  obtain ⟨both, after, parts', stop⟩ := Text.isBoundary_iff.mp h.stop
  obtain ⟨inside, rfl, rfl⟩ := Text.eq_append_of_append_eq (parts.symm.trans parts')
    (by rw [start, stop]; exact h.ordered)
  rw [Text.byteLength_append] at stop
  exact ⟨before, inside, after, parts, start, stop⟩

theorem Stands.exists_slice {source : List Char} (h : a.Stands source) :
    ∃ text, Text.slice? a source = some text := by
  obtain ⟨before, inside, after, parts⟩ := h.parts
  exact ⟨inside, Text.slice?_eq_some_iff.mpr ⟨before, after, parts⟩⟩

/-- What a span covers does not depend on the text around the one it stands in. -/
theorem Stands.slice_append {source : List Char} (h : a.Stands source) (before after : List Char) :
    Text.slice ⟨a.start + Text.byteLength before, a.stop + Text.byteLength before⟩
      (before ++ (source ++ after)) = Text.slice a source := by
  obtain ⟨first, inside, last, alone, start, stop⟩ := h.parts
  have whole : before ++ (source ++ after) = (before ++ first) ++ (inside ++ (last ++ after)) := by
    rw [alone]
    simp only [List.append_assoc]
  rw [Text.slice_eq alone start.symm stop.symm,
    Text.slice_eq whole (by rw [Text.byteLength_append, start, Nat.add_comm])
      (by rw [Text.byteLength_append, ← stop]; dsimp only; omega)]

end Span

end Restyle
