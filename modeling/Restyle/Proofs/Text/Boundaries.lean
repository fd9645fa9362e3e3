import Restyle.Proofs.Text.Cut
/-!
The character boundaries around an offset. An offset inside a text lies on a boundary or strictly
inside one character, and then the boundaries next to it are the two ends of that character.
-/

namespace Restyle.Text

variable {before more cs : List Char} {c : Char} {n : Nat}

theorem isBoundary_append (before after : List Char) :
    isBoundary (byteLength before) (before ++ after) = true :=
  isBoundary_iff.mpr ⟨before, after, rfl, rfl⟩

theorem isBoundary_behind (before : List Char) (c : Char) (more : List Char) :
    isBoundary (byteLength before + c.utf8Size) (before ++ c :: more) = true := by
  refine isBoundary_iff.mpr ⟨before ++ [c], more, by rw [List.append_assoc]; rfl, ?_⟩
  rw [byteLength_append, byteLength_cons, byteLength_nil, Nat.add_zero]

theorem isBoundary_length (cs : List Char) : isBoundary (byteLength cs) cs = true :=
  isBoundary_iff.mpr ⟨cs, [], (List.append_nil cs).symm, rfl⟩

theorem le_of_isBoundary (h : isBoundary n cs = true) : n ≤ byteLength cs := by
  obtain ⟨before, after, rfl, rfl⟩ := isBoundary_iff.mp h
  rw [byteLength_append]
  exact Nat.le_add_right _ _

theorem isBoundary_inside (lower : byteLength before < n)
    (upper : n < byteLength before + c.utf8Size) :
    isBoundary n (before ++ c :: more) = false := by
  rw [Bool.eq_false_iff]
  intro boundary
  obtain ⟨front, back, parts, bytes⟩ := isBoundary_iff.mp boundary
  rw [← bytes] at lower upper
  obtain ⟨between, rfl, rest⟩ := eq_append_of_append_eq parts (Nat.le_of_lt lower)
  rw [byteLength_append] at lower upper
  cases between with
  | nil => exact Nat.lt_irrefl _ lower
  | cons d between =>
      obtain ⟨rfl, -⟩ := List.cons.inj rest
      rw [byteLength_cons] at upper
      omega

/-- An offset inside a text lies between two characters or strictly inside one. -/
theorem exists_cut (inside : n ≤ byteLength cs) :
    ∃ before after, cs = before ++ after ∧
      (byteLength before = n ∨
        ∃ c more, after = c :: more ∧ byteLength before < n ∧
          n < byteLength before + c.utf8Size) := by
  induction cs generalizing n with
  | nil => exact ⟨[], [], rfl, .inl (Nat.le_zero.mp inside).symm⟩
  | cons c cs ih =>
      rcases Nat.lt_or_ge n c.utf8Size with within | behind
      · refine ⟨[], c :: cs, rfl, ?_⟩
        rcases Nat.eq_zero_or_pos n with rfl | further
        · exact .inl rfl
        · exact .inr ⟨c, cs, rfl, further, by rwa [byteLength_nil, Nat.zero_add]⟩
      · rw [byteLength_cons] at inside
        have fewer : n - c.utf8Size ≤ byteLength cs := by omega
        obtain ⟨before, after, rfl, place⟩ := ih fewer
        refine ⟨c :: before, after, rfl, ?_⟩
        rw [byteLength_cons]
        rcases place with here | ⟨d, more, tail, lower, upper⟩
        · exact .inl (by omega)
        · exact .inr ⟨d, more, tail, by omega, by omega⟩

theorem floorBoundary_of_isBoundary (h : isBoundary n cs = true) : floorBoundary cs n = n := by
  cases n with
  | zero => rfl
  | succ n => rw [floorBoundary, if_pos h]

theorem floorBoundary_le (cs : List Char) (n : Nat) : floorBoundary cs n ≤ n := by
  induction n with
  | zero => exact Nat.le_refl 0
  | succ n ih =>
      unfold floorBoundary
      split
      · exact Nat.le_refl _
      · exact Nat.le_succ_of_le ih

theorem floorBoundary_inside (lower : byteLength before ≤ n)
    (upper : n < byteLength before + c.utf8Size) :
    floorBoundary (before ++ c :: more) n = byteLength before := by
  induction n with
  | zero => exact (Nat.le_zero.mp lower).symm
  | succ n ih =>
      rcases Nat.lt_or_eq_of_le lower with further | here
      · rw [floorBoundary, isBoundary_inside further upper, if_neg Bool.false_ne_true,
          ih (Nat.le_of_lt_succ further) (Nat.lt_of_succ_lt upper)]
      · rw [← here, floorBoundary_of_isBoundary (isBoundary_append before _)]

theorem ceilBoundaryWithin_of_isBoundary (h : isBoundary n cs = true) (fuel : Nat) :
    ceilBoundaryWithin cs fuel n = n := by
  cases fuel with
  | zero => rfl
  | succ fuel => rw [ceilBoundaryWithin, if_pos h]

theorem ceilBoundaryWithin_inside {fuel : Nat} (lower : byteLength before < n)
    (upper : n ≤ byteLength before + c.utf8Size)
    (enough : byteLength before + c.utf8Size ≤ n + fuel) :
    ceilBoundaryWithin (before ++ c :: more) fuel n = byteLength before + c.utf8Size := by
  induction fuel generalizing n with
  | zero => exact Nat.le_antisymm upper enough
  | succ fuel ih =>
      rcases Nat.lt_or_eq_of_le upper with nearer | here
      · rw [ceilBoundaryWithin, isBoundary_inside lower nearer, if_neg Bool.false_ne_true,
          ih (Nat.lt_succ_of_lt lower) nearer (by omega)]
      · rw [here, ceilBoundaryWithin_of_isBoundary (isBoundary_behind before c more)]

theorem ceilBoundary_of_isBoundary (h : isBoundary n cs = true) : ceilBoundary cs n = n := by
  obtain ⟨before, after, rfl, rfl⟩ := isBoundary_iff.mp h
  rw [ceilBoundary, if_pos (by rw [byteLength_append]; exact Nat.le_add_right _ _),
    ceilBoundaryWithin_of_isBoundary h]

theorem ceilBoundary_inside (lower : byteLength before < n)
    (upper : n ≤ byteLength before + c.utf8Size) :
    ceilBoundary (before ++ c :: more) n = byteLength before + c.utf8Size := by
  have small : c.utf8Size ≤ 4 := c.utf8Size_le_four
  have inside : n ≤ byteLength (before ++ c :: more) := by
    rw [byteLength_append, byteLength_cons]
    omega
  rw [ceilBoundary, if_pos inside, ceilBoundaryWithin_inside lower upper (by omega)]

theorem le_ceilBoundaryWithin (cs : List Char) (fuel n : Nat) :
    n ≤ ceilBoundaryWithin cs fuel n := by
  induction fuel generalizing n with
  | zero => exact Nat.le_refl n
  | succ fuel ih =>
      unfold ceilBoundaryWithin
      split
      · exact Nat.le_refl n
      · exact Nat.le_of_succ_le (ih (n + 1))

theorem min_le_ceilBoundary (cs : List Char) (n : Nat) :
    min n (byteLength cs) ≤ ceilBoundary cs n := by
  unfold ceilBoundary
  split
  · exact Nat.le_trans (Nat.min_le_left _ _) (le_ceilBoundaryWithin cs 4 n)
  · exact Nat.min_le_right _ _

theorem ceilBoundary_of_lt (h : byteLength cs < n) : ceilBoundary cs n = byteLength cs := by
  rw [ceilBoundary, if_neg (Nat.not_le.mpr h)]

/-- Where a text is cut at the boundary before an offset, the offset is the cut or lies inside the
character behind it. -/
theorem floorBoundary_cut (inside : n ≤ byteLength cs) :
    ∃ before after, cs = before ++ after ∧ byteLength before = floorBoundary cs n ∧
      (byteLength before = n ∨
        ∃ c more, after = c :: more ∧ byteLength before < n ∧
          n < byteLength before + c.utf8Size) := by
  obtain ⟨before, after, rfl, place⟩ := exists_cut inside
  refine ⟨before, after, rfl, ?_, place⟩
  rcases place with rfl | ⟨c, more, rfl, lower, upper⟩
  · exact (floorBoundary_of_isBoundary (isBoundary_append before after)).symm
  · exact (floorBoundary_inside (Nat.le_of_lt lower) upper).symm

/-- Where a text is cut at the boundary after an offset, the offset is the cut or lies inside the
character before it, unless it lies behind the text. -/
theorem ceilBoundary_cut (cs : List Char) (n : Nat) :
    ∃ before after, cs = before ++ after ∧ byteLength before = ceilBoundary cs n ∧
      (byteLength before = min n (byteLength cs) ∨
        ∃ front c, before = front ++ [c] ∧ byteLength front < n ∧ n < byteLength before) := by
  rcases Nat.lt_or_ge (byteLength cs) n with behind | inside
  · refine ⟨cs, [], (List.append_nil cs).symm, (ceilBoundary_of_lt behind).symm, .inl ?_⟩
    exact (Nat.min_eq_right (Nat.le_of_lt behind)).symm
  · rw [Nat.min_eq_left inside]
    obtain ⟨before, after, rfl, rfl | ⟨c, more, rfl, lower, upper⟩⟩ := exists_cut inside
    · have here := ceilBoundary_of_isBoundary (isBoundary_append before after)
      exact ⟨before, after, rfl, here.symm, .inl rfl⟩
    · have longer : byteLength (before ++ [c]) = byteLength before + c.utf8Size := by
        rw [byteLength_append, byteLength_cons, byteLength_nil, Nat.add_zero]
      rw [← longer] at upper
      refine ⟨before ++ [c], more, by rw [List.append_assoc]; rfl, ?_,
        .inr ⟨before, c, rfl, lower, upper⟩⟩
      rw [ceilBoundary_inside lower (by rw [← longer]; exact Nat.le_of_lt upper), longer]

end Restyle.Text
