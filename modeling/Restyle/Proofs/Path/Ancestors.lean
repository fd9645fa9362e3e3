import Restyle.Proofs.Path.Places
/-!
The lexical ancestors of a path. Each parent has one component less, so the way up ends, at the root
for an absolute path and at the empty path for a relative one, and on it every front part of the
components is met.
-/

namespace Restyle.Path

/-- `p.Above q`: `q` is `p`, or is reached from it by going from a path to its parent. -/
inductive Above : Path → Path → Prop
  | refl (p : Path) : Above p p
  | parent {p q r : Path} : p.parent? = some q → Above q r → Above p r

variable {p q r : Path}

theorem dropIdle_eq_nil {ss : List (List Char)} (none_named : named ss = []) :
    dropIdle ss = [] := by
  rw [dropIdle, List.reverse_eq_nil_iff]
  have marked := List.head?_dropWhile_not isIdle ss.reverse
  cases left : ss.reverse.dropWhile isIdle with
  | nil => rfl
  | cons s rest =>
      rw [left] at marked
      have member : s ∈ ss :=
        List.mem_reverse.mp ((List.dropWhile_suffix _).subset (left ▸ List.mem_cons_self))
      have kept : s ∈ ss.filter (!isIdle ·) := List.mem_filter.mpr ⟨member, by
        rw [List.head?_cons] at marked
        exact (congrArg (!·) marked)⟩
      rw [List.map_eq_nil_iff.mp none_named] at kept
      cases kept

theorem exists_parent (some_named : named p.segments ≠ []) : ∃ q, p.parent? = some q := by
  unfold parent?
  cases backwards : (dropIdle p.segments).reverse with
  | cons last before => exact ⟨_, rfl⟩
  | nil =>
      refine absurd ?_ some_named
      rw [← named_dropIdle, List.reverse_eq_nil_iff.mp backwards]
      rfl

theorem parent?_eq_none_iff :
    p.parent? = none ↔ p.components = [] ∨ p.components = [.root] := by
  rw [components_eq]
  by_cases none_named : named p.segments = []
  · rw [parent?, dropIdle_eq_nil none_named, none_named, List.append_nil]
    by_cases dot : p.head = ['.']
    · simp [dot, headComponents]
    · have no_dot : (p.head == ['.']) = false := beq_eq_false_iff_ne.mpr dot
      refine iff_of_true (if_neg (by rw [no_dot]; exact Bool.false_ne_true)) ?_
      unfold headComponents
      split
      · exact .inr rfl
      · rename_i same
        exact absurd same dot
      · exact .inl rfl
  · obtain ⟨q, parent⟩ := exists_parent none_named
    rw [parent]
    refine iff_of_false (Option.some_ne_none q) ?_
    rintro (none_left | root)
    · exact none_named (List.append_eq_nil_iff.mp none_left).2
    · rcases List.append_eq_singleton_iff.mp root with ⟨-, later⟩ | ⟨-, none_left⟩
      · have member : Component.root ∈ named p.segments := by
          rw [later]
          exact List.mem_cons_self
        exact root_not_mem_named _ member
      · exact none_named none_left

theorem length_components_of_parent? (h : p.parent? = some q) :
    q.components.length + 1 = p.components.length := by
  have some_component : p.components ≠ [] := fun none_left => by
    rw [parent?_eq_none_iff.mpr (.inl none_left)] at h
    cases h
  rw [components_of_parent? h, List.length_dropLast]
  exact Nat.sub_add_cancel (List.length_pos_iff.mpr some_component)

theorem isAbsolute_of_parent? (h : p.parent? = some q) : q.isAbsolute = p.isAbsolute := by
  rw [Bool.eq_iff_iff, ← root_mem_components_iff, ← root_mem_components_iff,
    components_of_parent? h]
  refine ⟨fun root => (List.dropLast_subset _) root, fun root => ?_⟩
  obtain ⟨t, parts⟩ := components_of_absolute (root_mem_components_iff.mp root)
  rw [parts]
  cases left : named (split t) with
  | nil =>
      rw [left] at parts
      rw [parent?_eq_none_iff.mpr (.inr parts)] at h
      cases h
  | cons c cs => exact List.mem_cons_self

theorem above_iff : p.Above r ↔ r = p ∨ ∃ q, p.parent? = some q ∧ q.Above r := by
  constructor
  · intro above
    cases above with
    | refl p => exact .inl rfl
    | parent up later => exact .inr ⟨_, up, later⟩
  · rintro (rfl | ⟨q, up, later⟩)
    · exact .refl r
    · exact .parent up later

theorem Above.front (h : p.Above q) : q.components <+: p.components := by
  induction h with
  | refl p => exact List.prefix_rfl
  | parent up later ih =>
      rw [components_of_parent? up] at ih
      exact ih.trans (List.dropLast_prefix _)

theorem Above.isAbsolute_eq (h : p.Above q) : q.isAbsolute = p.isAbsolute := by
  induction h with
  | refl p => rfl
  | parent up later ih => exact ih.trans (isAbsolute_of_parent? up)

theorem Above.eq_or_length_lt (h : p.Above q) :
    q = p ∨ q.components.length < p.components.length := by
  cases h with
  | refl p => exact .inl rfl
  | parent up later =>
      have shorter := length_components_of_parent? up
      have front := later.front.length_le
      exact .inr (by omega)

/-- The components of what is above a path are the front parts of its own, without the empty one
where the path is absolute. -/
theorem exists_above_iff {cs : List Component} :
    (∃ q, p.Above q ∧ q.components = cs) ↔
      cs <+: p.components ∧ (p.isAbsolute = true → cs ≠ []) := by
  constructor
  · rintro ⟨q, above, rfl⟩
    refine ⟨above.front, fun absolute none_left => ?_⟩
    rw [← above.isAbsolute_eq, ← root_mem_components_iff, none_left] at absolute
    cases absolute
  · rintro ⟨front, some_left⟩
    induction length : p.components.length generalizing p with
    | zero =>
        have none_left := List.length_eq_zero_iff.mp length
        rw [none_left] at front
        exact ⟨p, .refl p, none_left.trans (List.prefix_nil.mp front).symm⟩
    | succ n ih =>
        by_cases whole : cs = p.components
        · exact ⟨p, .refl p, whole.symm⟩
        · have some_component : p.components ≠ [] := List.ne_nil_of_length_eq_add_one length
          have shorter : cs <+: p.components.dropLast := by
            rw [← List.dropLast_concat_getLast some_component] at front whole
            exact (List.prefix_concat_iff.mp front).resolve_left whole
          cases up : p.parent? with
          | none =>
              have root := (parent?_eq_none_iff.mp up).resolve_left some_component
              have absolute : p.isAbsolute = true := by
                rw [← root_mem_components_iff, root]
                exact List.mem_cons_self
              rw [root] at shorter
              exact absurd (List.prefix_nil.mp shorter) (some_left absolute)
          | some q =>
              have less := length_components_of_parent? up
              rw [← components_of_parent? up] at shorter
              rw [← isAbsolute_of_parent? up] at some_left
              obtain ⟨r, above, parts⟩ := ih shorter some_left (by omega)
              exact ⟨r, .parent up above, parts⟩

theorem ancestorsWithin_succ (n : Nat) (p : Path) :
    ancestorsWithin (n + 1) p = p :: (p.parent?.map (ancestorsWithin n)).getD [] := by
  rw [ancestorsWithin]
  cases p.parent? <;> rfl

/-- As many steps as there are components are enough to come to the end of the way up. -/
theorem ancestorsWithin_of_lt {m n : Nat} (enough : p.components.length < m)
    (enough' : p.components.length < n) : ancestorsWithin m p = ancestorsWithin n p := by
  induction m generalizing n p with
  | zero => cases enough
  | succ m ih =>
      cases n with
      | zero => cases enough'
      | succ n =>
          rw [ancestorsWithin_succ, ancestorsWithin_succ]
          cases up : p.parent? with
          | none => rfl
          | some q =>
              have shorter := length_components_of_parent? up
              rw [Option.map_some, Option.map_some, ih (n := n) (by omega) (by omega)]

theorem length_split_le (cs : List Char) : (split cs).length ≤ cs.length + 1 := by
  induction cs with
  | nil => exact Nat.le_refl 1
  | cons c cs ih =>
      by_cases slash : c = '/'
      · rw [slash, split_slash]
        exact Nat.succ_le_succ ih
      · obtain ⟨s, ss, parts⟩ := split_eq_cons cs
        rw [split_cons_of_ne slash parts]
        rw [parts] at ih
        exact Nat.le_succ_of_le ih

theorem length_headComponents_le (h : List Char) : (headComponents h).length ≤ h.length := by
  unfold headComponents
  split
  · exact Nat.le_refl 1
  · exact Nat.le_refl 1
  · exact Nat.zero_le _

theorem length_components_le (p : Path) : p.components.length ≤ p.text.length + 1 := by
  have head := length_headComponents_le p.head
  have named_segments : (named p.segments).length ≤ p.segments.length := by
    rw [named, List.length_map]
    exact List.length_filter_le _ _
  have segments := length_split_le (p.text.toList.drop (headLength p.text.toList))
  have text : p.head.length + (p.text.toList.drop (headLength p.text.toList)).length
      = p.text.length := by
    rw [← String.length_toList, ← List.length_append]
    exact congrArg List.length (List.take_append_drop _ _)
  rw [components_eq, List.length_append]
  have parts : p.segments.length ≤ (p.text.toList.drop (headLength p.text.toList)).length + 1 :=
    segments
  omega

theorem ancestors_eq {n : Nat} (enough : p.components.length < n) :
    ancestorsWithin n p = p.ancestors :=
  ancestorsWithin_of_lt enough (Nat.lt_succ_of_le (length_components_le p))

theorem mem_ancestorsWithin_iff {n : Nat} (enough : p.components.length < n) :
    q ∈ ancestorsWithin n p ↔ p.Above q := by
  induction n generalizing p with
  | zero => cases enough
  | succ n ih =>
      rw [ancestorsWithin_succ, List.mem_cons, above_iff]
      cases up : p.parent? with
      | none => simp
      | some r =>
          have shorter := length_components_of_parent? up
          simp [ih (p := r) (by omega)]

theorem mem_ancestors_iff : q ∈ p.ancestors ↔ p.Above q := by
  rw [← ancestors_eq (Nat.lt_succ_self _)]
  exact mem_ancestorsWithin_iff (Nat.lt_succ_self _)

/-- The first ancestor with a property is the nearest one: all others with it are above it. -/
theorem above_of_find? {P : Path → Bool} {n : Nat}
    (found : (ancestorsWithin n p).find? P = some q) (enough : p.components.length < n)
    (above : p.Above r) (holds : P r = true) : q.Above r := by
  induction n generalizing p with
  | zero => cases enough
  | succ n ih =>
      rw [ancestorsWithin_succ, List.find?_cons] at found
      split at found
      · cases found
        exact above
      · rename_i other
        rcases above_iff.mp above with rfl | ⟨parent, up, later⟩
        · rw [holds] at other
          cases other
        · have shorter := length_components_of_parent? up
          rw [up] at found
          exact ih found (by omega) later

end Restyle.Path
