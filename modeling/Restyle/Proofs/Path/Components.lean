import Mathlib.Data.List.Induction
import Restyle.Path
/-!
The components of paths that are put together: of a path below another, of the parent of a path, and
of a path without dots. Paths with the same components may be written differently, but their file
names, and the stems and extensions of these, are the same.
-/

namespace Restyle.Path

section Same

variable {p q : Path}

theorem same_iff : p.same q = true ↔ p.components = q.components := by
  rw [same, beq_iff_eq]

@[simp] theorem same_refl (p : Path) : p.same p = true := same_iff.mpr rfl

theorem same_comm (p q : Path) : p.same q = q.same p := by
  rw [Bool.eq_iff_iff, same_iff, same_iff]
  exact eq_comm

theorem same_congr (h : p.same q = true) (r : Path) : r.same p = r.same q := by
  rw [same, same, same_iff.mp h]

theorem fileName?_congr (h : p.same q = true) : p.fileName? = q.fileName? := by
  rw [fileName?, fileName?, same_iff.mp h]

theorem stem?_congr (h : p.same q = true) : p.stem? = q.stem? := by
  rw [stem?, stem?, fileName?_congr h]

end Same

theorem split_eq_cons (cs : List Char) : ∃ s ss, split cs = s :: ss := by
  cases cs with
  | nil => exact ⟨[], [], rfl⟩
  | cons c cs =>
      unfold split
      split
      · exact ⟨[], split cs, rfl⟩
      · split
        · exact ⟨_, _, rfl⟩
        · exact ⟨_, _, rfl⟩

theorem split_slash (cs : List Char) : split ('/' :: cs) = [] :: split cs := rfl

theorem split_cons_of_ne {c : Char} (other : c ≠ '/') {cs s : List Char} {ss : List (List Char)}
    (h : split cs = s :: ss) : split (c :: cs) = (c :: s) :: ss := by
  have differs : (c == '/') = false := beq_eq_false_iff_ne.mpr other
  simp only [split, differs, Bool.false_eq_true, if_false, h]

theorem split_append (a b : List Char) : split (a ++ '/' :: b) = split a ++ split b := by
  induction a with
  | nil => rfl
  | cons c a ih =>
      by_cases slash : c = '/'
      · subst slash
        rw [List.cons_append, split_slash, split_slash, ih, List.cons_append]
      · obtain ⟨s, ss, h⟩ := split_eq_cons a
        rw [h, List.cons_append] at ih
        rw [List.cons_append, split_cons_of_ne slash ih, split_cons_of_ne slash h, List.cons_append]

theorem split_of_not_mem {s : List Char} (h : '/' ∉ s) : split s = [s] := by
  induction s with
  | nil => rfl
  | cons c s ih =>
      rw [List.mem_cons, not_or] at h
      exact split_cons_of_ne (Ne.symm h.1) (ih h.2)

theorem not_mem_of_mem_split {cs s : List Char} (h : s ∈ split cs) : '/' ∉ s := by
  induction cs generalizing s with
  | nil =>
      rw [split, List.mem_singleton] at h
      rw [h]
      exact List.not_mem_nil
  | cons c cs ih =>
      by_cases slash : c = '/'
      · subst slash
        rcases List.mem_cons.mp h with rfl | h
        · exact List.not_mem_nil
        · exact ih h
      · obtain ⟨t, ts, parts⟩ := split_eq_cons cs
        rw [split_cons_of_ne slash parts] at h
        rw [parts] at ih
        rcases List.mem_cons.mp h with rfl | h
        · rw [List.mem_cons, not_or]
          exact ⟨Ne.symm slash, ih List.mem_cons_self⟩
        · exact ih (List.mem_cons_of_mem t h)

theorem split_join {ss : List (List Char)} (some_segment : ss ≠ []) (h : ∀ s ∈ ss, '/' ∉ s) :
    split (join ss) = ss := by
  induction ss with
  | nil => exact absurd rfl some_segment
  | cons s ss ih =>
      have here := split_of_not_mem (h s List.mem_cons_self)
      cases ss with
      | nil => exact here
      | cons t ts =>
          rw [join, split_append, here, ih (List.cons_ne_nil t ts)
            fun u hu => h u (List.mem_cons_of_mem s hu)]
          · rfl
          · exact List.cons_ne_nil t ts

def named (ss : List (List Char)) : List Component := (ss.filter (!isIdle ·)).map componentOf

theorem named_append (ss ts : List (List Char)) : named (ss ++ ts) = named ss ++ named ts := by
  rw [named, List.filter_append, List.map_append]
  rfl

theorem named_of_idle {s : List Char} (h : isIdle s = true) (ss : List (List Char)) :
    named (s :: ss) = named ss := by
  rw [named, List.filter_cons_of_neg (by rw [h]; exact Bool.false_ne_true)]
  rfl

theorem named_dropIdle (ss : List (List Char)) : named (dropIdle ss) = named ss := by
  induction ss using List.reverseRecOn with
  | nil => rfl
  | append_singleton ss s ih =>
      unfold dropIdle at ih ⊢
      rw [List.reverse_append, List.reverse_singleton, List.singleton_append]
      cases idle : isIdle s with
      | true => rw [List.dropWhile_cons_of_pos idle, ih, named_append, named_of_idle idle]
                exact (List.append_nil _).symm
      | false =>
          rw [List.dropWhile_cons_of_neg (by rw [idle]; exact Bool.false_ne_true),
            List.reverse_cons, List.reverse_reverse]

def headComponents : List Char → List Component
  | ['/'] => [.root]
  | ['.'] => [.current]
  | _ => []

theorem components_eq (p : Path) : p.components = headComponents p.head ++ named p.segments := by
  unfold components headComponents
  rfl

theorem components_of_text {t : List Char} {p : Path} (text : p.text.toList = t) :
    p.components
      = headComponents (t.take (headLength t)) ++ named (split (t.drop (headLength t))) := by
  rw [components_eq, head, segments, text]

/-- Names that a component can have. -/
structure IsName (s : String) : Prop where
  no_slash : '/' ∉ s.toList
  not_idle : isIdle s.toList = false
  not_parent : s.toList ≠ ['.', '.']

instance (s : String) : Decidable (IsName s) :=
  decidable_of_iff ('/' ∉ s.toList ∧ isIdle s.toList = false ∧ s.toList ≠ ['.', '.'])
    ⟨fun h => ⟨h.1, h.2.1, h.2.2⟩, fun h => ⟨h.no_slash, h.not_idle, h.not_parent⟩⟩

theorem named_split_name {s : String} (h : IsName s) : named (split s.toList) = [.name s] := by
  have no_parent : (s.toList == ['.', '.']) = false := beq_eq_false_iff_ne.mpr h.not_parent
  rw [split_of_not_mem h.no_slash, named, List.filter_cons_of_pos (by rw [h.not_idle]; rfl),
    List.filter_nil, List.map_singleton, componentOf, no_parent]
  simp only [Bool.false_eq_true, if_false, String.ofList_toList]

theorem headLength_append {t u : List Char} (some_char : t ≠ [])
    (joint : t.getLast? = some '/' ∨ u.head? = some '/') : headLength (t ++ u) = headLength t := by
  cases t with
  | nil => exact absurd rfl some_char
  | cons c t =>
      by_cases slash : c = '/'
      · subst slash
        rfl
      · by_cases dot : c = '.'
        · subst dot
          cases t with
          | nil =>
              rcases joint with last | next
              · cases last
              · cases u with
                | nil => cases next
                | cons d u =>
                    cases next
                    rfl
          | cons d t =>
              by_cases second : d = '/'
              · subst second
                rfl
              · simp [headLength, second]
        · simp [headLength, slash, dot]

theorem headLength_le (t : List Char) : headLength t ≤ t.length := by
  unfold headLength
  split
  · simp
  · exact Nat.le_refl 1
  · simp
  · exact Nat.zero_le _

theorem named_split_slash (v : List Char) : named (split (v ++ ['/'])) = named (split v) := by
  rw [split_append, named_append]
  exact List.append_nil _

theorem drop_head_slash (v : List Char) :
    (v ++ ['/']).drop (headLength (v ++ ['/'])) = []
      ∨ ∃ u, (v ++ ['/']).drop (headLength (v ++ ['/'])) = u ++ ['/'] := by
  cases v with
  | nil => exact .inl rfl
  | cons c v =>
      right
      have few : headLength (c :: v ++ ['/']) ≤ (c :: v).length := by
        unfold headLength
        split
        · simp
        · simp
        · simp
        · exact Nat.zero_le _
      exact ⟨(c :: v).drop (headLength (c :: v ++ ['/'])), List.drop_append_of_le_length few⟩

theorem toList_push_of_slash {p q : Path} (relative : q.isAbsolute = false)
    (last : p.text.toList.getLast? = some '/') :
    (p.push q).text.toList = p.text.toList ++ q.text.toList := by
  simp only [push, relative, Bool.false_eq_true, if_false, last, beq_self_eq_true, Bool.or_true,
    if_true, String.toList_append]

theorem toList_push_of_other {p q : Path} (relative : q.isAbsolute = false)
    (some_text : p.text.toList ≠ []) (other : p.text.toList.getLast? ≠ some '/') :
    (p.push q).text.toList = p.text.toList ++ '/' :: q.text.toList := by
  have not_empty : p.text.toList.isEmpty = false := List.isEmpty_eq_false_iff.mpr some_text
  have no_slash : (p.text.toList.getLast? == some '/') = false := beq_eq_false_iff_ne.mpr other
  simp only [push, relative, Bool.false_eq_true, if_false, not_empty, no_slash, Bool.or_self,
    String.toList_append]
  rw [List.append_assoc]
  rfl

/-- Below a path that is not empty, a relative path adds what its segments name. -/
theorem components_push {p q : Path} (some_text : p.text.toList ≠ [])
    (relative : q.isAbsolute = false) :
    (p.push q).components = p.components ++ named (split q.text.toList) := by
  by_cases last : p.text.toList.getLast? = some '/'
  · rw [components_of_text (toList_push_of_slash relative last), components_of_text rfl,
      headLength_append some_text (.inl last),
      List.take_append_of_le_length (headLength_le _), List.drop_append_of_le_length (headLength_le _),
      List.append_assoc]
    congr 1
    obtain ⟨v, c, ends⟩ := (List.eq_nil_or_concat p.text.toList).resolve_left some_text
    rw [List.concat_eq_append] at ends
    rw [ends, List.getLast?_concat, Option.some.injEq] at last
    subst last
    rw [ends]
    rcases drop_head_slash v with none_left | ⟨u, left⟩
    · rw [none_left]
      rfl
    · rw [left, List.append_assoc, List.singleton_append, split_append, named_append,
        named_split_slash]
  · rw [components_of_text (toList_push_of_other relative some_text last), components_of_text rfl,
      headLength_append some_text (.inr rfl),
      List.take_append_of_le_length (headLength_le _), List.drop_append_of_le_length (headLength_le _),
      split_append, named_append, List.append_assoc]

theorem push_of_empty {p : Path} (no_text : p.text.toList = []) (q : Path) : p.push q = q := by
  unfold push
  split
  · rfl
  · have empty : p.text = "" := String.toList_injective no_text
    simp [empty]

theorem components_of_empty {p : Path} (no_text : p.text.toList = []) : p.components = [] :=
  components_of_text no_text

theorem IsName.relative {s : String} (h : IsName s) : (⟨s⟩ : Path).isAbsolute = false := by
  rw [isAbsolute, beq_eq_false_iff_ne]
  intro first
  exact h.no_slash (List.mem_of_mem_head? first)

theorem IsName.headLength_eq {s : String} (h : IsName s) : headLength s.toList = 0 := by
  have no_slash := h.no_slash
  have not_idle := h.not_idle
  unfold headLength
  split
  · rename_i text
    rw [text] at no_slash
    exact absurd List.mem_cons_self no_slash
  · rename_i text
    rw [text] at not_idle
    cases not_idle
  · rename_i text
    rw [text] at no_slash
    exact absurd (List.mem_cons_of_mem _ List.mem_cons_self) no_slash
  · rfl

theorem IsName.components {s : String} (h : IsName s) : (⟨s⟩ : Path).components = [.name s] := by
  rw [components_of_text (p := ⟨s⟩) rfl, h.headLength_eq, List.drop_zero, named_split_name h]
  rfl

theorem components_push_name {s : String} (h : IsName s) (p : Path) :
    (p.push ⟨s⟩).components = p.components ++ [.name s] := by
  by_cases no_text : p.text.toList = []
  · rw [push_of_empty no_text, components_of_empty no_text, h.components]
    rfl
  · rw [components_push no_text h.relative]
    exact congrArg _ (named_split_name h)

theorem components_foldl_push {names : List String} (h : ∀ s ∈ names, IsName s) (p : Path) :
    (names.foldl (fun p s => p.push ⟨s⟩) p).components = p.components ++ names.map .name := by
  induction names generalizing p with
  | nil => exact (List.append_nil _).symm
  | cons s names ih =>
      rw [List.foldl_cons, ih (fun t ht => h t (List.mem_cons_of_mem s ht)),
        components_push_name (h s List.mem_cons_self), List.append_assoc]
      rfl

theorem headLength_of_ne {c : Char} (no_slash : c ≠ '/') {t : List Char}
    (no_dot : c = '.' → ∃ d u, t = d :: u ∧ d ≠ '/') : headLength (c :: t) = 0 := by
  by_cases dot : c = '.'
  · obtain ⟨d, u, rfl, other⟩ := no_dot dot
    subst dot
    simp [headLength, other]
  · simp [headLength, no_slash, dot]

theorem headLength_cases (t : List Char) :
    (∃ r, t = '/' :: r) ∨ t = ['.'] ∨ (∃ r, t = '.' :: '/' :: r) ∨ t = []
      ∨ ∃ c r, t = c :: r ∧ c ≠ '/' ∧ (c = '.' → ∃ d u, r = d :: u ∧ d ≠ '/') := by
  cases t with
  | nil => exact .inr (.inr (.inr (.inl rfl)))
  | cons c r =>
      by_cases slash : c = '/'
      · exact .inl ⟨r, by rw [slash]⟩
      · by_cases dot : c = '.'
        · subst dot
          cases r with
          | nil => exact .inr (.inl rfl)
          | cons d u =>
              by_cases second : d = '/'
              · exact .inr (.inr (.inl ⟨u, by rw [second]⟩))
              · exact .inr (.inr (.inr (.inr ⟨'.', d :: u, rfl, slash, fun _ =>
                  ⟨d, u, rfl, second⟩⟩)))
        · exact .inr (.inr (.inr (.inr ⟨c, r, rfl, slash, fun h => absurd h dot⟩)))

theorem join_cons (c : Char) (u : List Char) (ss : List (List Char)) :
    ∃ more, join ((c :: u) :: ss) = c :: (u ++ more) := by
  cases ss with
  | nil => exact ⟨[], by rw [List.append_nil]; rfl⟩
  | cons v vs => exact ⟨'/' :: join (v :: vs), rfl⟩

theorem join_of_singleton_nil {ss : List (List Char)} (front : ss <+: [[]]) : join ss = [] := by
  obtain ⟨later, whole⟩ := front
  cases ss with
  | nil => rfl
  | cons s ss =>
      obtain ⟨rfl, rest⟩ := List.cons.inj whole
      cases ss with
      | nil => rfl
      | cons u us => cases rest

theorem headLength_join {t : List Char} {ss : List (List Char)}
    (front : ss <+: split (t.drop (headLength t))) :
    headLength (t.take (headLength t) ++ join ss) = (t.take (headLength t)).length := by
  rcases headLength_cases t with ⟨r, rfl⟩ | rfl | ⟨r, rfl⟩ | rfl | ⟨c, r, rfl, slash, no_dot⟩
  · rfl
  · rw [join_of_singleton_nil front]
    rfl
  · obtain ⟨later, whole⟩ := front
    cases ss with
    | nil => rfl
    | cons s ss =>
        obtain ⟨rfl, -⟩ := List.cons.inj whole
        cases ss <;> rfl
  · rw [join_of_singleton_nil front]
    rfl
  · have headless := headLength_of_ne slash no_dot
    rw [headless, List.drop_zero] at front
    rw [headless, List.take_zero, List.nil_append, List.length_nil]
    obtain ⟨later, whole⟩ := front
    cases ss with
    | nil => rfl
    | cons s ss =>
        obtain ⟨u, us, parts⟩ := split_eq_cons r
        rw [split_cons_of_ne slash parts] at whole
        obtain ⟨rfl, -⟩ := List.cons.inj whole
        obtain ⟨more, start⟩ := join_cons c u ss
        rw [start]
        apply headLength_of_ne slash
        intro dot
        obtain ⟨d, w, rfl, second⟩ := no_dot dot
        obtain ⟨v, vs, parts'⟩ := split_eq_cons w
        rw [split_cons_of_ne second parts'] at parts
        obtain ⟨rfl, -⟩ := List.cons.inj parts
        exact ⟨d, v ++ more, rfl, second⟩

theorem components_of_front {p : Path} {ss : List (List Char)} (front : ss <+: p.segments) :
    (⟨String.ofList (p.head ++ join ss)⟩ : Path).components
      = headComponents p.head ++ named ss := by
  have text : (⟨String.ofList (p.head ++ join ss)⟩ : Path).text.toList = p.head ++ join ss :=
    String.toList_ofList
  have front_text : ss <+: split (p.text.toList.drop (headLength p.text.toList)) := front
  have length : headLength (p.head ++ join ss) = p.head.length := headLength_join front_text
  rw [components_of_text text, length, List.take_left, List.drop_left]
  by_cases none_left : ss = []
  · rw [none_left]
    rfl
  · rw [split_join none_left]
    intro s member
    exact not_mem_of_mem_split (front.subset member)

theorem dropIdle_isFront (ss : List (List Char)) : dropIdle ss <+: ss := by
  unfold dropIdle
  rw [← List.reverse_suffix, List.reverse_reverse]
  exact List.dropWhile_suffix _

theorem components_of_parent? {p q : Path} (h : p.parent? = some q) :
    q.components = p.components.dropLast := by
  have named_segments : named p.segments = named (dropIdle p.segments) :=
    (named_dropIdle p.segments).symm
  unfold parent? at h
  cases backwards : (dropIdle p.segments).reverse with
  | nil =>
      rw [backwards] at h
      have none_named : dropIdle p.segments = [] := List.reverse_eq_nil_iff.mp backwards
      dsimp only at h
      split at h
      · rename_i dot
        cases h
        rw [components_eq p, eq_of_beq dot, named_segments, none_named]
        rfl
      · cases h
  | cons last before =>
      rw [backwards] at h
      cases h
      have parts : dropIdle p.segments = before.reverse ++ [last] := by
        rw [← List.reverse_reverse (dropIdle p.segments), backwards, List.reverse_cons]
      have front : dropIdle before.reverse <+: p.segments := by
        have inner : before.reverse <+: dropIdle p.segments := ⟨[last], parts.symm⟩
        exact ((dropIdle_isFront _).trans inner).trans (dropIdle_isFront _)
      have marked : isIdle last = false := by
        have found := List.head?_dropWhile_not isIdle p.segments.reverse
        have first : (p.segments.reverse.dropWhile isIdle).head? = some last := by
          have reversed := congrArg List.head? backwards
          rwa [dropIdle, List.reverse_reverse] at reversed
        rw [first] at found
        exact found
      have one : named [last] = [componentOf last] := by
        rw [named, List.filter_cons_of_pos (by rw [marked]; rfl)]
        rfl
      rw [components_of_front front, components_eq p, named_segments, parts, named_append, one,
        ← List.append_assoc, List.dropLast_concat, named_dropIdle]

theorem parent?_of_fileName? {p : Path} {s : String} (h : p.fileName? = some s) :
    ∃ q, p.parent? = some q := by
  unfold parent?
  cases backwards : (dropIdle p.segments).reverse with
  | cons last before => exact ⟨_, rfl⟩
  | nil =>
      have none_named : named p.segments = [] := by
        rw [← named_dropIdle, List.reverse_eq_nil_iff.mp backwards]
        rfl
      have no_name : ∀ c, (headComponents p.head).getLast? ≠ some (.name c) := by
        intro c
        unfold headComponents
        split <;> simp
      unfold fileName? at h
      rw [components_eq, none_named, List.append_nil] at h
      split at h
      · rename_i last
        exact absurd last (no_name _)
      · cases h

theorem components_withFileName {p : Path} {s new : String} (h : p.fileName? = some s)
    (name : IsName new) :
    (p.withFileName new).components = p.components.dropLast ++ [.name new] := by
  obtain ⟨q, parent⟩ := parent?_of_fileName? h
  have below : p.withFileName new = q.push ⟨new⟩ := by
    unfold withFileName
    rw [h, parent]
  rw [below, components_push_name name, components_of_parent? parent]

theorem components_ne_nil {p : Path} (some_text : p.text.toList ≠ []) : p.components ≠ [] := by
  rcases headLength_cases p.text.toList with ⟨r, h⟩ | h | ⟨r, h⟩ | h | ⟨c, r, h, slash, no_dot⟩
  · rw [components_of_text h]
    exact List.cons_ne_nil _ _
  · rw [components_of_text h]
    exact List.cons_ne_nil _ _
  · rw [components_of_text h]
    exact List.cons_ne_nil _ _
  · exact absurd h some_text
  · obtain ⟨u, us, parts⟩ := split_eq_cons r
    have marked : isIdle (c :: u) = false := by
      cases idle : isIdle (c :: u) with
      | false => rfl
      | true =>
          have dot : c = '.' ∧ u = [] := by simpa [isIdle] using idle
          obtain ⟨d, v, rfl, second⟩ := no_dot dot.1
          obtain ⟨w, ws, parts'⟩ := split_eq_cons v
          rw [split_cons_of_ne second parts', dot.2] at parts
          cases (List.cons.inj parts).1
    rw [components_of_text h, headLength_of_ne slash no_dot, List.drop_zero,
      split_cons_of_ne slash parts, named, List.filter_cons_of_pos (by rw [marked]; rfl)]
    exact List.append_ne_nil_of_right_ne_nil _ (List.cons_ne_nil _ _)

end Restyle.Path
