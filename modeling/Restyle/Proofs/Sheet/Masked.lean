import Mathlib.Data.List.Forall2
import Restyle.Proofs.Text.Cut
import Restyle.Sheet.Load
/-!
The mask of a text by its parts. A mask has the layout of its text: the same characters, but for
some of one byte that it writes as underscores. Where a text leaves no backslash without the
character that it escapes, and something solid follows, it is masked by itself.
-/

namespace Restyle.Sheet

open Text (byteLength isBoundary isAsciiBlank)

theorem exists_append_of_forall₂ {α β : Type} {R : α → β → Prop} {xs ys : List α} {zs : List β}
    (h : List.Forall₂ R (xs ++ ys) zs) :
    ∃ us vs, zs = us ++ vs ∧ List.Forall₂ R xs us ∧ List.Forall₂ R ys vs :=
  ⟨zs.take xs.length, zs.drop xs.length, (List.take_append_drop _ _).symm,
    (List.forall₂_take_append zs xs ys h.flip).flip,
    (List.forall₂_drop_append zs xs ys h.flip).flip⟩

/-- The characters of two texts are of the same widths, one by one. -/
def SameLayout (ms cs : List Char) : Prop :=
  List.Forall₂ (fun m c => m.utf8Size = c.utf8Size) ms cs

namespace SameLayout

variable {ms cs : List Char}

theorem symm (h : SameLayout ms cs) : SameLayout cs ms := h.flip.imp fun _ _ => Eq.symm

theorem byteLength_eq (h : SameLayout ms cs) : byteLength ms = byteLength cs := by
  induction h with
  | nil => rfl
  | cons width others ih => rw [Text.byteLength_cons, Text.byteLength_cons, width, ih]

theorem isBoundary {n : Nat} (h : SameLayout ms cs) (begins : isBoundary n ms = true) :
    Text.isBoundary n cs = true := by
  obtain ⟨before, after, rfl, rfl⟩ := Text.isBoundary_iff.mp begins
  obtain ⟨first, rest, rfl, same, -⟩ := exists_append_of_forall₂ h
  exact Text.isBoundary_iff.mpr ⟨first, rest, rfl, (byteLength_eq same).symm⟩

end SameLayout

/-- What a mask may write for a character: itself, or an underscore for one byte. -/
def Masks (m c : Char) : Prop := m = c ∨ m = '_' ∧ c.utf8Size = 1

theorem utf8Size_of_lt {c : Char} (ascii : c.toNat < 128) : c.utf8Size = 1 := by
  rw [Char.utf8Size_eq_one_iff, UInt32.le_iff_toNat_le]
  exact Nat.le_of_lt_succ ascii

theorem masks_escaped (c : Char) : Masks (maskEscaped c) c := by
  unfold maskEscaped
  split
  · rename_i other
    rw [Bool.and_eq_true, decide_eq_true_eq] at other
    exact .inr ⟨rfl, utf8Size_of_lt other.1⟩
  · exact .inl rfl

theorem head_of_isBlankValue {b : Char} {cs : List Char} (h : isBlankValue (b :: cs) = true) :
    isAsciiBlank b = true := by
  cases blank : isAsciiBlank b with
  | true => rfl
  | false =>
      rw [isBlankValue, List.takeWhile_cons, blank] at h
      cases h

theorem utf8Size_of_isAsciiBlank {b : Char} (blank : isAsciiBlank b = true) : b.utf8Size = 1 := by
  simp only [isAsciiBlank, Bool.or_eq_true, beq_iff_eq] at blank
  rcases blank with (((rfl | rfl) | rfl) | rfl) | rfl <;> decide

/-- A mask writes one character for each of the text. -/
theorem mask_masks (cs : List Char) : List.Forall₂ Masks (mask cs) cs := by
  fun_induction mask cs with
  | case1 => exact .nil
  | case2 => exact .cons (.inr ⟨rfl, by decide⟩) .nil
  | case3 e cs ih => exact .cons (.inr ⟨rfl, by decide⟩) (.cons (masks_escaped e) ih)
  | case4 b cs value ih =>
      have one := utf8Size_of_isAsciiBlank (head_of_isBlankValue value)
      exact .cons (.inl rfl) (.cons (.inr ⟨rfl, one⟩) ih)
  | case5 b cs value ih => exact .cons (.inl rfl) ih
  | case6 c cs _ _ _ ih => exact .cons (.inl rfl) ih

theorem length_mask (cs : List Char) : (mask cs).length = cs.length := (mask_masks cs).length_eq

theorem Masks.width {m c : Char} (h : Masks m c) : m.utf8Size = c.utf8Size := by
  rcases h with rfl | ⟨rfl, one⟩
  · rfl
  · rw [one]
    decide

theorem layout_of_masks {ms cs : List Char} (h : List.Forall₂ Masks ms cs) : SameLayout ms cs :=
  h.imp fun _ _ => Masks.width

theorem mask_layout (cs : List Char) : SameLayout (mask cs) cs := layout_of_masks (mask_masks cs)

theorem byteLength_mask (cs : List Char) : byteLength (mask cs) = byteLength cs :=
  (mask_layout cs).byteLength_eq

theorem isBoundary_of_mask {n : Nat} {cs : List Char} (h : isBoundary n (mask cs) = true) :
    isBoundary n cs = true := (mask_layout cs).isBoundary h

theorem stands_of_mask {s : Span} {cs : List Char} (h : s.Stands (mask cs)) : s.Stands cs :=
  ⟨h.ordered, isBoundary_of_mask h.start, isBoundary_of_mask h.stop⟩

/-- Whether every backslash has a character to escape. -/
def settled : List Char → Bool
  | [] => true
  | '\\' :: [] => false
  | '\\' :: _ :: cs => settled cs
  | _ :: cs => settled cs

theorem isBlankValue_append {x : Char} (solid : isAsciiBlank x = false) (goes_on : x ≠ ';')
    (cs rest : List Char) : isBlankValue (cs ++ x :: rest) = isBlankValue cs := by
  have stop : (x :: rest).takeWhile isAsciiBlank = [] := by
    rw [List.takeWhile_cons, solid]
    rfl
  have stay : (x :: rest).dropWhile isAsciiBlank = x :: rest := by
    rw [List.dropWhile_cons, solid]
    rfl
  unfold isBlankValue
  rw [List.takeWhile_append, List.dropWhile_append, stop, stay, List.append_nil]
  cases behind : cs.dropWhile isAsciiBlank with
  | nil =>
      have no_end : (some x == some ';') = false := by simpa using goes_on
      simp [no_end]
  | cons c more =>
      have shorter : (if (cs.takeWhile isAsciiBlank).length = cs.length then cs
          else cs.takeWhile isAsciiBlank) = cs.takeWhile isAsciiBlank := by
        split
        · rename_i all
          exact ((List.takeWhile_prefix _).eq_of_length all).symm
        · rfl
      rw [shorter]
      rfl

theorem settled_cons {c : Char} (plain : c ≠ '\\') (cs : List Char) :
    settled (c :: cs) = settled cs :=
  settled.eq_4 c cs (fun same _ => plain same) fun _ _ same => absurd same plain

theorem mask_colon (b : Char) (cs : List Char) : mask (':' :: b :: cs) =
    if isBlankValue (b :: cs) then ':' :: '_' :: mask cs else ':' :: mask (b :: cs) :=
  mask.eq_4 b cs

/-- Before something solid a text is masked by itself, unless it ends in a backslash that takes
what follows. -/
theorem mask_append {cs : List Char} (h : settled cs = true) {x : Char}
    (solid : isAsciiBlank x = false) (goes_on : x ≠ ';') (rest : List Char) :
    mask (cs ++ x :: rest) = mask cs ++ mask (x :: rest) := by
  have value_append := isBlankValue_append solid goes_on
  fun_induction mask cs with
  | case1 => rfl
  | case2 => cases h
  | case3 e cs ih => exact congrArg ('_' :: maskEscaped e :: ·) (ih h)
  | case4 b cs value ih =>
      have no_escape : b ≠ '\\' := by
        rintro rfl
        cases head_of_isBlankValue value
      rw [settled_cons (by decide), settled_cons no_escape] at h
      have same : isBlankValue (b :: (cs ++ x :: rest)) = true := by
        rw [← value]
        exact value_append (b :: cs) rest
      rw [List.cons_append, List.cons_append, mask_colon, if_pos same, ih h]
      rfl
  | case5 b cs value ih =>
      rw [settled_cons (by decide)] at h
      have same : isBlankValue (b :: (cs ++ x :: rest)) = false := by
        rw [← Bool.not_eq_true _ |>.mp value]
        exact value_append (b :: cs) rest
      rw [List.cons_append, List.cons_append, mask_colon, if_neg (by rw [same]; decide)]
      exact congrArg (':' :: ·) (ih h)
  | case6 c cs lone escapes value ih =>
      have no_escape : c ≠ '\\' := by
        rintro rfl
        cases cs with
        | nil => exact lone rfl rfl
        | cons e cs => exact escapes e cs rfl rfl
      rw [settled_cons no_escape] at h
      by_cases colon : c = ':'
      · subst colon
        cases cs with
        | nil =>
            have no_value : isBlankValue (x :: rest) = false := value_append [] rest
            rw [List.cons_append, List.nil_append, mask_colon,
              if_neg (by rw [no_value]; decide)]
            rfl
        | cons b cs => exact absurd rfl (value b cs rfl)
      · rw [List.cons_append, mask.eq_5 c (cs ++ x :: rest) (fun same _ => no_escape same)
          (fun _ _ same => absurd same no_escape) (fun _ _ same => absurd same colon), ih h]
        rfl

theorem commentTail_cons {c : Char} {cs : List Char} (no_end : ¬ ['*', '/'] <+: c :: cs) :
    commentTail (c :: cs) = (commentTail cs).map (· + 1) := by
  refine commentTail.eq_3 c cs ?_
  rintro rest rfl rfl
  exact no_end ⟨rest, rfl⟩

theorem commentTail_eq_none {cs : List Char} :
    commentTail cs = none ↔ ¬ ['*', '/'] <:+: cs := by
  induction cs with
  | nil => simp [commentTail]
  | cons c cs ih =>
      rw [List.infix_cons_iff, not_or, ← ih]
      by_cases here : ['*', '/'] <+: c :: cs
      · obtain ⟨rest, same⟩ := here
        obtain ⟨rfl, rfl⟩ := List.cons.inj same
        simp [commentTail]
      · rw [commentTail_cons here, Option.map_eq_none_iff]
        exact ⟨fun none_ => ⟨here, none_⟩, And.right⟩

theorem commentTail_append {cs : List Char} (no_end : ¬ ['*', '/'] <:+: cs) (rest : List Char) :
    commentTail (cs ++ '*' :: '/' :: rest) = some (cs.length + 2) := by
  induction cs with
  | nil => rfl
  | cons c cs ih =>
      have later : ¬ ['*', '/'] <:+: cs := fun inside => no_end (inside.trans
        (List.suffix_cons c cs).isInfix)
      have here : ¬ ['*', '/'] <+: c :: (cs ++ '*' :: '/' :: rest) := by
        rintro ⟨more, same⟩
        obtain ⟨rfl, tail⟩ := List.cons.inj same
        cases cs with
        | nil => cases tail
        | cons d cs =>
            obtain ⟨rfl, -⟩ := List.cons.inj tail
            exact no_end ⟨[], cs, rfl⟩
      rw [List.cons_append, commentTail_cons here, ih later]
      rfl

/-- The mask of a text has no end of a comment that the text has not. -/
theorem no_end_mask {cs : List Char} (no_end : ¬ ['*', '/'] <:+: cs) :
    ¬ ['*', '/'] <:+: mask cs := by
  rintro ⟨before, after, parts⟩
  have whole := mask_masks cs
  rw [← parts, List.append_assoc] at whole
  have literal : ∀ {m c : Char}, Masks m c → m ≠ '_' → c = m :=
    fun masks shown => (masks.resolve_right fun hidden => shown hidden.1).symm
  obtain ⟨front, _, rfl, -, behind⟩ := exists_append_of_forall₂ whole
  obtain ⟨star, _, first, others, rfl⟩ := List.forall₂_cons_left_iff.mp behind
  obtain ⟨slash, tail, second, -, rfl⟩ := List.forall₂_cons_left_iff.mp others
  obtain rfl := literal first (by decide)
  obtain rfl := literal second (by decide)
  exact no_end ⟨front, tail, List.append_assoc _ _ _⟩

end Restyle.Sheet
