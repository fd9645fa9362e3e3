import Restyle.Proofs.Sheet.Serialized
import Restyle.Proofs.Syntax.Answers
/-!
Identifiers of the grammar. They go as far as their characters do, and the mask of a name is one
where the name is of Latin-1 and does not begin with a digit.
-/

namespace Restyle.Sheet

open Syntax

theorem isIdentChar_of_isIdentifierPart {c : Char} (h : isIdentifierPart c = true) :
    isIdentChar c = true := by
  simp only [isIdentifierPart, isIdentifierStart, isLatinLetter, Bool.or_eq_true, Bool.and_eq_true,
    decide_eq_true_eq] at h
  simp only [isIdentChar, Char.isAlphanum, Bool.or_eq_true, decide_eq_true_eq]
  rcases h with (((alpha | under) | latin) | digit) | hyphen
  · exact .inl (.inl (.inl (.inl alpha)))
  · exact .inl (.inr under)
  · exact .inr (by omega)
  · exact .inl (.inl (.inl (.inr digit)))
  · exact .inl (.inl (.inr hyphen))

theorem isBlank_of_isIdentChar {c : Char} (h : isIdentChar c = true) : isBlank c = false := by
  have space : c ≠ ' ' := isIdentChar_ne h (by decide)
  have control : ¬ ('\t' ≤ c ∧ c ≤ '\r') := by
    rintro ⟨low, high⟩
    have table : ∀ i, i < 5 → isIdentChar (Char.ofNat (9 + i)) = false := by decide
    have other := char_of_range (p := fun c => isIdentChar c = false) table low
      (Nat.lt_succ_of_le high)
    rw [h] at other
    cases other
  simpa [isBlank, space] using control

def beginsIdentifier : List Char → Bool
  | [] => false
  | '-' :: c :: _ => c == '-' || isIdentifierStart c
  | c :: _ => isIdentifierStart c

/-- A text that the grammar takes for an identifier. -/
structure IsIdentifier (word : List Char) : Prop where
  begins : beginsIdentifier word = true
  parts : ∀ c ∈ word, isIdentifierPart c = true

namespace IsIdentifier

variable {word : List Char}

theorem takeWhile_append {cs after : List Char} (parts : ∀ c ∈ cs, isIdentifierPart c = true)
    (ends : after.head?.any isIdentifierPart = false) :
    (cs ++ after).takeWhile isIdentifierPart = cs := by
  have stop : after.takeWhile isIdentifierPart = [] := by
    cases after with
    | nil => rfl
    | cons c more =>
        have other : isIdentifierPart c = false := by simpa using ends
        rw [List.takeWhile_cons_of_neg (by simp [other])]
  rw [List.takeWhile_append_of_pos parts, stop, List.append_nil]

theorem identifierLength_append (h : IsIdentifier word) {after : List Char}
    (ends : after.head?.any isIdentifierPart = false) :
    identifierLength (word ++ after) = word.length := by
  obtain ⟨begins, parts⟩ := h
  revert begins
  fun_cases beginsIdentifier word with
  | case1 => exact fun begins => by cases begins
  | case2 c cs =>
      intro begins
      have later : ∀ d ∈ cs, isIdentifierPart d = true := fun d hd => parts d (by simp [hd])
      have whole := takeWhile_append later ends
      by_cases hyphen : c = '-'
      · subst hyphen
        have taken : identifierLength ('-' :: '-' :: (cs ++ after)) = 2 + cs.length := by
          simp [identifierLength, whole]
        exact taken.trans (Nat.add_comm 2 cs.length)
      · have start : isIdentifierStart c = true := by simpa [hyphen] using begins
        have taken : identifierLength ('-' :: c :: (cs ++ after)) = 2 + cs.length := by
          simp [identifierLength, whole, start]
        exact taken.trans (Nat.add_comm 2 cs.length)
  | case3 c cs no_hyphen =>
      intro begins
      have later : ∀ d ∈ cs, isIdentifierPart d = true := fun d hd => parts d (by simp [hd])
      have whole := takeWhile_append later ends
      have other : c ≠ '-' := by
        rintro rfl
        cases begins
      have taken : identifierLength (c :: (cs ++ after)) = 1 + cs.length := by
        simp [identifierLength, whole, begins, other]
      exact taken.trans (Nat.add_comm 1 cs.length)

theorem identifierLength_blank (h : IsIdentifier word) (after : List Char) :
    identifierLength (word ++ ' ' :: after) = word.length :=
  h.identifierLength_append rfl

theorem ne_nil (h : IsIdentifier word) : word ≠ [] := by
  rintro rfl
  cases h.begins

/-- No blank, comment or other mark stands at the front of an identifier. -/
theorem front (h : IsIdentifier word) (after : List Char) :
    Fronts grammar [] (word ++ after) ∧ (punctuation "*" ["*="]).scan (word ++ after) = 0 := by
  obtain ⟨c, cs, rfl⟩ := List.exists_cons_of_ne_nil h.ne_nil
  have ident := isIdentChar_of_isIdentifierPart (h.parts c List.mem_cons_self)
  have slash : c ≠ '/' := isIdentChar_ne ident (by decide)
  have star : '*' ≠ c := (isIdentChar_ne ident (by decide)).symm
  have no_comment : comment (c :: (cs ++ after)) = 0 :=
    comment.eq_3 _ (fun _ same => slash (List.cons.inj same).1)
      (fun _ same => slash (List.cons.inj same).1)
  refine ⟨⟨by simp, ?_, no_comment, rfl⟩, ?_⟩
  · simp [grammar, isBlank_of_isIdentChar ident]
  · simp [punctuation, List.isPrefixOf, star]

end IsIdentifier

/-- A text of ASCII and the letters of Latin-1. -/
def IsLatin (name : List Char) : Prop := ∀ c ∈ name, c.toNat < 128 ∨ isLatinLetter c = true

instance (name : List Char) : Decidable (IsLatin name) :=
  decidable_of_iff (name.all (fun c => c.toNat < 128 || isLatinLetter c) = true)
    (by simp [IsLatin])

theorem isIdentifierPart_of_isIdentChar {c : Char} (latin : c.toNat < 128 ∨ isLatinLetter c = true)
    (h : isIdentChar c = true) : isIdentifierPart c = true := by
  simp only [isIdentChar, Char.isAlphanum, Bool.or_eq_true, decide_eq_true_eq] at h
  simp only [isIdentifierPart, isIdentifierStart, Bool.or_eq_true]
  rcases h with (((alpha | digit) | hyphen) | under) | beyond
  · exact .inl (.inl (.inl (.inl alpha)))
  · exact .inl (.inr digit)
  · exact .inr hyphen
  · exact .inl (.inl (.inl (.inr under)))
  · exact .inl (.inl (.inr (latin.resolve_left (by omega))))

theorem isIdentifierPart_of_mem_shade {name : List Char} (latin : IsLatin name) {c : Char}
    (h : c ∈ name.flatMap shade) : isIdentifierPart c = true := by
  obtain ⟨d, hd, hc⟩ := List.mem_flatMap.mp h
  rw [shade] at hc
  split at hc
  · next ident =>
      rw [List.mem_singleton.mp hc]
      exact isIdentifierPart_of_isIdentChar (latin d hd) ident
  · have under : c = '_' := by simpa using hc
    rw [under]
    decide

theorem beginsIdentifier_of_start {c : Char} (start : isIdentifierStart c = true) (cs : List Char) :
    beginsIdentifier (c :: cs) = true := by
  have no_hyphen : c ≠ '-' := by
    rintro rfl
    cases start
  rw [beginsIdentifier.eq_3 c cs fun _ _ same => absurd same no_hyphen]
  exact start

theorem shade_cons {c : Char} (latin : c.toNat < 128 ∨ isLatinLetter c = true)
    (no_digit : c.isDigit = false) :
    ∃ d ds, shade c = d :: ds ∧ (isIdentifierStart d = true ∨ d = '-' ∧ c = '-') := by
  rw [shade]
  split
  · next ident =>
      have part := isIdentifierPart_of_isIdentChar latin ident
      simp only [isIdentifierPart, no_digit, Bool.or_false, Bool.or_eq_true, beq_iff_eq] at part
      exact ⟨c, [], rfl, part.imp_right fun hyphen => ⟨hyphen, hyphen⟩⟩
  · exact ⟨'_', ['_'], rfl, .inl (by decide)⟩

theorem isIdentifier_shade {name : List Char} (latin : IsLatin name)
    (word : beginsWord name = true) : IsIdentifier (name.flatMap shade) := by
  refine ⟨?_, fun c hc => isIdentifierPart_of_mem_shade latin hc⟩
  revert word
  fun_cases beginsWord name with
  | case1 => exact fun word => by cases word
  | case2 => exact fun word => by cases word
  | case3 c cs =>
      intro word
      obtain ⟨d, ds, shaded, start⟩ :=
        shade_cons (latin c (by simp)) (show c.isDigit = false by simpa using word)
      have hyphen : shade '-' = ['-'] := by decide
      rw [List.flatMap_cons, List.flatMap_cons, hyphen, shaded]
      rcases start with start | ⟨rfl, -⟩
      · simp [beginsIdentifier, start]
      · rfl
  | case4 c cs no_hyphen no_sign =>
      intro word
      obtain ⟨d, ds, shaded, start⟩ :=
        shade_cons (latin c (by simp)) (show c.isDigit = false by simpa using word)
      rw [List.flatMap_cons, shaded]
      rcases start with start | ⟨-, rfl⟩
      · exact beginsIdentifier_of_start start _
      · cases cs with
        | nil => exact absurd rfl (no_hyphen rfl)
        | cons e es => exact absurd rfl (no_sign e es rfl)

theorem isIdentifier_digit {sign : List Char} (h : IsSign sign) {d : Char}
    (digit : d.isDigit = true) : IsIdentifier (sign ++ ['_', '3', d]) := by
  have part : isIdentifierPart d = true := by simp [isIdentifierPart, digit]
  rcases h with rfl | rfl
  · exact ⟨rfl, by simp [part]; decide⟩
  · exact ⟨rfl, by simp [part]; decide⟩

end Restyle.Sheet
