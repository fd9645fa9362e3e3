import Restyle.Text
/-!
Blanks around a text and between its words. Trimming keeps all that stands between two characters
that are not blank, and the words of a text do not see how many blanks follow them.
-/

namespace Restyle.Text

theorem dropWhileEnd_append {p : Char → Bool} {c : Char} (kept : p c = false)
    (before after : List Char) :
    dropWhileEnd p (before ++ c :: after) = before ++ c :: dropWhileEnd p after := by
  have backwards : (before ++ c :: after).reverse = after.reverse ++ c :: before.reverse := by
    simp only [List.reverse_append, List.reverse_cons, List.append_assoc, List.singleton_append]
  simp only [dropWhileEnd, backwards, List.dropWhile_append]
  by_cases rest : (after.reverse.dropWhile p).isEmpty
  · simp only [List.isEmpty_iff.mp rest, List.isEmpty_nil, if_true, List.dropWhile_cons, kept,
      Bool.false_eq_true, if_false, List.reverse_cons, List.reverse_reverse, List.reverse_nil]
  · simp only [rest, if_false, List.reverse_append, List.reverse_cons, List.reverse_reverse,
      List.append_assoc, List.singleton_append, Bool.false_eq_true]

theorem dropWhileEnd_concat {p : Char → Bool} {c : Char} (kept : p c = false)
    (before : List Char) : dropWhileEnd p (before ++ [c]) = before ++ [c] :=
  dropWhileEnd_append kept before []

theorem dropWhileEnd_concat_of {p : Char → Bool} {c : Char} (dropped : p c = true)
    (before : List Char) : dropWhileEnd p (before ++ [c]) = dropWhileEnd p before := by
  simp only [dropWhileEnd, List.reverse_append, List.reverse_singleton, List.singleton_append,
    List.dropWhile_cons, dropped, if_true]

theorem trimLeft_cons {c : Char} (mark : isBlank c = false) (cs : List Char) :
    trimLeft (c :: cs) = c :: cs := by
  simp only [trimLeft, List.dropWhile_cons, mark, Bool.false_eq_true, if_false]

theorem trim_cons_append {c d : Char} (front : isBlank c = false) (back : isBlank d = false)
    (before after : List Char) :
    trim (c :: (before ++ d :: after)) = c :: (before ++ d :: trimRight after) := by
  rw [trim, trimLeft_cons front]
  exact dropWhileEnd_append back (c :: before) after

theorem trim_cons {c : Char} (front : isBlank c = false) (cs : List Char) :
    trim (c :: cs) = c :: trimRight cs := by
  rw [trim, trimLeft_cons front]
  exact dropWhileEnd_append front [] cs

theorem trim_blank_cons {c : Char} (blank : isBlank c = true) (cs : List Char) :
    trim (c :: cs) = trim cs := by
  simp only [trim, trimLeft, List.dropWhile_cons, blank, if_true]

theorem exists_around_trim (cs : List Char) :
    ∃ before behind, cs = before ++ trim cs ++ behind ∧ (∀ c ∈ before, isBlank c = true) ∧
      ∀ c ∈ behind, isBlank c = true := by
  refine ⟨cs.takeWhile isBlank, ((trimLeft cs).reverse.takeWhile isBlank).reverse, ?_,
    List.all_eq_true.mp List.all_takeWhile,
    fun c hc => List.all_eq_true.mp List.all_takeWhile c (List.mem_reverse.mp hc)⟩
  have back : trim cs ++ ((trimLeft cs).reverse.takeWhile isBlank).reverse = trimLeft cs := by
    rw [trim, trimRight, dropWhileEnd, ← List.reverse_append, List.takeWhile_append_dropWhile,
      List.reverse_reverse]
  rw [List.append_assoc, back]
  exact List.takeWhile_append_dropWhile.symm

theorem trim_blanks_append {blanks : List Char} (blank : ∀ c ∈ blanks, isBlank c = true)
    (cs : List Char) : trim (blanks ++ cs) = trim cs := by
  rw [trim, trimLeft, List.dropWhile_append_of_pos blank]
  rfl

theorem trimRight_append_blanks {blanks : List Char} (blank : ∀ c ∈ blanks, isBlank c = true)
    (cs : List Char) : trimRight (cs ++ blanks) = trimRight cs := by
  have backwards : ∀ c ∈ blanks.reverse, isBlank c = true := by simpa using blank
  rw [trimRight, dropWhileEnd, List.reverse_append, List.dropWhile_append_of_pos backwards]
  rfl

theorem trim_append_blanks {blanks : List Char} (blank : ∀ c ∈ blanks, isBlank c = true)
    (cs : List Char) : trim (cs ++ blanks) = trim cs := by
  rw [trim, trim, trimLeft, List.dropWhile_append]
  split
  · next all_blank =>
      have nothing := trim_blanks_append blank []
      rw [List.append_nil] at nothing
      rw [trimLeft, List.isEmpty_iff.mp all_blank]
      exact nothing
  · exact trimRight_append_blanks blank _

theorem trimRight_append {cs : List Char} (some_mark : ∃ d ∈ cs, isBlank d = false)
    (front : List Char) : trimRight (front ++ cs) = front ++ trimRight cs := by
  obtain ⟨d, there, mark⟩ := some_mark
  obtain ⟨before, after, rfl⟩ := List.append_of_mem there
  rw [trimRight, trimRight, dropWhileEnd_append mark, ← List.append_assoc,
    dropWhileEnd_append mark, List.append_assoc]

theorem head?_trimRight {cs : List Char} (some_mark : ∃ d ∈ cs, isBlank d = false) :
    (trimRight cs).head? = cs.head? := by
  obtain ⟨d, there, mark⟩ := some_mark
  obtain ⟨before, after, rfl⟩ := List.append_of_mem there
  rw [trimRight, dropWhileEnd_append mark]
  cases before <;> rfl

theorem trim_eq_self {cs : List Char} (front : cs.head?.any (!isBlank ·) = true)
    (back : cs.getLast?.any (!isBlank ·) = true) : trim cs = cs := by
  cases cs with
  | nil => rfl
  | cons c rest =>
      have first : isBlank c = false := by simpa using front
      rw [trim, trimLeft_cons first]
      obtain ⟨before, d, split⟩ := List.eq_nil_or_concat (c :: rest) |>.resolve_left (by simp)
      have last : isBlank d = false := by simpa [split] using back
      rw [split, List.concat_eq_append]
      exact dropWhileEnd_concat last before

/-- A text of marks alone is trimmed. -/
theorem trim_of_marks {cs : List Char} (marks : ∀ c ∈ cs, isBlank c = false) : trim cs = cs := by
  cases cs with
  | nil => rfl
  | cons c rest =>
      apply trim_eq_self
      · simp [marks c List.mem_cons_self]
      · have last := List.getLast_mem (List.cons_ne_nil c rest)
        simp [List.getLast?_eq_some_getLast (List.cons_ne_nil c rest), marks _ last]

theorem isBlank_of_range {c : Char} (h : 33 ≤ c.toNat ∧ c.toNat ≤ 126) : isBlank c = false := by
  simp only [isBlank, Bool.or_eq_false_iff, Bool.and_eq_false_iff, decide_eq_false_iff_not,
    beq_eq_false_iff_ne]
  omega

theorem isBlank_of_isAsciiBlank {c : Char} (blank : isAsciiBlank c = true) : isBlank c = true := by
  simp only [isAsciiBlank, Bool.or_eq_true, beq_iff_eq] at blank
  rcases blank with (((rfl | rfl) | rfl) | rfl) | rfl <;> decide

theorem wordsFrom_append_blank {b : Char} (blank : isBlank b = true) (word cs : List Char) :
    wordsFrom word (cs ++ [b]) = wordsFrom word cs := by
  induction cs generalizing word with
  | nil =>
      by_cases none_yet : word.isEmpty <;>
        simp only [List.nil_append, wordsFrom, blank, none_yet, if_true, if_false,
          Bool.false_eq_true, List.isEmpty_nil]
  | cons c cs ih => simp only [List.cons_append, wordsFrom, ih]

theorem normalizeBlanks_append_blank {b : Char} (blank : isBlank b = true) (cs : List Char) :
    normalizeBlanks (cs ++ [b]) = normalizeBlanks cs := by
  simp only [normalizeBlanks, words, wordsFrom_append_blank blank]

theorem wordsFrom_append_marks {marks : List Char} (h : ∀ c ∈ marks, isBlank c = false)
    (word cs : List Char) :
    wordsFrom word (marks ++ cs) = wordsFrom (marks.reverse ++ word) cs := by
  induction marks generalizing word with
  | nil => rfl
  | cons c marks ih =>
      have here := h c List.mem_cons_self
      have later := ih (fun d hd => h d (List.mem_cons_of_mem c hd)) (c :: word)
      simp only [List.cons_append, wordsFrom, here, Bool.false_eq_true, if_false, later,
        List.reverse_cons, List.append_assoc, List.nil_append]

theorem normalizeBlanks_word {word : List Char} (marks : ∀ c ∈ word, isBlank c = false)
    (some_mark : word ≠ []) (cs : List Char) :
    ∃ rest, normalizeBlanks (word ++ ' ' :: cs) = word ++ rest := by
  have blank : isBlank ' ' = true := by decide
  have not_empty : (word.reverse ++ []).isEmpty = false := by
    simpa using some_mark
  have first : words (word ++ ' ' :: cs) = word :: words cs := by
    rw [words, wordsFrom_append_marks marks, wordsFrom, if_pos blank, not_empty]
    simp only [Bool.false_eq_true, if_false, List.append_nil, List.reverse_reverse, words]
  rw [normalizeBlanks, first]
  cases words cs with
  | nil => exact ⟨[], by simp⟩
  | cons w ws => exact ⟨' ' :: [' '].intercalate (w :: ws), by simp [List.intercalate]⟩

end Restyle.Text
