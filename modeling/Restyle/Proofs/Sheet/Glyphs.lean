import Restyle.Proofs.Sheet.ReadBack
import Restyle.Proofs.Sheet.Written
/-!
Reading a written name. The reader takes each glyph for a character, or stops at the blank that ends
a number; it takes glyphs for what they stand for if and only if each one of them is readable. At
the end of a selector the blank of a number is trimmed away.
-/

namespace Restyle.Sheet.Written

namespace Glyph

/-- Whether the reader takes a glyph for the character that it stands for, in front of other text or
at the end of a selector, where blanks are trimmed away. -/
def isReadable (last : Bool) : Glyph → Bool
  | plain _ => true
  | escaped c => !(last && Text.isBlank c)
  | numbered digits ending => isExact digits && (last || ending == [] || ending == [' '])

def allReadable (last : Bool) : List Glyph → Bool
  | [] => true
  | [g] => g.isReadable last
  | g :: gs => g.isReadable false && allReadable last gs

/-- The character that the reader takes a glyph for. -/
def taken? : Glyph → Option Char
  | plain c | escaped c => some c
  | numbered digits _ => charOfHex? digits

/-- What the reader leaves behind a glyph. -/
def left (after : List Char) : Glyph → List Char
  | plain _ | escaped _ => after
  | numbered _ ending => dropSpace (ending ++ after)

theorem precedes_head {g : Glyph} {after more : List Char} (same : after.head? = more.head?) :
    g.precedes after = g.precedes more := by
  rcases g with c | c | ⟨digits, _ | ⟨b, bs⟩⟩
  · rfl
  · rfl
  · simp only [precedes, same]
  · rfl

theorem textOf_cons (g : Glyph) (gs : List Glyph) : textOf (g :: gs) = g.text ++ textOf gs := rfl

theorem textOf_append (gs hs : List Glyph) : textOf (gs ++ hs) = textOf gs ++ textOf hs :=
  List.flatMap_append

theorem length_le_textOf (gs : List Glyph) : gs.length ≤ (textOf gs).length := by
  induction gs with
  | nil => exact Nat.le_refl 0
  | cons g gs ih =>
      have some_char : 0 < g.text.length := by cases g <;> exact Nat.succ_pos _
      rw [textOf_cons, List.length_cons, List.length_append]
      omega

@[simp] theorem textOf_singleton (g : Glyph) : textOf [g] = g.text := List.append_nil _

theorem readClass_glyph {g : Glyph} {after : List Char} (fits : g.fits = true)
    (goes_on : g.precedes after = true) (n : Nat) :
    readClass (n + 1) (g.text ++ after)
      = g.taken?.bind fun c => (readClass n (g.left after)).map fun r => (c :: r.1, r.2) := by
  cases g with
  | plain c =>
      simp only [Glyph.fits, Bool.and_eq_true] at fits
      exact readClass_ident fits.1 n after
  | escaped c => exact readClass_escaped (by simpa [Glyph.fits] using fits) n after
  | numbered digits ending =>
      simp only [Glyph.fits, Bool.and_eq_true, Bool.not_eq_true', List.isEmpty_eq_false_iff,
        decide_eq_true_eq, List.contains_eq_mem] at fits
      obtain ⟨⟨⟨some_digit, short⟩, hex⟩, ending_blank⟩ := fits
      have text_eq : (numbered digits ending).text ++ after
          = '\\' :: (digits ++ (ending ++ after)) := by
        rw [text, List.cons_append, List.append_assoc]
      rw [text_eq]
      by_cases ends : (ending ++ after).head?.any Text.isHexDigit = false
      · exact readClass_numbered some_digit short hex ends n
      · -- only a number of all its digits may stand in front of a digit
        obtain rfl : ending = [] := by
          simp only [endings, List.mem_cons, List.not_mem_nil, or_false] at ending_blank
          rcases ending_blank with rfl | rfl | rfl | rfl | rfl | rfl | rfl
          · rfl
          all_goals exact absurd rfl ends
        rw [List.nil_append] at ends
        simp only [precedes, Bool.and_eq_true, Bool.or_eq_true, beq_iff_eq, Bool.not_eq_true']
          at goes_on
        have full : digits.length = 6 := goes_on.2.resolve_right ends
        cases digits with
        | nil => exact absurd rfl some_digit
        | cons d ds =>
            simp only [List.all_cons, Bool.and_eq_true] at hex
            have five : ds.length = 5 := by simpa using full
            have taken := takeHex_length hex.2 after
            rw [five] at taken
            exact readClass_digits hex.1 taken n

/-- Whether a glyph ends where the reader ends it. -/
def endsInSpace : Glyph → Bool
  | plain _ | escaped _ => true
  | numbered _ ending => ending == [] || ending == [' ']

theorem left_eq {g : Glyph} {after : List Char} (goes_on : g.precedes after = true)
    (ends : g.endsInSpace = true) : g.left after = after := by
  cases g with
  | plain c | escaped c => rfl
  | numbered digits ending =>
      simp only [endsInSpace, Bool.or_eq_true, beq_iff_eq] at ends
      rcases ends with rfl | rfl
      · simp only [precedes, Bool.and_eq_true, Bool.not_eq_true'] at goes_on
        rw [left, List.nil_append]
        rcases after with _ | ⟨c, cs⟩
        · rfl
        · have no_space : c ≠ ' ' := by
            rintro rfl
            cases goes_on.1
          simp [dropSpace, no_space]
      · rfl

theorem left_blank {g : Glyph} (fits : g.fits = true) (ends : g.endsInSpace = false)
    (after : List Char) : ∃ d cs, g.left after = d :: cs ∧ Text.isAsciiBlank d = true := by
  cases g with
  | plain c | escaped c => cases ends
  | numbered digits ending =>
      simp only [Glyph.fits, Bool.and_eq_true, List.contains_eq_mem, decide_eq_true_eq, endings,
        List.mem_cons, List.not_mem_nil, or_false] at fits
      rcases fits.2 with rfl | rfl | rfl | rfl | rfl | rfl | rfl
      · cases ends
      · cases ends
      all_goals exact ⟨_, _, rfl, by decide⟩

theorem readClass_blank {d : Char} (blank : Text.isAsciiBlank d = true) (n : Nat)
    (cs : List Char) : readClass (n + 1) (d :: cs) = some ([], d :: cs) := by
  simp only [Text.isAsciiBlank, Bool.or_eq_true, beq_iff_eq] at blank
  rcases blank with (((rfl | rfl) | rfl) | rfl) | rfl <;>
    exact readClass_stop (by decide) (by decide) n cs

/-- Whether the reader takes a glyph for what it stands for. -/
def isTaken : Glyph → Bool
  | plain _ | escaped _ => true
  | numbered digits _ => isExact digits

theorem isReadable_false (g : Glyph) : g.isReadable false = (g.isTaken && g.endsInSpace) := by
  cases g <;> simp [isReadable, isTaken, endsInSpace]

theorem taken?_eq_some_value {g : Glyph} : g.taken? = some g.value ↔ g.isTaken = true := by
  cases g with
  | plain c | escaped c => exact ⟨fun _ => rfl, fun _ => rfl⟩
  | numbered digits ending =>
      have read : charOfHex? digits = if h : (number digits).isValidChar then
          some (Char.ofNatAux (number digits) h) else none := rfl
      rw [taken?, isTaken, value, read]
      by_cases valid : (number digits).isValidChar
      · have stands : Char.ofNatAux (number digits) valid = Char.ofNat (number digits) := by
          rw [Char.ofNat, dif_pos valid]
        by_cases zero : number digits = 0
        · have other : isExact digits = false := by simp [isExact, zero]
          rw [dif_pos valid, stands, zero, other]
          decide
        · have exact_ : isExact digits = true := by simp [isExact, zero, valid]
          rw [dif_pos valid, stands, exact_]
          exact ⟨fun _ => rfl, fun _ => rfl⟩
      · have other : isExact digits = false := by simp [isExact, valid]
        rw [dif_neg valid, other]
        constructor <;> intro impossible <;> cases impossible

/-- Glyphs are read as what they stand for if and only if each one is. -/
theorem readClass_textOf_iff {gs : List Glyph} {rest : List Char} (fit : allFit rest gs = true)
    (stops : rest = [] ∨ ∃ more, rest = ':' :: more) {n : Nat} (enough : gs.length < n) :
    readClass n (textOf gs ++ rest) = some (gs.map value, rest) ↔
      gs.all (isReadable false) = true := by
  induction gs generalizing n with
  | nil =>
      obtain ⟨m, rfl⟩ := Nat.exists_eq_succ_of_ne_zero (Nat.ne_of_gt enough)
      have none_left : readClass (m + 1) rest = some ([], rest) := by
        rcases stops with rfl | ⟨more, rfl⟩
        · rfl
        · exact readClass_stop (by decide) (by decide) m more
      simpa [textOf] using none_left
  | cons g gs ih =>
      obtain ⟨m, rfl⟩ := Nat.exists_eq_succ_of_ne_zero (Nat.ne_of_gt (Nat.zero_lt_of_lt enough))
      have later : gs.length < m := by simpa using enough
      simp only [allFit, Bool.and_eq_true] at fit
      obtain ⟨⟨fits, goes_on⟩, fit⟩ := fit
      rw [textOf_cons, List.append_assoc, readClass_glyph fits goes_on, List.all_cons,
        List.map_cons, Bool.and_eq_true, ← ih fit later, isReadable_false, Bool.and_eq_true,
        ← taken?_eq_some_value]
      cases ends : g.endsInSpace with
      | true =>
          rw [left_eq goes_on ends]
          constructor
          · intro read
            obtain ⟨c, here, read⟩ := Option.bind_eq_some_iff.mp read
            obtain ⟨⟨name, tail⟩, next, same⟩ := Option.map_eq_some_iff.mp read
            cases same
            exact ⟨⟨here, rfl⟩, next⟩
          · rintro ⟨⟨here, -⟩, next⟩
            rw [here, next]
            rfl
      | false =>
          -- the blank that ends the number stops the reader
          obtain ⟨d, cs, left_, blank⟩ := left_blank fits ends (textOf gs ++ rest)
          obtain ⟨k, rfl⟩ := Nat.exists_eq_succ_of_ne_zero (Nat.ne_of_gt (Nat.zero_lt_of_lt later))
          rw [left_, readClass_blank blank]
          refine ⟨fun read => ?_, fun h => absurd h.1.2 Bool.false_ne_true⟩
          obtain ⟨c, here, read⟩ := Option.bind_eq_some_iff.mp read
          simp only [Option.map_some, Option.some.injEq, Prod.mk.injEq] at read
          rcases stops with rfl | ⟨more, rfl⟩
          · exact absurd read.2 (List.cons_ne_nil d cs)
          · obtain rfl := (List.cons.inj read.2).1
            cases blank

theorem readClass_behind {gs : List Glyph} {after : List Char} (fit : allFit after gs = true)
    {n : Nat} {name tail : List Char}
    (read : readClass n (textOf gs ++ after) = some (name, tail)) :
    (∃ m name', readClass m after = some (name', tail)) ∨
      ∃ d cs, tail = d :: cs ∧ Text.isAsciiBlank d = true := by
  induction gs generalizing n name with
  | nil => exact .inl ⟨n, name, read⟩
  | cons g gs ih =>
      cases n with
      | zero => cases read
      | succ n =>
          simp only [allFit, Bool.and_eq_true] at fit
          obtain ⟨⟨fits, goes_on⟩, fit⟩ := fit
          rw [textOf_cons, List.append_assoc, readClass_glyph fits goes_on] at read
          obtain ⟨c, -, read⟩ := Option.bind_eq_some_iff.mp read
          obtain ⟨⟨name', tail'⟩, next, same⟩ := Option.map_eq_some_iff.mp read
          cases same
          cases ends : g.endsInSpace with
          | true =>
              rw [left_eq goes_on ends] at next
              exact ih fit next
          | false =>
              obtain ⟨d, cs, left_, blank⟩ := left_blank fits ends (textOf gs ++ after)
              rw [left_] at next
              cases n with
              | zero => cases next
              | succ n =>
                  rw [readClass_blank blank] at next
                  cases next
                  exact .inr ⟨d, cs, rfl, blank⟩

/-- The reader stops no later than where the glyphs end, and not at a colon before. -/
theorem readClass_textOf_stop {gs : List Glyph} {x : Char} {more : List Char}
    (fit : allFit (x :: more) gs = true) (other : isIdentChar x = false) (no_escape : x ≠ '\\')
    {n : Nat} {name tail : List Char}
    (read : readClass n (textOf gs ++ x :: more) = some (name, tail)) :
    tail = x :: more ∨ ∃ d cs, tail = d :: cs ∧ d ≠ ':' := by
  rcases readClass_behind fit read with ⟨m, name', stop⟩ | ⟨d, cs, tail_eq, blank⟩
  · cases m with
    | zero => cases stop
    | succ m =>
        rw [readClass_stop other no_escape] at stop
        cases stop
        exact .inl rfl
  · refine .inr ⟨d, cs, tail_eq, ?_⟩
    rintro rfl
    cases blank

theorem readClass_textOf_backslash {gs : List Glyph} (fit : allFit ['\\'] gs = true) {n : Nat}
    {name tail : List Char} (read : readClass n (textOf gs ++ ['\\']) = some (name, tail)) :
    tail ≠ [] := by
  rcases readClass_behind fit read with ⟨m, name', stop⟩ | ⟨d, cs, tail_eq, -⟩
  · cases m <;> cases stop
  · rw [tail_eq]
    exact List.cons_ne_nil d cs

/-- A glyph as it stands at the end of a selector without blanks behind it. -/
def trimmed : Glyph → Glyph
  | plain c => plain c
  | escaped c => escaped c
  | numbered digits _ => numbered digits []

theorem fits_trimmed {g : Glyph} (fits : g.fits = true) : g.trimmed.fits = true := by
  cases g with
  | plain c | escaped c => exact fits
  | numbered digits ending =>
      simp only [trimmed, Glyph.fits, Bool.and_eq_true] at fits ⊢
      exact ⟨fits.1, by decide⟩

theorem precedes_trimmed (g : Glyph) : g.trimmed.precedes [] = true := by
  cases g <;> simp [trimmed, precedes]

@[simp] theorem value_trimmed (g : Glyph) : g.trimmed.value = g.value := by
  cases g <;> rfl

theorem head_trimmed (g : Glyph) (after : List Char) :
    (g.trimmed.text ++ after).head? = (g.text ++ after).head? := by
  cases g <;> rfl

theorem ending_blank {digits ending : List Char} (fits : (numbered digits ending).fits = true) :
    ∀ c ∈ ending, Text.isBlank c = true := by
  simp only [Glyph.fits, Bool.and_eq_true, List.contains_eq_mem, decide_eq_true_eq, endings,
    List.mem_cons, List.not_mem_nil, or_false] at fits
  rcases fits.2 with rfl | rfl | rfl | rfl | rfl | rfl | rfl <;>
    exact List.all_eq_true.mp (by decide)

/-- Trimming takes the blank of a number away, unless the glyph is an escaped blank: then it takes
that. -/
theorem trimRight_text {g : Glyph} (fits : g.fits = true) (before : List Char) :
    (∀ c, g = escaped c → Text.isBlank c = false) ∧
        Text.trimRight (before ++ g.text) = before ++ g.trimmed.text ∨
      ∃ c, g = escaped c ∧ Text.isBlank c = true ∧
        Text.trimRight (before ++ g.text) = before ++ ['\\'] := by
  have stop : ∀ {c : Char}, Text.isBlank c = false → ∀ front,
      Text.trimRight (front ++ [c]) = front ++ [c] := fun mark front =>
    Text.dropWhileEnd_concat mark front
  cases g with
  | plain c =>
      simp only [Glyph.fits, Bool.and_eq_true, Bool.not_eq_true'] at fits
      refine .inl ⟨fun d same => ?_, stop fits.2 before⟩
      cases same
  | escaped c =>
      have split : before ++ (escaped c).text = (before ++ ['\\']) ++ [c] := by simp [text]
      cases blank : Text.isBlank c with
      | false =>
          refine .inl ⟨fun d same => ?_, ?_⟩
          · cases same
            exact blank
          · rw [trimmed, split]
            exact stop blank _
      | true =>
          refine .inr ⟨c, rfl, blank, ?_⟩
          have one : ∀ d ∈ [c], Text.isBlank d = true := by simpa using blank
          rw [split, Text.trimRight_append_blanks one]
          exact stop (by decide) before
  | numbered digits ending =>
      refine .inl ⟨fun d same => (by cases same), ?_⟩
      have blanks := ending_blank fits
      simp only [Glyph.fits, Bool.and_eq_true, Bool.not_eq_true', List.isEmpty_eq_false_iff]
        at fits
      obtain ⟨⟨⟨some_digit, -⟩, hex⟩, -⟩ := fits
      obtain ⟨init, d, rfl⟩ := (List.eq_nil_or_concat' digits).resolve_left some_digit
      have digit : Text.isHexDigit d = true := List.all_eq_true.mp hex d (by simp)
      have split : before ++ (numbered (init ++ [d]) ending).text
          = (before ++ '\\' :: init ++ [d]) ++ ending := by simp [text]
      rw [split, Text.trimRight_append_blanks blanks, stop (isBlank_of_isHexDigit digit)]
      simp [trimmed, text]

theorem allFit_append {gs hs : List Glyph} {after : List Char} :
    allFit after (gs ++ hs) = (allFit (textOf hs ++ after) gs && allFit after hs) := by
  induction gs with
  | nil => rfl
  | cons g gs ih =>
      simp only [List.cons_append, allFit, ih, textOf_append, List.append_assoc, Bool.and_assoc]

theorem allFit_head {gs : List Glyph} {after more : List Char} (same : after.head? = more.head?) :
    allFit after gs = allFit more gs := by
  induction gs with
  | nil => rfl
  | cons g gs ih =>
      have here : (textOf gs ++ after).head? = (textOf gs ++ more).head? := by
        rw [List.head?_append, List.head?_append, same]
      rw [allFit, allFit, ih, precedes_head here]

theorem allReadable_false (gs : List Glyph) : allReadable false gs = gs.all (isReadable false) := by
  fun_induction allReadable false gs <;> simp_all

theorem allReadable_concat (last : Bool) (gs : List Glyph) (g : Glyph) :
    allReadable last (gs ++ [g]) = (gs.all (isReadable false) && g.isReadable last) := by
  induction gs with
  | nil => rfl
  | cons h gs ih =>
      rw [List.cons_append, allReadable, ih, List.all_cons, Bool.and_assoc]
      exact List.append_ne_nil_of_right_ne_nil gs (List.cons_ne_nil g [])

theorem isReadable_trimmed {g : Glyph} (no_blank : ∀ c, g = escaped c → Text.isBlank c = false) :
    g.trimmed.isReadable false = g.isReadable true := by
  cases g with
  | plain c => rfl
  | escaped c => simp [trimmed, isReadable, no_blank c rfl]
  | numbered digits ending => simp [trimmed, isReadable]

theorem allFit_of_last {gs : List Glyph} (fit : allFit [] gs = true) {after : List Char}
    (goes_on : ∀ g ∈ gs.getLast?, g.precedes after = true) : allFit after gs = true := by
  rcases List.eq_nil_or_concat' gs with rfl | ⟨init, g, rfl⟩
  · rfl
  have last : g.precedes after = true := goes_on g (by simp)
  have same : (textOf [g] ++ []).head? = (textOf [g] ++ after).head? := by
    cases g <;> rfl
  rw [allFit_append] at fit ⊢
  rw [allFit_head same] at fit
  simp only [Bool.and_eq_true] at fit ⊢
  refine ⟨fit.1, ?_⟩
  simp only [allFit, textOf, List.flatMap_nil, List.nil_append, Bool.and_eq_true] at fit ⊢
  exact ⟨⟨fit.2.1.1, last⟩, trivial⟩

theorem precedes_mark {x : Char} (no_blank : Text.isAsciiBlank x = false)
    (no_digit : Text.isHexDigit x = false) (g : Glyph) (more : List Char) :
    g.precedes (x :: more) = true := by
  rcases g with c | c | ⟨digits, _ | ⟨b, bs⟩⟩ <;> simp [precedes, no_blank, no_digit]

end Glyph

end Restyle.Sheet.Written
