import Restyle.Proofs.Sheet.Splitting
/-!
Reading selectors. A class selector is read as its class, and a selector that begins with anything
but a dot or goes on behind a combinator as none.
-/

namespace Restyle.Sheet

theorem readClass_stop {c : Char} (other : isIdentChar c = false) (no_escape : c ≠ '\\') (n : Nat)
    (cs : List Char) : readClass (n + 1) (c :: cs) = some ([], c :: cs) := by
  simp only [readClass, beq_eq_false_iff_ne.mpr no_escape, other, Bool.false_eq_true, if_false]

theorem readClass_ident {c : Char} (h : isIdentChar c = true) (n : Nat) (cs : List Char) :
    readClass (n + 1) (c :: cs) = (readClass n cs).map fun r => (c :: r.1, r.2) := by
  have no_escape : (c == '\\') = false := beq_eq_false_iff_ne.mpr (isIdentChar_ne h (by decide))
  simp only [readClass, no_escape, h, Bool.false_eq_true, if_false, if_true]
  cases readClass n cs <;> rfl

theorem readClass_escaped {c : Char} (h : Text.isHexDigit c = false) (n : Nat) (cs : List Char) :
    readClass (n + 1) ('\\' :: c :: cs) = (readClass n cs).map fun r => (c :: r.1, r.2) := by
  simp only [readClass, beq_self_eq_true, h, Bool.false_eq_true, if_false, if_true]
  cases readClass n cs <;> rfl

theorem takeHex_append {digits after : List Char} (hex : digits.all Text.isHexDigit = true)
    (ends : after.head?.any Text.isHexDigit = false) {limit : Nat} (fit : digits.length ≤ limit) :
    takeHex limit (digits ++ after) = (digits, after) := by
  induction digits generalizing limit with
  | nil =>
      cases after with
      | nil => cases limit <;> rfl
      | cons c cs =>
          have other : Text.isHexDigit c = false := by simpa using ends
          cases limit with
          | zero => rfl
          | succ n => simp only [List.nil_append, takeHex, other, Bool.false_eq_true, if_false]
  | cons d ds ih =>
      obtain ⟨n, rfl⟩ : ∃ n, limit = n + 1 :=
        Nat.exists_eq_succ_of_ne_zero (by simp only [List.length_cons] at fit; omega)
      simp only [List.all_cons, Bool.and_eq_true] at hex
      have shorter : ds.length ≤ n := by simpa using fit
      simp only [List.cons_append, takeHex, hex.1, if_true, ih hex.2 shorter]

theorem takeHex_length {digits : List Char} (hex : digits.all Text.isHexDigit = true)
    (after : List Char) : takeHex digits.length (digits ++ after) = (digits, after) := by
  induction digits with
  | nil => cases after <;> rfl
  | cons d ds ih =>
      simp only [List.all_cons, Bool.and_eq_true] at hex
      simp only [List.length_cons, List.cons_append, takeHex, hex.1, if_true, ih hex.2]

theorem readClass_digits {d : Char} {ds after : List Char} (hex : Text.isHexDigit d = true)
    (taken : takeHex 5 (ds ++ after) = (ds, after)) (n : Nat) :
    readClass (n + 1) ('\\' :: d :: (ds ++ after))
      = (charOfHex? (d :: ds)).bind fun here =>
          (readClass n (dropSpace after)).map fun r => (here :: r.1, r.2) := by
  simp only [readClass, beq_self_eq_true, hex, if_true, taken]
  cases charOfHex? (d :: ds) with
  | none => rfl
  | some here => cases readClass n (dropSpace after) <;> rfl

theorem readClass_numbered {digits after : List Char} (some_digit : digits ≠ [])
    (fit : digits.length ≤ 6) (hex : digits.all Text.isHexDigit = true)
    (ends : after.head?.any Text.isHexDigit = false) (n : Nat) :
    readClass (n + 1) ('\\' :: (digits ++ after))
      = (charOfHex? digits).bind fun here =>
          (readClass n (dropSpace after)).map fun r => (here :: r.1, r.2) := by
  cases digits with
  | nil => exact absurd rfl some_digit
  | cons d ds =>
      simp only [List.all_cons, Bool.and_eq_true] at hex
      have shorter : ds.length ≤ 5 := by
        rw [List.length_cons] at fit
        omega
      exact readClass_digits hex.1 (takeHex_append hex.2 ends shorter) n

theorem readClass_escape {rest : List Char} (ends : rest = [] ∨ ∃ more, rest = ':' :: more)
    (name : List Char) {fuel : Nat} (enough : name.length < fuel) :
    readClass fuel (name.flatMap ClassName.escape ++ rest) = some (name, rest) := by
  obtain ⟨n, rfl⟩ : ∃ n, fuel = n + 1 := Nat.exists_eq_succ_of_ne_zero (by omega)
  induction name generalizing n with
  | nil =>
      rcases ends with rfl | ⟨more, rfl⟩
      · rfl
      · exact readClass_stop (by decide) (by decide) n more
  | cons c name ih =>
      obtain ⟨m, rfl⟩ : ∃ m, n = m + 1 :=
        Nat.exists_eq_succ_of_ne_zero (by simp only [List.length_cons] at enough; omega)
      have later := ih m (by simpa using enough)
      rw [List.flatMap_cons, List.append_assoc, ClassName.escape]
      by_cases plain : isIdentChar c = true
      · rw [if_pos plain, List.singleton_append, readClass_ident plain, later]
        rfl
      · have no_number : Text.isHexDigit c = false := by
          cases digit : Text.isHexDigit c with
          | false => rfl
          | true => exact absurd (isHexDigit_isIdentChar digit) plain
        rw [if_neg plain, List.cons_append, List.singleton_append, readClass_escaped no_number,
          later]
        rfl

theorem Piece.enclosed_opening (marks : Enclosure) :
    isIdentChar marks.opening = false ∧ marks.opening ≠ '\\' := by
  cases marks <;> exact ⟨by decide, by decide⟩

/-- Whatever the name at the front of simple selectors is, the blank behind them stays outside. -/
theorem readClass_stops {pieces : List Piece} (fit : Piece.allFit none pieces = true)
    {rest name tail : List Char} {fuel : Nat}
    (read : readClass fuel (Piece.textOf pieces ++ ' ' :: rest) = some (name, tail)) :
    ∃ before, tail = before ++ ' ' :: rest := by
  induction pieces generalizing fuel name with
  | nil =>
      cases fuel with
      | zero => cases read
      | succ n =>
          have stop := readClass_stop (c := ' ') (by decide) (by decide) n rest
          rw [Piece.textOf, List.nil_append, stop] at read
          cases read
          exact ⟨[], rfl⟩
  | cons p pieces ih =>
      cases fuel with
      | zero => cases read
      | succ n =>
          simp only [Piece.allFit, Bool.and_eq_true] at fit
          obtain ⟨here, later⟩ := fit
          rw [Piece.textOf, List.append_assoc] at read
          -- a piece that belongs to the name leaves the rest to the induction, and one that does
          -- not ends the name at once
          have goes_on : ∀ {found : Option (List Char × List Char)} {f : List Char → List Char},
              found = readClass n (Piece.textOf pieces ++ ' ' :: rest) →
              found.map (fun r => (f r.1, r.2)) = some (name, tail) →
              ∃ before, tail = before ++ ' ' :: rest := by
            rintro found f hfound hmap
            obtain ⟨⟨name', tail'⟩, hr, heq⟩ := Option.map_eq_some_iff.mp hmap
            cases heq
            exact ih later (hfound.symm.trans hr)
          cases p with
          | plain c =>
              rw [Piece.text, List.singleton_append] at read
              by_cases ident : isIdentChar c = true
              · rw [readClass_ident ident] at read
                exact goes_on rfl read
              · have no_escape : c ≠ '\\' := by
                  simp only [Piece.fits, admits, Bool.and_eq_true, bne_iff_ne] at here
                  exact here.1.1.1.1
                rw [readClass_stop (by simpa using ident) no_escape] at read
                cases read
                exact ⟨c :: Piece.textOf pieces, rfl⟩
          | escaped c =>
              simp only [Piece.fits, Bool.not_eq_true'] at here
              rw [Piece.text, List.cons_append, List.singleton_append, readClass_escaped here]
                at read
              exact goes_on rfl read
          | numbered digits =>
              simp only [Piece.fits, Bool.and_eq_true, decide_eq_true_eq, Bool.not_eq_true',
                List.isEmpty_eq_false_iff] at here
              obtain ⟨⟨some_digit, fit⟩, hex⟩ := here
              rw [Piece.text, List.cons_append, List.append_assoc, List.singleton_append,
                readClass_numbered some_digit fit hex rfl] at read
              obtain ⟨here, -, read⟩ := Option.bind_eq_some_iff.mp read
              exact goes_on rfl read
          | enclosed marks inside =>
              obtain ⟨other, no_escape⟩ := Piece.enclosed_opening marks
              rw [Piece.text, List.cons_append, readClass_stop other no_escape] at read
              cases read
              exact ⟨marks.opening :: (Piece.textOf inside ++ [marks.closing])
                ++ Piece.textOf pieces, by simp⟩

theorem isPseudoChain_blank (before rest : List Char) :
    isPseudoChain (before ++ ' ' :: rest) = false := by
  cases before with
  | nil => rfl
  | cons c cs =>
      by_cases colon : c = ':'
      · subst colon
        have blank : Text.isBlank ' ' = true := by decide
        simp only [List.cons_append, isPseudoChain, List.any_append, List.any_cons, blank,
          Bool.true_or, Bool.or_true, Bool.not_true]
      · simp [isPseudoChain, colon]

theorem Piece.text_marked {p : Piece} (fits : p.fits none = true) :
    ∃ c cs, p.text = c :: cs ∧ Text.isBlank c = false := by
  cases p with
  | plain c =>
      simp only [Piece.fits, admits, isJoint, Bool.and_eq_true, Bool.not_eq_true',
        Bool.or_eq_false_iff] at fits
      exact ⟨c, [], rfl, fits.2.1.1.1.1⟩
  | escaped c => exact ⟨'\\', [c], rfl, by decide⟩
  | numbered digits => exact ⟨'\\', digits ++ [' '], rfl, by decide⟩
  | enclosed marks inside =>
      refine ⟨marks.opening, _, rfl, ?_⟩
      cases marks <;> decide

theorem Compound.text_marked (c : Compound) :
    ∃ d ds, c.text = d :: ds ∧ Text.isBlank d = false := by
  have fit := c.fit
  simp only [Piece.allFit, Bool.and_eq_true] at fit
  obtain ⟨d, ds, first, mark⟩ := Piece.text_marked fit.1
  exact ⟨d, ds ++ Piece.textOf c.others, by rw [Compound.text, Piece.textOf, first]; rfl, mark⟩

theorem ClassName.isBlank_of_mem (n : ClassName) {c : Char} (h : c ∈ n.name) :
    Text.isBlank c = false := by
  apply Text.isBlank_of_range
  rcases List.mem_cons.mp h with rfl | later
  · have letter := n.first_letter
    have kinds : n.first.isAlpha = (decide ('A'.val ≤ n.first.val ∧ n.first.val ≤ 'Z'.val)
        || decide ('a'.val ≤ n.first.val) && decide (n.first.val ≤ 'z'.val)) := rfl
    simp only [kinds, Bool.or_eq_true, Bool.and_eq_true, decide_eq_true_eq,
      UInt32.le_iff_toNat_le] at letter
    have bounds : (65 ≤ n.first.toNat ∧ n.first.toNat ≤ 90)
        ∨ (97 ≤ n.first.toNat ∧ n.first.toNat ≤ 122) := letter
    omega
  · have printable := List.all_eq_true.mp n.others_printable c later
    simp only [isPrintable, Bool.and_eq_true, decide_eq_true_eq, Char.le_def,
      UInt32.le_iff_toNat_le] at printable
    exact printable

theorem isBlank_of_mem_escape {name : List Char} (marks : ∀ c ∈ name, Text.isBlank c = false)
    {c : Char} (h : c ∈ name.flatMap ClassName.escape) : Text.isBlank c = false := by
  obtain ⟨d, hd, hc⟩ := List.mem_flatMap.mp h
  rw [ClassName.escape] at hc
  split at hc
  · rw [List.mem_singleton.mp hc]
    exact marks d hd
  · rcases List.mem_cons.mp hc with rfl | hc
    · decide
    · rw [List.mem_singleton.mp hc]
      exact marks d hd

theorem ClassName.isBlank_of_mem_text (n : ClassName) {c : Char} (h : c ∈ n.text) :
    Text.isBlank c = false :=
  isBlank_of_mem_escape (fun _ => n.isBlank_of_mem) h

theorem ClassName.length_le_escape (name : List Char) :
    name.length ≤ (name.flatMap ClassName.escape).length := by
  induction name with
  | nil => exact Nat.le_refl 0
  | cons c name ih =>
      have one : 1 ≤ (ClassName.escape c).length := by
        rw [ClassName.escape]
        split
        · exact Nat.le_refl 1
        · exact Nat.le_succ 1
      rw [List.flatMap_cons, List.length_append, List.length_cons]
      omega

theorem PseudoName.of_mem_text {ps : List PseudoName} {c : Char}
    (h : c ∈ ps.flatMap PseudoName.text) :
    c = ':' ∨ (isIdentChar c = true ∧ Text.isBlank c = false) := by
  obtain ⟨p, -, hc⟩ := List.mem_flatMap.mp h
  rcases List.mem_cons.mp hc with rfl | hc
  · exact .inl rfl
  · have both := List.all_eq_true.mp p.identifier c hc
    rw [Bool.and_eq_true_iff, Bool.not_eq_true'] at both
    exact .inr both

theorem isPseudoChain_text {ps : List PseudoName} (some_name : ps ≠ []) :
    isPseudoChain (ps.flatMap PseudoName.text) = true := by
  obtain ⟨p, ps', rfl⟩ := List.exists_cons_of_ne_nil some_name
  have no_joint : ∀ c ∈ p.name ++ ps'.flatMap PseudoName.text,
      (Text.isBlank c || ">+~.[#".toList.contains c) = false := by
    intro c hc
    have member : c ∈ (p :: ps').flatMap PseudoName.text := by
      rw [List.flatMap_cons]
      exact List.mem_cons_of_mem ':' hc
    rcases PseudoName.of_mem_text member with rfl | ⟨ident, mark⟩
    · decide
    · have apart : ∀ d, isIdentChar d = false → ¬ c = d := fun d hd => isIdentChar_ne ident hd
      simp [mark, apart '>' (by decide), apart '+' (by decide), apart '~' (by decide),
        apart '.' (by decide), apart '[' (by decide), apart '#' (by decide)]
  rw [List.flatMap_cons, PseudoName.text, List.cons_append, isPseudoChain, Bool.not_eq_true',
    List.any_eq_false]
  intro c hc
  rw [no_joint c hc]
  exact Bool.false_ne_true

theorem Selector.trim_ofClass (name : ClassName) (pseudo : List PseudoName) :
    Text.trim (ofClass name pseudo).text = (ofClass name pseudo).text := by
  apply Text.trim_of_marks
  intro c hc
  rcases List.mem_cons.mp hc with rfl | hc
  · decide
  · rcases List.mem_append.mp hc with hc | hc
    · exact name.isBlank_of_mem_text hc
    · rcases PseudoName.of_mem_text hc with rfl | ⟨-, mark⟩
      · decide
      · exact mark

theorem parseClassSelector?_ofClass (name : ClassName) (pseudo : List PseudoName) :
    parseClassSelector? (Selector.ofClass name pseudo).text
      = (Selector.ofClass name pseudo).class? := by
  have ends : pseudo.flatMap PseudoName.text = []
      ∨ ∃ more, pseudo.flatMap PseudoName.text = ':' :: more := by
    cases pseudo with
    | nil => exact .inl rfl
    | cons p ps => exact .inr ⟨p.name ++ ps.flatMap PseudoName.text, rfl⟩
  have enough : name.name.length < (name.text ++ pseudo.flatMap PseudoName.text).length + 1 := by
    have longer := ClassName.length_le_escape name.name
    rw [List.length_append]
    exact Nat.lt_succ_of_le (Nat.le_trans longer (Nat.le_add_right _ _))
  have read : readClass ((name.text ++ pseudo.flatMap PseudoName.text).length + 1)
      (name.text ++ pseudo.flatMap PseudoName.text)
      = some (name.name, pseudo.flatMap PseudoName.text) := readClass_escape ends name.name enough
  rw [parseClassSelector?, Selector.trim_ofClass]
  simp only [Selector.text, read]
  cases pseudo with
  | nil => rfl
  | cons p ps =>
      simp only [isPseudoChain_text (List.cons_ne_nil p ps), if_true]
      rfl

theorem parseClassSelector?_of_head {selector rest : List Char} {c : Char}
    (text : Text.trim selector = c :: rest) (other : c ≠ '.') :
    parseClassSelector? selector = none := by
  rw [parseClassSelector?, text]
  split
  · rename_i selected
    exact absurd (List.cons.inj selected).1 other
  · rfl

theorem Piece.eq_dot {p : Piece} {more cs : List Char} (h : p.text ++ more = '.' :: cs) :
    p = .plain '.' ∧ cs = more := by
  cases p with
  | plain c =>
      obtain ⟨rfl, rfl⟩ := List.cons.inj h
      exact ⟨rfl, rfl⟩
  | escaped c => exact absurd (List.cons.inj h).1 (by decide)
  | numbered digits => exact absurd (List.cons.inj h).1 (by decide)
  | enclosed marks inside =>
      have first : marks.opening = '.' := (List.cons.inj h).1
      cases marks <;> exact absurd first (by decide)

theorem parseClassSelector?_of_blank {selector rest : List Char} {first : Compound}
    (text : Text.trim selector = first.text ++ ' ' :: rest) :
    parseClassSelector? selector = none := by
  rw [parseClassSelector?, text]
  split
  · rename_i name selected
    have fit := first.fit
    simp only [Piece.allFit, Bool.and_eq_true] at fit
    rw [Compound.text, Piece.textOf, List.append_assoc] at selected
    obtain ⟨-, rfl⟩ := Piece.eq_dot selected
    split
    · rfl
    · rename_i name tail read
      obtain ⟨before, rfl⟩ := readClass_stops fit.2 read
      have not_empty : (before ++ ' ' :: rest).isEmpty = false := by
        cases before <;> rfl
      rw [not_empty, isPseudoChain_blank]
      simp only [Bool.false_eq_true, if_false, ite_self]
  · rfl

theorem Combinator.text_eq (k : Combinator) : ∃ rest, k.text = ' ' :: rest := by
  cases k <;> exact ⟨_, rfl⟩

/-- A selector, without the blanks around it, is read as the class it stands for. -/
theorem Selector.parse_trim (s : Selector) :
    Text.trim s.text ≠ [] ∧ parseClassSelector? (Text.trim s.text) = s.class? := by
  cases s with
  | ofClass name pseudo =>
      rw [Selector.trim_ofClass]
      exact ⟨List.cons_ne_nil _ _, parseClassSelector?_ofClass name pseudo⟩
  | simple c no_class =>
      obtain ⟨d, ds, text, mark⟩ := c.text_marked
      have other : d ≠ '.' := by
        rintro rfl
        rw [text] at no_class
        exact no_class rfl
      have once : Text.trim c.text = d :: Text.trimRight ds := by
        rw [text, Text.trim_cons mark]
      refine ⟨by rw [Selector.text, once]; exact List.cons_ne_nil _ _, ?_⟩
      rw [Selector.text, once]
      exact parseClassSelector?_of_head (Text.trim_cons mark _) other
  | joined first combinator second others =>
      obtain ⟨d, ds, start, front⟩ := first.text_marked
      obtain ⟨e, es, stop, back⟩ := second.text_marked
      obtain ⟨ks, blank⟩ := combinator.text_eq
      have trimmed : ∀ after, Text.trim (first.text ++ ' ' :: (ks ++ e :: after))
          = first.text ++ ' ' :: (ks ++ e :: Text.trimRight after) := by
        intro after
        have inner := Text.trim_cons_append front back (ds ++ ' ' :: ks) after
        simpa only [start, List.cons_append, List.append_assoc] using inner
      have text : (Selector.joined first combinator second others).text
          = first.text ++ ' ' :: (ks ++ e :: (es ++ Selector.joinedText others)) := by
        simp only [Selector.text, blank, stop, List.cons_append]
      rw [text, trimmed]
      refine ⟨by simp [start], ?_⟩
      exact parseClassSelector?_of_blank (trimmed _)

end Restyle.Sheet
