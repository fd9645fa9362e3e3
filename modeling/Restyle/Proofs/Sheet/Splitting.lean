import Restyle.Proofs.Sheet.Printed
import Restyle.Proofs.Text.Blanks
/-!
Splitting a list of selectors. The list falls apart at the commas between its selectors and at no
other comma, as long as no bracket stands in quotes.
-/

namespace Restyle.Sheet

theorem isIdentChar_ne {c d : Char} (h : isIdentChar c = true) (other : isIdentChar d = false) :
    c ≠ d := by
  rintro rfl
  rw [h] at other
  cases other

theorem isBracket_of_isIdentChar {c : Char} (h : isIdentChar c = true) : isBracket c = false := by
  have apart : ∀ d, isIdentChar d = false → (c == d) = false := fun d hd =>
    beq_eq_false_iff_ne.mpr (isIdentChar_ne h hd)
  simp only [isBracket, apart '(' (by decide), apart ')' (by decide), apart '[' (by decide),
    apart ']' (by decide), Bool.or_false]

theorem isHexDigit_isIdentChar {c : Char} (h : Text.isHexDigit c = true) : isIdentChar c = true := by
  have alphanumeric : c.isAlphanum = true := by
    have kinds : c.isAlphanum = ((decide ('A' ≤ c ∧ c ≤ 'Z')
        || decide ('a' ≤ c) && decide (c ≤ 'z')) || c.isDigit) := rfl
    simp only [Text.isHexDigit, Bool.or_eq_true, Bool.and_eq_true, decide_eq_true_eq] at h
    simp only [kinds, Bool.or_eq_true, Bool.and_eq_true, decide_eq_true_eq]
    rcases h with (digit | ⟨low, high⟩) | ⟨low, high⟩
    · exact .inr digit
    · exact .inl (.inr ⟨low, Char.le_trans high (by decide)⟩)
    · exact .inl (.inl ⟨low, Char.le_trans high (by decide)⟩)
  simp only [isIdentChar, alphanumeric, Bool.true_or]

/-- Whether a text changes nothing in how the rest of a list is split at a depth of brackets. -/
def Inseparable (depth : Int) (text : List Char) : Prop :=
  ∀ part rest,
    splitFrom depth false part (text ++ rest) = splitFrom depth false (text.reverse ++ part) rest

theorem Inseparable.nil (depth : Int) : Inseparable depth [] := by
  intro part rest
  rfl

theorem Inseparable.append {depth : Int} {text more : List Char} (h : Inseparable depth text)
    (h' : Inseparable depth more) : Inseparable depth (text ++ more) := by
  intro part rest
  rw [List.append_assoc, h, h', List.reverse_append, List.append_assoc]

theorem Inseparable.flatMap {α : Type} {depth : Int} {f : α → List Char} {xs : List α}
    (h : ∀ x ∈ xs, Inseparable depth (f x)) : Inseparable depth (xs.flatMap f) := by
  induction xs with
  | nil => exact .nil depth
  | cons x xs ih =>
      rw [List.flatMap_cons]
      exact (h x List.mem_cons_self).append (ih fun y hy => h y (List.mem_cons_of_mem x hy))

theorem Inseparable.plain {depth : Int} {c : Char} (no_escape : c ≠ '\\')
    (no_bracket : isBracket c = false) (no_comma : c ≠ ',' ∨ depth ≠ 0) :
    Inseparable depth [c] := by
  intro part rest
  simp only [isBracket, Bool.or_eq_false_iff, beq_eq_false_iff_ne] at no_bracket
  obtain ⟨⟨⟨round, round'⟩, square⟩, square'⟩ := no_bracket
  have not_split : (c == ',' && depth == 0) = false := by
    rcases no_comma with other | inside
    · simp only [beq_eq_false_iff_ne.mpr other, Bool.false_and]
    · simp only [beq_eq_false_iff_ne.mpr inside, Bool.and_false]
  simp only [List.singleton_append, splitFrom, Bool.false_eq_true, if_false,
    beq_eq_false_iff_ne.mpr no_escape, beq_eq_false_iff_ne.mpr round,
    beq_eq_false_iff_ne.mpr round', beq_eq_false_iff_ne.mpr square,
    beq_eq_false_iff_ne.mpr square', not_split, Bool.or_self, List.reverse_singleton]

theorem Inseparable.ident {depth : Int} {c : Char} (h : isIdentChar c = true) :
    Inseparable depth [c] :=
  .plain (isIdentChar_ne h (by decide)) (isBracket_of_isIdentChar h)
    (.inl (isIdentChar_ne h (by decide)))

theorem Inseparable.idents {depth : Int} {text : List Char}
    (h : ∀ c ∈ text, isIdentChar c = true) : Inseparable depth text := by
  have pieces : Inseparable depth (text.flatMap fun c => [c]) := .flatMap fun c hc => .ident (h c hc)
  simpa using pieces

theorem Inseparable.escaped (depth : Int) (c : Char) : Inseparable depth ['\\', c] := by
  intro part rest
  rfl

/-- Brackets around a text leave the depth as it was. -/
theorem Inseparable.enclosed {depth : Int} {text : List Char} {marks : Enclosure}
    (brackets : marks.isQuote = false) (h : Inseparable (depth + 1) text) :
    Inseparable depth (marks.opening :: (text ++ [marks.closing])) := by
  intro part rest
  have opened : ∀ more, splitFrom depth false part (marks.opening :: more)
      = splitFrom (depth + 1) false (marks.opening :: part) more := by
    intro more
    cases marks with
    | round | square => rfl
    | double | single => cases brackets
  have closed : ∀ part', splitFrom (depth + 1) false part' (marks.closing :: rest)
      = splitFrom depth false (marks.closing :: part') rest := by
    intro part'
    have back : depth + 1 - 1 = depth := by omega
    cases marks with
    | round | square => simp [splitFrom, Enclosure.closing, back]
    | double | single => cases brackets
  rw [List.cons_append, opened, List.append_assoc, h, List.singleton_append, closed]
  simp only [List.reverse_cons, List.reverse_append, List.reverse_nil, List.nil_append,
    List.append_assoc, List.cons_append]

theorem Inseparable.quoted {depth : Int} {text : List Char} {marks : Enclosure}
    (quotes : marks.isQuote = true) (h : Inseparable depth text) :
    Inseparable depth (marks.opening :: (text ++ [marks.closing])) := by
  have mark : Inseparable depth [marks.opening] ∧ Inseparable depth [marks.closing] := by
    cases marks with
    | round | square => cases quotes
    | double | single =>
        exact ⟨.plain (by decide) (by decide) (.inl (by decide)),
          .plain (by decide) (by decide) (.inl (by decide))⟩
  exact mark.1.append (h.append mark.2)

theorem Inseparable.numbered (depth : Int) {digits : List Char}
    (h : digits.all Text.isHexDigit = true) :
    Inseparable depth ('\\' :: (digits ++ [' '])) := by
  have space : Inseparable depth [' '] := .plain (by decide) (by decide) (.inl (by decide))
  cases digits with
  | nil => exact .escaped depth ' '
  | cons d ds =>
      have later : ∀ c ∈ ds, isIdentChar c = true := fun c hc =>
        isHexDigit_isIdentChar (List.all_eq_true.mp h c (List.mem_cons_of_mem d hc))
      exact (Inseparable.escaped depth d).append ((Inseparable.idents later).append space)

/-- The depth of brackets at which pieces of a region stand. -/
def Stands (region : Option Enclosure) (depth : Int) : Prop :=
  match region with
  | none => depth = 0
  | some _ => 0 < depth

theorem Stands.inside {region : Option Enclosure} {depth : Int} (h : Stands region depth)
    (marks : Enclosure) : Stands (some marks) (depth + 1) := by
  cases region with
  | none =>
      have outside : depth = 0 := h
      subst outside
      exact Int.zero_lt_one
  | some e =>
      have inside : 0 < depth := h
      exact Int.lt_add_one_of_le (Int.le_of_lt inside)

theorem inseparable_plain {region : Option Enclosure} {c : Char} {depth : Int}
    (fits : admits region c = true)
    (unquoted : (region.any Enclosure.isQuote && isBracket c) = false)
    (stands : Stands region depth) : Inseparable depth [c] := by
  cases region with
  | none =>
      simp only [admits, isJoint, Bool.and_eq_true, bne_iff_ne, ne_eq, Bool.not_eq_true',
        Bool.or_eq_false_iff, beq_eq_false_iff_ne] at fits
      obtain ⟨⟨⟨⟨no_escape, no_bracket⟩, -⟩, -⟩, -, no_comma⟩ := fits
      exact .plain no_escape no_bracket (.inl no_comma)
  | some e =>
      have deep : depth ≠ 0 := Int.ne_of_gt stands
      cases quote : e.isQuote with
      | true =>
          simp only [admits, quote, if_true, Bool.and_eq_true, bne_iff_ne, ne_eq] at fits
          simp only [Option.any_some, quote, Bool.true_and] at unquoted
          exact .plain fits.1 unquoted (.inr deep)
      | false =>
          simp only [admits, quote, Bool.false_eq_true, if_false, Bool.and_eq_true, bne_iff_ne,
            ne_eq, Bool.not_eq_true'] at fits
          obtain ⟨⟨⟨no_escape, no_bracket⟩, -⟩, -⟩ := fits
          exact .plain no_escape no_bracket (.inr deep)

mutual
theorem Piece.inseparable {region : Option Enclosure} {depth : Int} (stands : Stands region depth) :
    ∀ p : Piece, p.fits region = true → p.bracketsUnquoted region = true →
      Inseparable depth p.text
  | .plain c, fits, unquoted => by
      simp only [Piece.fits] at fits
      simp only [Piece.bracketsUnquoted, Bool.not_eq_true'] at unquoted
      exact inseparable_plain fits unquoted stands
  | .escaped c, _, _ => .escaped depth c
  | .numbered digits, fits, _ => by
      simp only [Piece.fits, Bool.and_eq_true] at fits
      exact .numbered depth fits.2
  | .enclosed marks inside, fits, unquoted => by
      simp only [Piece.bracketsUnquoted] at unquoted
      cases quote : marks.isQuote with
      | false =>
          have fit : Piece.allFit (some marks) inside = true := by
            cases region <;> simp_all [Piece.fits]
          exact .enclosed quote (Piece.inseparable_textOf (stands.inside marks) inside fit unquoted)
      | true =>
          cases region with
          | none => simp [Piece.fits, quote] at fits
          | some e =>
              simp only [Piece.fits, Bool.and_eq_true] at fits
              have same : Stands (some marks) depth := stands
              exact .quoted quote (Piece.inseparable_textOf same inside fits.2 unquoted)

theorem Piece.inseparable_textOf {region : Option Enclosure} {depth : Int}
    (stands : Stands region depth) :
    ∀ ps : List Piece, Piece.allFit region ps = true →
      Piece.allBracketsUnquoted region ps = true → Inseparable depth (Piece.textOf ps)
  | [], _, _ => .nil depth
  | p :: ps, fit, unquoted => by
      simp only [Piece.allFit, Bool.and_eq_true] at fit
      simp only [Piece.allBracketsUnquoted, Bool.and_eq_true] at unquoted
      exact (p.inseparable stands fit.1 unquoted.1).append
        (Piece.inseparable_textOf stands ps fit.2 unquoted.2)
end

theorem Compound.inseparable (c : Compound) (h : c.bracketsUnquoted = true) :
    Inseparable 0 c.text :=
  Piece.inseparable_textOf (show Stands none 0 from rfl) _ c.fit h

theorem inseparable_escape (name : List Char) : Inseparable 0 (name.flatMap ClassName.escape) := by
  apply Inseparable.flatMap
  intro c _
  by_cases plain : isIdentChar c = true
  · rw [ClassName.escape, if_pos plain]
    exact .ident plain
  · rw [ClassName.escape, if_neg plain]
    exact .escaped 0 c

theorem ClassName.inseparable (n : ClassName) : Inseparable 0 n.text := inseparable_escape n.name

theorem PseudoName.isIdentChar_of_mem (p : PseudoName) {c : Char} (h : c ∈ p.name) :
    isIdentChar c = true := by
  have both := List.all_eq_true.mp p.identifier c h
  exact (Bool.and_eq_true_iff.mp both).1

theorem PseudoName.inseparable (p : PseudoName) : Inseparable 0 p.text := by
  have colon : Inseparable 0 [':'] := .plain (by decide) (by decide) (.inl (by decide))
  exact colon.append (.idents fun _ => p.isIdentChar_of_mem)

theorem Combinator.inseparable (k : Combinator) : Inseparable 0 k.text := by
  have space : Inseparable 0 [' '] := .plain (by decide) (by decide) (.inl (by decide))
  have sign : ∀ c, c ≠ '\\' → isBracket c = false → c ≠ ',' → Inseparable 0 [' ', c, ' '] :=
    fun c h h' h'' => space.append ((Inseparable.plain h h' (.inl h'')).append space)
  cases k with
  | descendant => exact space
  | child | adjacent | sibling => exact sign _ (by decide) (by decide) (by decide)

theorem Selector.inseparable (s : Selector) (h : s.bracketsUnquoted = true) :
    Inseparable 0 s.text := by
  cases s with
  | ofClass name pseudo =>
      have dot : Inseparable 0 ['.'] := .plain (by decide) (by decide) (.inl (by decide))
      exact dot.append (name.inseparable.append (.flatMap fun p _ => p.inseparable))
  | simple c _ => exact c.inseparable h
  | joined first combinator second others =>
      simp only [Selector.bracketsUnquoted, Bool.and_eq_true] at h
      obtain ⟨⟨first_unquoted, second_unquoted⟩, others_unquoted⟩ := h
      have rest : Inseparable 0 (Selector.joinedText others) := by
        apply Inseparable.flatMap
        intro o ho
        exact o.1.inseparable.append (o.2.inseparable (List.all_eq_true.mp others_unquoted o ho))
      exact (first.inseparable first_unquoted).append
        (combinator.inseparable.append ((second.inseparable second_unquoted).append rest))

theorem splitFrom_intercalate {texts : List (List Char)} (some_text : texts ≠ [])
    (whole : ∀ t ∈ texts, Inseparable 0 t) {lead : List Char}
    (blank : ∀ t, Text.trim (lead ++ t) = Text.trim t) :
    (splitFrom 0 false lead.reverse ([',', ' '].intercalate texts)).map Text.trim
      = texts.map Text.trim := by
  induction texts generalizing lead with
  | nil => exact absurd rfl some_text
  | cons t texts ih =>
      have first : ∀ rest, splitFrom 0 false lead.reverse (t ++ rest)
          = splitFrom 0 false (lead ++ t).reverse rest := by
        intro rest
        rw [whole t List.mem_cons_self, List.reverse_append]
      cases texts with
      | nil =>
          have alone := first []
          rw [List.append_nil] at alone
          simp only [List.intercalate_singleton, alone, splitFrom, List.reverse_reverse,
            List.map_cons, List.map_nil, blank]
      | cons u us =>
          have space : ∀ t, Text.trim ([' '] ++ t) = Text.trim t :=
            fun t => Text.trim_blank_cons (by decide) t
          have later := ih (List.cons_ne_nil u us)
            (fun v hv => whole v (List.mem_cons_of_mem t hv)) space
          have apart : splitFrom 0 false (lead ++ t).reverse
              (',' :: ' ' :: [',', ' '].intercalate (u :: us))
              = (lead ++ t) :: splitFrom 0 false [' '].reverse
                  ([',', ' '].intercalate (u :: us)) := by
            have here : splitFrom 0 false (lead ++ t).reverse
                (',' :: ' ' :: [',', ' '].intercalate (u :: us))
                = (lead ++ t).reverse.reverse :: splitFrom 0 false [' '].reverse
                  ([',', ' '].intercalate (u :: us)) := rfl
            rw [here, List.reverse_reverse]
          rw [List.intercalate_cons_cons, List.append_assoc, first, List.cons_append,
            List.cons_append, List.nil_append, apart, List.map_cons, later, blank]
          rfl

theorem splitSelectorList_intercalate {texts : List (List Char)}
    (whole : ∀ t ∈ texts, Inseparable 0 t) (marked : ∀ t ∈ texts, Text.trim t ≠ []) :
    splitSelectorList ([',', ' '].intercalate texts) = texts.map Text.trim := by
  by_cases some_text : texts = []
  · subst some_text
    rfl
  · have parts := splitFrom_intercalate some_text whole fun t => by rw [List.nil_append]
    rw [List.reverse_nil] at parts
    rw [splitSelectorList, parts, List.filter_eq_self]
    intro t ht
    obtain ⟨u, hu, rfl⟩ := List.mem_map.mp ht
    simpa using marked u hu

end Restyle.Sheet
