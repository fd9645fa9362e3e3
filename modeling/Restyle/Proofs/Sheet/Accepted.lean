import Restyle.Proofs.Sheet.Glyphs
/-!
Which selectors are read as classes. One class with pseudo-classes is read as what it stands for if
and only if its name is readable and its pseudo-classes hold no mark that the reader takes for
something else. Every other selector leaves such a mark, unless all that is beside a class and its
pseudo-classes is a nesting selector.
-/

namespace Restyle.Sheet.Written

/-- The characters that the reader takes for a mark of something other than pseudo-classes. -/
def isMark (c : Char) : Bool := Text.isBlank c || ">+~.[#".toList.contains c

/-- Whether a class with pseudo-classes has a readable name and no mark behind it. -/
def Selector.isReadable (s : Selector) : Bool :=
  match s.first.simples with
  | .ofClass name :: chain =>
    Glyph.allReadable chain.isEmpty name.glyphs && (chain.flatMap Simple.text).all (!isMark ·)
  | _ => false

theorem pseudo_injective {a b : List Char}
    (same : (if a.isEmpty then none else some (String.ofList a))
      = if b.isEmpty then none else some (String.ofList b)) : a = b := by
  cases a with
  | nil =>
      cases b with
      | nil => rfl
      | cons d ds => cases same
  | cons c cs =>
      cases b with
      | nil => cases same
      | cons d ds => exact String.ofList_inj.mp (Option.some.inj same)

theorem parseClassSelector?_eq_some_iff {selector text name chain : List Char}
    (trimmed : Text.trim selector = '.' :: text) (some_char : name ≠ [])
    (follows : chain = [] ∨ isPseudoChain chain = true) :
    parseClassSelector? selector =
        some ⟨String.ofList name, if chain.isEmpty then none else some (String.ofList chain)⟩ ↔
      readClass (text.length + 1) text = some (name, chain) := by
  constructor
  · intro parsed
    rw [parseClassSelector?, trimmed] at parsed
    simp only at parsed
    split at parsed
    · cases parsed
    next name' tail read =>
    split at parsed
    · cases parsed
    split at parsed
    · next nothing =>
        simp only [Option.some.injEq, ClassSelector.mk.injEq, String.ofList_inj] at parsed
        rw [read, parsed.1, List.isEmpty_iff.mp nothing]
        rw [pseudo_injective (a := []) (b := chain) parsed.2]
    · next something =>
        split at parsed
        · simp only [Option.some.injEq, ClassSelector.mk.injEq, String.ofList_inj] at parsed
          rw [read, parsed.1]
          rw [pseudo_injective (a := tail) (b := chain) (by simpa [something] using parsed.2)]
        · cases parsed
  · intro read
    rw [parseClassSelector?_of_trim trimmed some_char read]
    rcases follows with rfl | chained
    · rfl
    · rw [chained]
      split <;> rfl

theorem isPseudoChain_of_parse {selector : List Char} {name pseudo : String}
    (parsed : parseClassSelector? selector = some ⟨name, some pseudo⟩) :
    isPseudoChain pseudo.toList = true := by
  rw [parseClassSelector?] at parsed
  split at parsed
  · split at parsed
    · cases parsed
    split at parsed
    · cases parsed
    split at parsed
    · cases parsed
    split at parsed
    · next chained =>
        simp only [Option.some.injEq, ClassSelector.mk.injEq] at parsed
        rw [← parsed.2, String.toList_ofList, chained]
    · cases parsed
  · cases parsed

theorem parse_eq_none_of_tail {selector text : List Char}
    (trimmed : Text.trim selector = '.' :: text)
    (other : ∀ n name tail, readClass n text = some (name, tail) →
      tail ≠ [] ∧ isPseudoChain tail = false) :
    parseClassSelector? selector = none := by
  rw [parseClassSelector?, trimmed]
  simp only
  split
  · rfl
  next name tail read =>
  obtain ⟨something, no_chain⟩ := other _ _ _ read
  simp [something, no_chain]

/-- Whether a text holds a mark that trimming it leaves there. -/
def HoldsMark (text : List Char) : Prop :=
  ∃ before m behind, text = before ++ m :: behind ∧ isMark m = true ∧
    (Text.isBlank m = false ∨ ∃ d ∈ behind, Text.isBlank d = false)

namespace HoldsMark

theorem here {m : Char} (mark : isMark m = true) (no_blank : Text.isBlank m = false)
    (behind : List Char) : HoldsMark (m :: behind) :=
  ⟨[], m, behind, rfl, mark, .inl no_blank⟩

theorem append_left {text : List Char} (h : HoldsMark text) (front : List Char) :
    HoldsMark (front ++ text) := by
  obtain ⟨before, m, behind, rfl, mark, stays⟩ := h
  exact ⟨front ++ before, m, behind, (List.append_assoc ..).symm, mark, stays⟩

theorem append_right {text : List Char} (h : HoldsMark text) (more : List Char) :
    HoldsMark (text ++ more) := by
  obtain ⟨before, m, behind, rfl, mark, stays⟩ := h
  refine ⟨before, m, behind ++ more, by rw [List.append_assoc, List.cons_append], mark, ?_⟩
  exact stays.imp_right fun ⟨d, hd, no_blank⟩ => ⟨d, List.mem_append_left more hd, no_blank⟩

theorem trimRight_mem {text : List Char} (h : HoldsMark text) :
    ∃ m ∈ Text.trimRight text, isMark m = true := by
  obtain ⟨before, m, behind, rfl, mark, no_blank | ⟨d, hd, no_blank⟩⟩ := h
  · refine ⟨m, ?_, mark⟩
    rw [Text.trimRight, Text.dropWhileEnd_append no_blank]
    simp
  · obtain ⟨between, after, rfl⟩ := List.append_of_mem hd
    refine ⟨m, ?_, mark⟩
    have split : before ++ m :: (between ++ d :: after)
        = (before ++ m :: between) ++ d :: after := by simp
    rw [Text.trimRight, split, Text.dropWhileEnd_append no_blank]
    simp

end HoldsMark

theorem Joint.holdsMark (j : Joint) {after : List Char}
    (some_mark : ∃ d ∈ after, Text.isBlank d = false) : HoldsMark (j.text ++ after) := by
  cases j with
  | blank first others blanks =>
      simp only [List.all_cons, Bool.and_eq_true] at blanks
      have blank := Text.isBlank_of_isAsciiBlank blanks.1
      obtain ⟨d, hd, no_blank⟩ := some_mark
      exact ⟨[], first, others ++ after, rfl, by simp [isMark, blank],
        .inr ⟨d, List.mem_append_right others hd, no_blank⟩⟩
  | signed before sign behind blanks =>
      have mark : isMark sign.mark = true ∧ Text.isBlank sign.mark = false := by
        cases sign <;> decide
      exact ((HoldsMark.here mark.1 mark.2 behind).append_left before).append_right after

mutual

theorem Simple.holdsMark : ∀ s : Simple, s.isFree = false → HoldsMark s.text
  | .ofClass name, _ => .here (by decide) (by decide) name.text
  | .ofId name, _ => .here (by decide) (by decide) name.text
  | .ofAttribute inside, _ => .here (by decide) (by decide) (inside ++ [']'])
  | .function element name arguments, held => by
      have closing : ∃ d ∈ [')'], Text.isBlank d = false := ⟨')', by simp, by decide⟩
      have inside := Part.holdsMark_textOf arguments held closing
      rw [Simple.text, ← List.append_assoc, ← List.singleton_append, ← List.append_assoc]
      exact inside.append_left _

theorem Part.holdsMark : ∀ p : Part, p.isFree = false → ∀ {after : List Char},
    (∃ d ∈ after, Text.isBlank d = false) → HoldsMark (p.text ++ after)
  | .simple s, held, after, _ => (s.holdsMark held).append_right after
  | .joint j, _, _, some_mark => j.holdsMark some_mark

theorem Part.holdsMark_textOf : ∀ ps : List Part, Part.allFree ps = false →
    ∀ {after : List Char}, (∃ d ∈ after, Text.isBlank d = false) →
      HoldsMark (Part.textOf ps ++ after)
  | p :: ps, held, after, some_mark => by
      rw [Part.textOf, List.append_assoc]
      rw [Part.allFree, Bool.and_eq_false_iff] at held
      obtain ⟨d, hd, no_blank⟩ := some_mark
      rcases held with here | later
      · exact p.holdsMark here ⟨d, List.mem_append_right _ hd, no_blank⟩
      · exact (Part.holdsMark_textOf ps later ⟨d, hd, no_blank⟩).append_left p.text

end

theorem Name.value_ne_nil (n : Name) : n.value ≠ [] := by
  simpa [Name.value] using n.some_glyph

theorem Simple.text_pseudo {p : Simple} (pseudo : p.isPseudo = true) :
    ∃ more, p.text = ':' :: more := by
  cases p with
  | ofClass _ | ofId _ | ofAttribute _ | nesting => cases pseudo
  | pseudo element name => cases element <;> exact ⟨_, rfl⟩
  | function element name arguments => cases element <;> exact ⟨_, rfl⟩

theorem chainText_cases {chain : List Simple} (pseudo : ∀ p ∈ chain, p.isPseudo = true) :
    chain = [] ∨ ∃ more, chain.flatMap Simple.text = ':' :: more := by
  cases chain with
  | nil => exact .inl rfl
  | cons p ps =>
      obtain ⟨more, text⟩ := Simple.text_pseudo (pseudo p List.mem_cons_self)
      exact .inr ⟨more ++ ps.flatMap Simple.text, by rw [List.flatMap_cons, text, List.cons_append]⟩

theorem isPseudoChain_colon (more : List Char) :
    isPseudoChain (':' :: more) = (':' :: more).all (!isMark ·) := by
  have colon : isMark ':' = false := by decide
  rw [List.all_cons, colon, Bool.not_false, Bool.true_and, isPseudoChain, ← List.not_any_eq_all_not]
  rfl

theorem pseudoOf_eq {chain : List Simple} (pseudo : ∀ p ∈ chain, p.isPseudo = true) :
    Selector.pseudoOf chain = if (chain.flatMap Simple.text).isEmpty then none
      else some (String.ofList (chain.flatMap Simple.text)) := by
  rcases chainText_cases pseudo with rfl | ⟨more, text⟩
  · rfl
  · have some_simple : chain ≠ [] := by
      rintro rfl
      cases text
    rw [Selector.pseudoOf, text, List.isEmpty_eq_false_iff.mpr some_simple]
    rfl

theorem parse_name_iff (name : Name) :
    parseClassSelector? ('.' :: name.text) = some ⟨String.ofList name.value, none⟩ ↔
      Glyph.allReadable true name.glyphs = true := by
  obtain ⟨glyphs, some_glyph, fit⟩ := name
  obtain ⟨init, g, rfl⟩ := (List.eq_nil_or_concat' glyphs).resolve_left some_glyph
  have parts := fit
  rw [Glyph.allFit_append, Bool.and_eq_true, Glyph.textOf_singleton] at parts
  have last : g.fits = true := by
    have all := parts.2
    rw [Glyph.allFit, Bool.and_eq_true, Bool.and_eq_true] at all
    exact all.1.1
  have trimmed : Text.trim ('.' :: Glyph.textOf (init ++ [g]))
      = '.' :: Text.trimRight (Glyph.textOf init ++ g.text) := by
    rw [Text.trim_cons (by decide), Glyph.textOf_append, Glyph.textOf_singleton]
  have some_char : (init ++ [g]).map Glyph.value ≠ [] := by simp
  rw [Glyph.allReadable_concat]
  rcases Glyph.trimRight_text last (Glyph.textOf init) with ⟨no_blank, kept⟩ | ⟨c, rfl, blank, cut⟩
  · have fit' : Glyph.allFit [] (init ++ [g.trimmed]) = true := by
      rw [Glyph.allFit_append, Glyph.textOf_singleton, Glyph.allFit_head (Glyph.head_trimmed g []),
        parts.1]
      simp [Glyph.allFit, Glyph.fits_trimmed last, Glyph.precedes_trimmed, Glyph.textOf]
    have enough := Glyph.length_le_textOf (init ++ [g.trimmed])
    have read := Glyph.readClass_textOf_iff fit' (.inl rfl) (Nat.lt_succ_of_le enough)
    rw [kept, ← Glyph.textOf_singleton g.trimmed, ← Glyph.textOf_append] at trimmed
    refine (parseClassSelector?_eq_some_iff trimmed some_char (.inl rfl)).trans ?_
    simpa [Glyph.isReadable_trimmed no_blank] using read
  · rw [cut] at trimmed
    have no_name : Glyph.isReadable true (.escaped c) = false := by simp [Glyph.isReadable, blank]
    rw [no_name, Bool.and_false]
    refine (parseClassSelector?_eq_some_iff trimmed some_char (.inl rfl)).trans
      ⟨fun read => ?_, fun h => absurd h Bool.false_ne_true⟩
    have same : Glyph.allFit ['\\'] init = Glyph.allFit ((Glyph.escaped c).text ++ []) init :=
      Glyph.allFit_head rfl
    exact absurd rfl (Glyph.readClass_textOf_backslash (same.trans parts.1) read)

/-- A class is read with pseudo-classes if and only if its name is readable and they hold no
mark. -/
theorem parse_chain_iff (name : Name) {chain : List Simple}
    (pseudo : ∀ p ∈ chain, p.isPseudo = true) :
    parseClassSelector? ('.' :: (name.text ++ chain.flatMap Simple.text))
        = some ⟨String.ofList name.value, Selector.pseudoOf chain⟩ ↔
      (Glyph.allReadable chain.isEmpty name.glyphs
        && (chain.flatMap Simple.text).all (!isMark ·)) = true := by
  rw [pseudoOf_eq pseudo]
  rcases chainText_cases pseudo with rfl | ⟨more, text⟩
  · simpa using parse_name_iff name
  have some_simple : chain.isEmpty = false := by
    cases chain with
    | nil => cases text
    | cons p ps => rfl
  rw [text, some_simple, ← isPseudoChain_colon, Glyph.allReadable_false, Bool.and_eq_true]
  by_cases chained : isPseudoChain (':' :: more) = true
  · have trimmed : Text.trim ('.' :: (name.text ++ ':' :: more))
        = '.' :: (name.text ++ ':' :: more) := by
      have clean := chained
      rw [isPseudoChain_colon] at clean
      have last := List.all_eq_true.mp clean _ (List.getLast_mem (List.cons_ne_nil ':' more))
      apply Text.trim_eq_self rfl
      simp only [isMark, Bool.not_or, Bool.and_eq_true] at last
      simp [List.getLast?_eq_some_getLast, last.1]
    have fit : Glyph.allFit (':' :: more) name.glyphs = true :=
      Glyph.allFit_of_last name.fit fun g _ => Glyph.precedes_mark (by decide) (by decide) g more
    have enough : name.glyphs.length < (name.text ++ ':' :: more).length + 1 := by
      have some_text := Glyph.length_le_textOf name.glyphs
      rw [List.length_append, Name.text]
      omega
    rw [and_iff_left chained]
    exact (parseClassSelector?_eq_some_iff trimmed name.value_ne_nil (.inr chained)).trans
      (Glyph.readClass_textOf_iff fit (.inr ⟨more, rfl⟩) enough)
  · refine ⟨fun parsed => ?_, fun h => absurd h.2 chained⟩
    have seen := isPseudoChain_of_parse parsed
    rw [String.toList_ofList] at seen
    exact absurd seen chained

/-- Whether a text begins with a character that is no blank and by which no class begins. -/
def BeginsOther (text : List Char) : Prop :=
  ∃ c cs, text = c :: cs ∧ Text.isBlank c = false ∧ c ≠ '.'

theorem Glyph.text_begins {g : Glyph} (fits : g.fits = true) : BeginsOther g.text := by
  cases g with
  | plain c =>
      simp only [Glyph.fits, Bool.and_eq_true, Bool.not_eq_true'] at fits
      exact ⟨c, [], rfl, fits.2, isIdentChar_ne fits.1 (by decide)⟩
  | escaped c => exact ⟨'\\', [c], rfl, by decide, by decide⟩
  | numbered digits ending => exact ⟨'\\', digits ++ ending, rfl, by decide, by decide⟩

theorem BeginsOther.append {text : List Char} (h : BeginsOther text) (more : List Char) :
    BeginsOther (text ++ more) := by
  obtain ⟨c, cs, rfl, no_blank, other⟩ := h
  exact ⟨c, cs ++ more, rfl, no_blank, other⟩

theorem Name.text_begins (n : Name) : BeginsOther n.text := by
  obtain ⟨glyphs, some_glyph, fit⟩ := n
  cases glyphs with
  | nil => exact absurd rfl some_glyph
  | cons g gs =>
      simp only [Glyph.allFit, Bool.and_eq_true] at fit
      exact (Glyph.text_begins fit.1.1).append (Glyph.textOf gs)

theorem Element.text_begins (e : Element) : BeginsOther e.text := by
  cases e with
  | named name => exact name.text_begins
  | universal => exact ⟨'*', [], rfl, by decide, by decide⟩

theorem ElementType.text_begins (t : ElementType) : BeginsOther t.text := by
  obtain ⟨scope, element⟩ := t
  rcases scope with _ | _ | e
  · exact element.text_begins
  · exact ⟨'|', element.text, rfl, by decide, by decide⟩
  · exact e.text_begins.append _

/-- The character by which a simple selector begins. -/
def Simple.sign : Simple → Char
  | .ofClass _ => '.'
  | .ofId _ => '#'
  | .ofAttribute _ => '['
  | .nesting => '&'
  | .pseudo .. | .function .. => ':'

theorem Simple.text_sign (s : Simple) : ∃ cs, s.text = s.sign :: cs := by
  cases s with
  | ofClass _ | ofId _ | ofAttribute _ | nesting => exact ⟨_, rfl⟩
  | pseudo element name => exact Simple.text_pseudo (p := .pseudo element name) rfl
  | function element name arguments =>
      exact Simple.text_pseudo (p := .function element name arguments) rfl

theorem Simple.sign_marked (s : Simple) :
    Text.isBlank s.sign = false ∧ isIdentChar s.sign = false ∧ s.sign ≠ '\\' ∧
      Text.isHexDigit s.sign = false := by
  cases s <;> simp only [Simple.sign] <;> decide

theorem parse_of_begins {text : List Char} (h : BeginsOther text) :
    parseClassSelector? text = none := by
  obtain ⟨c, cs, rfl, no_blank, other⟩ := h
  exact parseClassSelector?_of_head (Text.trim_cons no_blank cs) other

theorem Compound.text_marked (c : Compound) : ∃ d ∈ c.text, Text.isBlank d = false := by
  obtain ⟨type, simples, some_simple⟩ := c
  cases type with
  | some t =>
      obtain ⟨d, ds, text, no_blank, -⟩ := t.text_begins
      exact ⟨d, List.mem_append_left _ (by simp [text]), no_blank⟩
  | none =>
      cases simples with
      | nil => simp at some_simple
      | cons s ss =>
          obtain ⟨ds, text⟩ := s.text_sign
          exact ⟨s.sign, by simp [Compound.text, text], s.sign_marked.1⟩

theorem isPseudoChain_of_mark {text : List Char} {m : Char} (there : m ∈ text)
    (mark : isMark m = true) : isPseudoChain text = false := by
  cases text with
  | nil => rfl
  | cons c cs =>
      by_cases colon : c = ':'
      · subst colon
        rw [isPseudoChain_colon, List.all_eq_false]
        exact ⟨m, there, by simp [mark]⟩
      · simp [isPseudoChain, colon]

/-- A class is read as none in front of what neither goes on with its name nor is a chain of
pseudo-classes without marks. -/
theorem parse_class_other {name : Name} {x : Char} {more : List Char}
    (goes_on : ∀ g ∈ name.glyphs.getLast?, g.precedes (x :: more) = true)
    (other : isIdentChar x = false) (no_escape : x ≠ '\\')
    (some_mark : ∃ d ∈ x :: more, Text.isBlank d = false)
    (held : x ≠ ':' ∨ HoldsMark (x :: more)) :
    parseClassSelector? ('.' :: (name.text ++ x :: more)) = none := by
  obtain ⟨more', kept⟩ : ∃ more', Text.trimRight (x :: more) = x :: more' :=
    List.head?_eq_some_iff.mp (Text.head?_trimRight some_mark)
  have trimmed : Text.trim ('.' :: (name.text ++ x :: more))
      = '.' :: (name.text ++ x :: more') := by
    rw [Text.trim_cons (by decide), Text.trimRight_append some_mark, kept]
  have no_chain : isPseudoChain (x :: more') = false := by
    rcases held with no_colon | held
    · simp [isPseudoChain, no_colon]
    · obtain ⟨m, there, mark⟩ := held.trimRight_mem
      exact isPseudoChain_of_mark (kept ▸ there) mark
  have fit : Glyph.allFit (x :: more') name.glyphs = true := by
    apply Glyph.allFit_of_last name.fit
    intro g last
    have same : g.precedes (x :: more') = g.precedes (x :: more) := Glyph.precedes_head rfl
    rw [same, goes_on g last]
  apply parse_eq_none_of_tail trimmed
  intro n read tail reads
  rcases Glyph.readClass_textOf_stop fit other no_escape reads with rfl | ⟨d, ds, rfl, no_colon⟩
  · exact ⟨List.cons_ne_nil x more', no_chain⟩
  · exact ⟨List.cons_ne_nil d ds, by simp [isPseudoChain, no_colon]⟩

theorem Joint.text_begins (j : Joint) : ∃ x more, j.text = x :: more ∧
    (Text.isAsciiBlank x = true ∨ x = '>' ∨ x = '+' ∨ x = '~') := by
  cases j with
  | blank first others blanks =>
      simp only [List.all_cons, Bool.and_eq_true] at blanks
      exact ⟨first, others, rfl, .inl blanks.1⟩
  | signed before sign behind blanks =>
      cases before with
      | nil =>
          refine ⟨sign.mark, behind, rfl, .inr ?_⟩
          cases sign <;> simp [Sign.mark]
      | cons b bs =>
          simp only [List.cons_append, List.all_cons, Bool.and_eq_true] at blanks
          exact ⟨b, bs ++ sign.mark :: behind, rfl, .inl blanks.1⟩

theorem parse_class_joint {name : Name} {j : Joint}
    (apart : (name.isOpen && j.text.head?.any Text.isAsciiBlank) = false) (c : Compound)
    (others : List (Joint × Compound)) :
    parseClassSelector? ('.' :: (name.text ++ (j.text ++ (c.text ++ Selector.joinedText others))))
      = none := by
  obtain ⟨x, more, text, begins⟩ := j.text_begins
  obtain ⟨d, there, no_blank⟩ := c.text_marked
  rw [text, List.cons_append]
  have last : d ∈ x :: (more ++ (c.text ++ Selector.joinedText others)) :=
    List.mem_cons_of_mem x (List.mem_append_right more (List.mem_append_left _ there))
  have some_mark : ∃ d ∈ x :: (more ++ (c.text ++ Selector.joinedText others)),
      Text.isBlank d = false := ⟨d, last, no_blank⟩
  rcases begins with blank | sign
  · have closed : name.isOpen = false := by
      rw [text, List.head?_cons, Option.any_some, blank, Bool.and_true] at apart
      exact apart
    have goes_on : ∀ g ∈ name.glyphs.getLast?, ∀ after, g.precedes (x :: after) = true := by
      intro g last after
      rw [Option.mem_def] at last
      rw [Name.isOpen, last, Option.any_some, Bool.not_eq_false'] at closed
      rcases g with c | c | ⟨digits, _ | ⟨b, bs⟩⟩
      · rfl
      · rfl
      · cases closed
      · rfl
    have stop : isIdentChar x = false ∧ x ≠ '\\' ∧ x ≠ ':' := by
      simp only [Text.isAsciiBlank, Bool.or_eq_true, beq_iff_eq] at blank
      rcases blank with (((rfl | rfl) | rfl) | rfl) | rfl <;> decide
    exact parse_class_other (fun g last => goes_on g last _) stop.1 stop.2.1 some_mark
      (.inl stop.2.2)
  · have stop : isIdentChar x = false ∧ x ≠ '\\' ∧ x ≠ ':' ∧ Text.isAsciiBlank x = false ∧
        Text.isHexDigit x = false := by
      rcases sign with rfl | rfl | rfl <;> decide
    exact parse_class_other (fun g _ => Glyph.precedes_mark stop.2.2.2.1 stop.2.2.2.2 g _) stop.1
      stop.2.1 some_mark (.inl stop.2.2.1)

/-- What makes a selector with pseudo-classes behind its class none of a class leaves a mark, unless
it is a nesting selector. -/
theorem holdsMark_of_other {chain : List Simple} {others : List (Joint × Compound)}
    (no_nesting : chain.all (!·.isNesting) = true)
    (other : others ≠ [] ∨ (chain.all fun p => p.isPseudo && p.isFree) = false) :
    HoldsMark (chain.flatMap Simple.text ++ Selector.joinedText others) := by
  rcases other with joined | held
  · obtain ⟨⟨j, c⟩, more, rfl⟩ := List.exists_cons_of_ne_nil joined
    obtain ⟨d, there, no_blank⟩ := c.text_marked
    have text : Selector.joinedText ((j, c) :: more)
        = j.text ++ (c.text ++ Selector.joinedText more) := by
      rw [Selector.joinedText, List.flatMap_cons, List.append_assoc]
      rfl
    rw [text]
    exact (j.holdsMark ⟨d, List.mem_append_left _ there, no_blank⟩).append_left _
  · obtain ⟨p, there, held⟩ := List.all_eq_false.mp held
    have not_free : p.isFree = false := by
      have no_nest := List.all_eq_true.mp no_nesting p there
      cases p <;> simp_all [Simple.isFree, Simple.isPseudo, Simple.isNesting]
    obtain ⟨before, after, rfl⟩ := List.append_of_mem there
    rw [List.flatMap_append, List.flatMap_cons]
    exact (((p.holdsMark not_free).append_right _).append_left _).append_right _

theorem parse_class_more {name : Name} {chain : List Simple} {others : List (Joint × Compound)}
    (apart : ∀ j c more, chain = [] → others = (j, c) :: more →
      (name.isOpen && j.text.head?.any Text.isAsciiBlank) = false)
    (no_nesting : chain.all (!·.isNesting) = true)
    (other : others ≠ [] ∨ (chain.all fun p => p.isPseudo && p.isFree) = false) :
    parseClassSelector?
      ('.' :: (name.text ++ (chain.flatMap Simple.text ++ Selector.joinedText others))) = none := by
  have held := holdsMark_of_other no_nesting other
  cases chain with
  | nil =>
      have joined : others ≠ [] := other.resolve_right Bool.noConfusion
      obtain ⟨⟨j, c⟩, more, rfl⟩ := List.exists_cons_of_ne_nil joined
      have joined := parse_class_joint (apart j c more rfl rfl) c more
      simpa [Selector.joinedText] using joined
  | cons p ps =>
      obtain ⟨cs, begins⟩ := p.text_sign
      obtain ⟨no_blank, no_ident, no_escape, no_digit⟩ := p.sign_marked
      have no_ascii_blank : Text.isAsciiBlank p.sign = false := by
        cases ascii : Text.isAsciiBlank p.sign with
        | false => rfl
        | true =>
            rw [Text.isBlank_of_isAsciiBlank ascii] at no_blank
            cases no_blank
      rw [List.flatMap_cons, begins, List.cons_append, List.cons_append] at held ⊢
      exact parse_class_other (fun g _ => Glyph.precedes_mark no_ascii_blank no_digit g _) no_ident
        no_escape ⟨p.sign, List.mem_cons_self, no_blank⟩ (.inr held)

theorem Selector.parse_eq_none {s : Selector} (no_class : s.class? = none)
    (no_nesting : s.first.simples.all (!·.isNesting) = true) :
    parseClassSelector? s.text = none := by
  obtain ⟨⟨type, simples, some_simple⟩, others, apart⟩ := s
  cases type with
  | some t => exact parse_of_begins ((t.text_begins.append _).append _)
  | none =>
      cases simples with
      | nil => simp at some_simple
      | cons first chain =>
          have text : (Selector.mk ⟨none, first :: chain, some_simple⟩ others apart).text
              = first.text ++ (chain.flatMap Simple.text ++ joinedText others) := by
            simp [Selector.text, Compound.text]
          rw [text]
          by_cases of_class : ∃ name, first = .ofClass name
          · obtain ⟨name, rfl⟩ := of_class
            rw [List.all_cons, Bool.and_eq_true] at no_nesting
            refine parse_class_more (fun j c more no_chain joined => ?_) no_nesting.2 ?_
            · subst no_chain joined
              simp only [separated, Bool.and_eq_true, Bool.not_eq_true'] at apart
              exact apart.1
            · by_cases alone : others = []
              · subst alone
                simpa [Selector.class?] using no_class
              · exact .inl alone
          · obtain ⟨cs, begins⟩ := first.text_sign
            have no_dot : first.sign ≠ '.' := by
              cases first <;> simp_all [Simple.sign]
            exact parse_of_begins ⟨first.sign, _, by rw [begins, List.cons_append],
              first.sign_marked.1, no_dot⟩

/-- A selector that stands for a class with pseudo-classes is read as that if and only if its name
is readable and nothing behind it looks like a mark of something else. A selector that stands for
none is read as none, if it has no nesting selector beside its first class. -/
theorem Selector.parse_iff (s : Selector) :
    (∀ c, s.class? = some c → (parseClassSelector? s.text = some c ↔ s.isReadable = true)) ∧
      (s.class? = none → s.first.simples.all (!·.isNesting) = true →
        parseClassSelector? s.text = none) := by
  refine ⟨fun c stands => ?_, Selector.parse_eq_none⟩
  obtain ⟨⟨type, simples, some_simple⟩, others, apart⟩ := s
  rw [Selector.class?] at stands
  split at stands
  · next name chain no_type is_class alone =>
      subst no_type is_class alone
      split at stands
      · next all_pseudo =>
          cases stands
          have pseudo : ∀ p ∈ chain, p.isPseudo = true := fun p hp =>
            (Bool.and_eq_true_iff.mp (List.all_eq_true.mp all_pseudo p hp)).1
          have text : (Selector.mk ⟨none, .ofClass name :: chain, some_simple⟩ [] apart).text
              = '.' :: (name.text ++ chain.flatMap Simple.text) := by
            simp [Selector.text, Compound.text, joinedText, Simple.text]
          rw [text, parse_chain_iff name pseudo]
          rfl
      · cases stands
  · cases stands

def identifier (cs : List Char) (some_char : cs ≠ [])
    (fit : Glyph.allFit [] (cs.map .plain) = true) : Name where
  glyphs := cs.map .plain
  some_glyph := by simpa using some_char
  fit := fit

/-- A class with simple selectors behind it. -/
def classWith (name : Name) (chain : List Simple) : Selector where
  first := ⟨none, .ofClass name :: chain, .inr (List.cons_ne_nil _ _)⟩
  others := []
  apart := rfl

def named : Name := identifier ['a'] (by decide) (by decide)

/-- The class of an element by its place among others. -/
def placed (formula : Formula) : Selector :=
  classWith named [.function false (identifier "nth-child".toList (by decide) (by decide))
    [.plain (.formula formula)]]

/-- Every second place from the first one on. -/
def alternate : Formula :=
  .every none (some ⟨['2'], by decide, rfl⟩)
    (some ⟨[], true, [], ⟨['1'], by decide, rfl⟩, rfl⟩)

def visited : Selector :=
  classWith named [.pseudo false (identifier "visited".toList (by decide) (by decide)), .nesting]

/-- A name that begins with a number, which a space ends, and a nested chain behind it. -/
def nested : Selector :=
  classWith ⟨[.numbered ['3', '1'] [' '], .plain '0', .escaped '/', .plain '2'],
      by decide, by decide⟩
    [.function false (identifier "not".toList (by decide) (by decide))
        [.plain (.type ⟨none, .named (identifier ['p'] (by decide) (by decide))⟩),
          .plain (.comma [] [] rfl),
          .simple (.pseudo false (identifier "link".toList (by decide) (by decide)))],
      .pseudo true (identifier "before".toList (by decide) (by decide))]

theorem parse_iff_nested :
    (nested.class? = some ⟨"10/2", some ":not(p,:link)::before"⟩ ∧ nested.isReadable = true) ∧
      parseClassSelector? ".\\31 0\\/2:not(p,:link)::before".toList
        = some ⟨"10/2", some ":not(p,:link)::before"⟩ := by
  have stands : nested.class? = some ⟨"10/2", some ":not(p,:link)::before"⟩ := by decide
  have readable : nested.isReadable = true := by decide
  exact ⟨⟨stands, readable⟩, (nested.parse_iff.1 _ stands).mpr readable⟩

/-- The sign in a formula is taken for a combinator, and a nesting selector behind a pseudo-class
for a part of it. -/
theorem parse_formula :
    ((placed alternate).class? = some ⟨"a", some ":nth-child(2n+1)"⟩ ∧
        (placed alternate).text = ".a:nth-child(2n+1)".toList ∧
        parseClassSelector? (placed alternate).text = none) ∧
      (visited.class? = none ∧ visited.text = ".a:visited&".toList ∧
        parseClassSelector? visited.text = some ⟨"a", some ":visited&"⟩) := by
  decide

end Restyle.Sheet.Written
