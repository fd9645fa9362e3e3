import Restyle.Proofs.Component.References
import Restyle.Proofs.Script.Template
/-!
Expressions made of names, members, calls, strings and differences: their tokens, and how a text is
read as one. A text is read as an expression just if its tokens are those of the expression and no
name in it is a reserved word.
-/

namespace Restyle.Script

def IsEscape (escape : List Char) : Prop :=
  escape ≠ [] ∧ ∀ more, unicodeEscape (escape ++ more) = escape.length

/-- Characters of words and escapes, one after another. -/
inductive Pieces : List Char → Prop
  | nil : Pieces []
  | part {c : Char} {cs : List Char} (word : isWordPart c = true) (rest : Pieces cs) :
      Pieces (c :: cs)
  | escape {e cs : List Char} (escape : IsEscape e) (rest : Pieces cs) : Pieces ('\\' :: (e ++ cs))

structure IsWord (w : List Char) : Prop where
  pieces : Pieces w
  begins : ∃ c ∈ w.head?, c.isDigit = false

/-- A text that goes on with no word. -/
def Ends (rest : List Char) : Prop := ∀ c ∈ rest.head?, isNamePart c = false

theorem isNamePart_of_isWordPart {c : Char} (h : isWordPart c = true) : isNamePart c = true := by
  rw [isNamePart, h, Bool.true_or]

theorem isWordPart_of_isHexDigit {c : Char} (h : Text.isHexDigit c = true) :
    isWordPart c = true := by
  have ascii : c.toNat < 128 := by
    simp only [Text.isHexDigit, Char.isDigit, Bool.or_eq_true, Bool.and_eq_true,
      decide_eq_true_eq, Char.le_def, UInt32.le_iff_toNat_le] at h
    simp at h
    omega
  have table : ∀ n < 128, Text.isHexDigit (Char.ofNat n) = true →
      isWordPart (Char.ofNat n) = true := by decide
  have own := table c.toNat ascii
  rw [Char.ofNat_toNat] at own
  exact own h

theorem isEscape_braced {digits : List Char} (some_ : 0 < digits.length)
    (hex : ∀ c ∈ digits, Text.isHexDigit c = true) :
    IsEscape ('u' :: '\x7b' :: (digits ++ ['\x7d'])) := by
  refine ⟨List.cons_ne_nil _ _, fun more => ?_⟩
  have taken : (digits ++ '\x7d' :: more).takeWhile Text.isHexDigit = digits := by
    rw [List.takeWhile_append_of_pos hex, List.takeWhile_cons_of_neg (by decide), List.append_nil]
  simp only [List.cons_append, List.append_assoc, List.nil_append, unicodeEscape, taken,
    List.drop_left, List.head?_cons, beq_self_eq_true, some_, decide_true, Bool.and_self, if_true,
    List.length_cons, List.length_append, List.length_nil]

theorem isEscape_four {a b c d : Char} (hex : [a, b, c, d].all Text.isHexDigit = true) :
    IsEscape ['u', a, b, c, d] := by
  refine ⟨List.cons_ne_nil _ _, fun more => ?_⟩
  have no_brace : a ≠ '\x7b' := by
    rintro rfl
    have digit := List.all_eq_true.mp hex '\x7b' List.mem_cons_self
    revert digit
    decide
  simp only [List.cons_append, List.nil_append]
  unfold unicodeEscape
  split
  · rename_i same
    simp only [List.cons.injEq, true_and] at same
    exact absurd same.1 no_brace
  · rename_i same
    simp only [List.cons.injEq, true_and] at same
    obtain ⟨rfl, rfl, rfl, rfl, -⟩ := same
    rw [if_pos hex]
    rfl
  · rename_i other
    exact absurd rfl (other a b c d more)

theorem exists_escape {cs : List Char} {n : Nat} (h : unicodeEscape cs = n + 1) :
    ∃ e rest, cs = e ++ rest ∧ e.length = n + 1 ∧ IsEscape e ∧ ∀ c ∈ e, isNamePart c = true := by
  unfold unicodeEscape at h
  split at h
  · rename_i cs
    dsimp only at h
    split at h
    · rename_i closed
      obtain ⟨some_digit, brace⟩ := Bool.and_eq_true_iff.mp closed
      obtain ⟨rest, behind⟩ := List.head?_eq_some_iff.mp (eq_of_beq brace)
      have digits := @List.takeWhile_append_dropWhile _ Text.isHexDigit cs
      have drop : cs.dropWhile Text.isHexDigit = '\x7d' :: rest := by
        rw [← behind]
        conv => rhs; arg 2; rw [← digits]
        rw [List.drop_left]
      have hex := List.all_takeWhile (p := Text.isHexDigit) (l := cs)
      rw [drop] at digits
      generalize cs.takeWhile Text.isHexDigit = ds at *
      have all := List.all_eq_true.mp hex
      refine ⟨'u' :: '\x7b' :: (ds ++ ['\x7d']), rest, ?_, ?_,
        isEscape_braced (of_decide_eq_true some_digit) all, ?_⟩
      · rw [← digits]
        simp
      · simp only [List.length_cons, List.length_append, List.length_nil]
        omega
      · intro c member
        simp only [List.mem_cons, List.mem_append, List.not_mem_nil, or_false] at member
        rcases member with rfl | rfl | digit | rfl
        · decide
        · decide
        · exact isNamePart_of_isWordPart (isWordPart_of_isHexDigit (all c digit))
        · decide
    · cases h
  · rename_i a b c d rest _
    split at h
    · rename_i hex
      refine ⟨['u', a, b, c, d], rest, rfl, h, isEscape_four hex, fun x member => ?_⟩
      rcases List.mem_cons.mp member with rfl | digit
      · decide
      · exact isNamePart_of_isWordPart (isWordPart_of_isHexDigit (List.all_eq_true.mp hex x digit))
    · cases h
  · cases h

theorem IsEscape.all_isNamePart {e : List Char} (h : IsEscape e) :
    ∀ c ∈ e, isNamePart c = true := by
  have size := h.2 []
  rw [List.append_nil] at size
  obtain ⟨n, length⟩ := Nat.exists_eq_succ_of_ne_zero (mt List.length_eq_zero_iff.mp h.1)
  obtain ⟨e', rest, text, length', -, parts⟩ := exists_escape (size.trans length)
  have nothing : rest = [] := by
    have sizes := congrArg List.length text
    rw [List.length_append] at sizes
    exact List.length_eq_zero_iff.mp (by omega)
  rw [text, nothing, List.append_nil]
  exact parts

theorem Pieces.all_isNamePart {w : List Char} (h : Pieces w) : ∀ c ∈ w, isNamePart c = true := by
  induction h with
  | nil => exact fun c member => absurd member List.not_mem_nil
  | part word _ ih => exact List.forall_mem_cons.mpr ⟨isNamePart_of_isWordPart word, ih⟩
  | escape escape _ ih =>
      refine List.forall_mem_cons.mpr ⟨by decide, fun c member => ?_⟩
      exact (List.mem_append.mp member).elim (escape.all_isNamePart c) (ih c)

theorem pieces_of_plain {w : List Char} (plain : w.all isWordPart = true) : Pieces w := by
  induction w with
  | nil => exact .nil
  | cons c w ih =>
      rw [List.all_cons, Bool.and_eq_true] at plain
      exact .part plain.1 (ih plain.2)

theorem Pieces.append {v w : List Char} (front : Pieces v) (back : Pieces w) : Pieces (v ++ w) := by
  induction front with
  | nil => exact back
  | part word _ ih => exact .part word ih
  | escape escape _ ih =>
      rw [List.cons_append, List.append_assoc]
      exact .escape escape ih

/-- Words of plain characters. -/
theorem isWord_of_plain {w : List Char} (plain : w.all isWordPart = true)
    (begins : w.head?.any (!·.isDigit) = true) : IsWord w where
  pieces := pieces_of_plain plain
  begins := by
    cases w with
    | nil => cases begins
    | cons c w => exact ⟨c, rfl, by simpa using begins⟩

theorem wordTail_of_ends {rest : List Char} (ends : Ends rest) (fuel : Nat) :
    wordTail fuel rest = 0 := by
  cases fuel with
  | zero => rfl
  | succ fuel =>
      cases rest with
      | nil => rfl
      | cons c rest =>
          have other := ends c rfl
          rw [isNamePart, Bool.or_eq_false_iff] at other
          have no_escape : (c == '\\') = false :=
            beq_false_of_ne fun same => by subst same; revert other; decide
          simp only [wordTail, other.1, no_escape, Bool.false_eq_true, if_false]

theorem wordTail_append {w rest : List Char} (pieces : Pieces w) (ends : Ends rest) :
    ∀ {fuel : Nat}, (w ++ rest).length < fuel → wordTail fuel (w ++ rest) = w.length := by
  induction pieces with
  | nil => exact fun _ => wordTail_of_ends ends _
  | part word _ ih =>
      intro fuel enough
      rw [List.cons_append, List.length_cons] at enough
      obtain ⟨fuel, rfl⟩ : ∃ k, fuel = k + 1 := ⟨fuel - 1, by omega⟩
      rw [List.cons_append, wordTail, if_pos word, ih (by omega), List.length_cons, Nat.add_comm]
  | @escape e cs escape _ ih =>
      intro fuel enough
      rw [List.cons_append, List.length_cons, List.append_assoc, List.length_append] at enough
      obtain ⟨fuel, rfl⟩ : ∃ k, fuel = k + 1 := ⟨fuel - 1, by omega⟩
      obtain ⟨n, length⟩ := Nat.exists_eq_succ_of_ne_zero (mt List.length_eq_zero_iff.mp escape.1)
      have backslash : isWordPart '\\' = false := by decide
      have size : unicodeEscape (e ++ (cs ++ rest)) = n + 1 := (escape.2 _).trans length
      rw [List.cons_append, List.append_assoc, wordTail, backslash, if_neg Bool.false_ne_true,
        if_pos (beq_self_eq_true '\\'), size]
      dsimp only
      rw [← Nat.succ_eq_add_one n, ← length, List.drop_left, ih (by omega), List.length_cons,
        List.length_append]
      omega

theorem pieces_take_wordTail (fuel : Nat) (cs : List Char) :
    Pieces (cs.take (wordTail fuel cs)) := by
  induction fuel generalizing cs with
  | zero => exact .nil
  | succ fuel ih =>
      cases cs with
      | nil => exact .nil
      | cons c cs =>
          rw [wordTail]
          split
          · rename_i word
            rw [Nat.add_comm, List.take_succ_cons]
            exact .part word (ih cs)
          · split
            · rename_i backslash
              obtain rfl := eq_of_beq backslash
              split
              · exact .nil
              · rename_i n size
                obtain ⟨e, rest, rfl, length, escape, -⟩ := exists_escape size
                have cut : n + 2 + wordTail fuel ((e ++ rest).drop (n + 1))
                    = (e.length + wordTail fuel rest) + 1 := by
                  rw [← length, List.drop_left]
                  omega
                rw [cut, List.take_succ_cons, List.take_length_add_append]
                exact .escape escape (ih rest)
            · exact .nil

theorem IsWord.exists_cons {w : List Char} (h : IsWord w) :
    ∃ c cs, w = c :: cs ∧ c.isDigit = false ∧ isNamePart c = true := by
  obtain ⟨c, first, letter⟩ := h.begins
  obtain ⟨cs, rfl⟩ := List.head?_eq_some_iff.mp first
  exact ⟨c, cs, rfl, letter, h.pieces.all_isNamePart c List.mem_cons_self⟩

theorem word_append {w rest : List Char} (h : IsWord w) (ends : Ends rest) :
    word (w ++ rest) = w.length := by
  have tail := @wordTail_append w rest h.pieces ends _ (Nat.lt_succ_self _)
  obtain ⟨c, cs, rfl, letter, -⟩ := h.exists_cons
  rw [List.cons_append] at tail ⊢
  rw [word, letter, if_neg Bool.false_ne_true]
  exact tail

theorem all_isNamePart_take_word (cs : List Char) :
    ∀ c ∈ cs.take (word cs), isNamePart c = true := by
  cases cs with
  | nil => exact fun c member => absurd member List.not_mem_nil
  | cons c cs =>
      rw [word]
      split
      · exact fun c member => absurd member List.not_mem_nil
      · exact (pieces_take_wordTail _ _).all_isNamePart

/-- The tokens of an expression: words, strings without escapes, and all other characters. -/
inductive Token where
  | word (text : List Char)
  | string (content : List Char)
  | mark (c : Char)
deriving DecidableEq, Repr

/-- The content of the string at the front of a text, if it has no escape and ends on its line. -/
def stringContent? : List Char → Option (List Char)
  | [] => none
  | quote :: cs =>
    let content := cs.takeWhile fun c => c != quote && c != '\\' && c != '\n' && c != '\r'
    if (quote == '\'' || quote == '"') && (cs.drop content.length).head? == some quote
    then some content else none

/-- The tokens of a text. Blanks and comments are none. The first `passed` characters belong to what
was read before. -/
def tokensFrom : (passed : Nat) → List Char → List Token
  | _, [] => []
  | passed + 1, _ :: cs => tokensFrom passed cs
  | 0, c :: cs =>
    if isBlank c then tokensFrom 0 cs
    else
      match comment (c :: cs), word (c :: cs), stringContent? (c :: cs) with
      | n + 1, _, _ => tokensFrom n cs
      | 0, n + 1, _ => .word ((c :: cs).take (n + 1)) :: tokensFrom n cs
      | 0, 0, some content => .string content :: tokensFrom (content.length + 1) cs
      | 0, 0, none => .mark c :: tokensFrom 0 cs

def tokens (cs : List Char) : List Token := tokensFrom 0 cs

theorem tokensFrom_eq_drop (n : Nat) (cs : List Char) : tokensFrom n cs = tokens (cs.drop n) := by
  induction n generalizing cs with
  | zero => rfl
  | succ n ih =>
      cases cs with
      | nil => rfl
      | cons c cs => exact ih cs

theorem comment_of_other {c : Char} (other : c ≠ '/') (cs : List Char) : comment (c :: cs) = 0 := by
  unfold comment
  split
  · rename_i same
    cases same
    exact absurd rfl other
  · rename_i same
    cases same
    exact absurd rfl other
  · rfl

theorem tokens_word {w rest : List Char} (h : IsWord w) (ends : Ends rest) :
    tokens (w ++ rest) = .word w :: tokens rest := by
  have length := word_append h ends
  obtain ⟨c, cs, rfl, -, part⟩ := h.exists_cons
  have no_slash : c ≠ '/' := by
    rintro rfl
    revert part
    decide
  rw [List.cons_append] at length ⊢
  rw [tokens, tokensFrom, isBlank_of_isNamePart part, if_neg Bool.false_ne_true,
    comment_of_other no_slash, length]
  simp only [List.length_cons]
  rw [tokensFrom_eq_drop, List.drop_left, List.take_succ_cons, List.take_left]

/-- The marks between the parts of names and around arguments. -/
def punctuationMarks : List Char := ['.', '(', ')', ':', '-']

theorem tokens_mark {c : Char} (h : c ∈ punctuationMarks) (rest : List Char) :
    tokens (c :: rest) = .mark c :: tokens rest := by
  simp only [punctuationMarks, List.mem_cons, List.not_mem_nil, or_false] at h
  rcases h with rfl | rfl | rfl | rfl | rfl <;> rfl

theorem ends_mark {c : Char} (h : c ∈ punctuationMarks) (rest : List Char) : Ends (c :: rest) := by
  simp only [punctuationMarks, List.mem_cons, List.not_mem_nil, or_false] at h
  intro d first
  rw [← Option.some.inj first]
  rcases h with rfl | rfl | rfl | rfl | rfl <;> rfl

theorem ends_nil : Ends [] := fun c first => by cases first

theorem isNamePart_of_mem_tokens {w : List Char} (cs : List Char) (n : Nat)
    (member : .word w ∈ tokensFrom n cs) : ∀ c ∈ w, isNamePart c = true := by
  induction cs generalizing n with
  | nil => cases n <;> cases member
  | cons c cs ih =>
      cases n with
      | succ n => exact ih n member
      | zero =>
          rw [tokensFrom] at member
          split at member
          · exact ih 0 member
          · split at member
            · exact ih _ member
            · rename_i _ n _ size
              rcases List.mem_cons.mp member with same | later
              · have parts := all_isNamePart_take_word (c :: cs)
                rw [size] at parts
                rw [Token.word.inj same]
                exact parts
              · exact ih _ later
            · exact ih _ ((List.mem_cons.mp member).resolve_left (by simp))
            · exact ih _ ((List.mem_cons.mp member).resolve_left (by simp))

/-- A text that stands between tokens: it changes nothing of those behind it. -/
structure Gap where
  text : List Char
  passed : ∀ rest, tokens (text ++ rest) = tokens rest

/-- A blank or a comment goes on in no word. -/
theorem Gap.ends (g : Gap) {rest : List Char} (behind : Ends rest) : Ends (g.text ++ rest) := by
  obtain ⟨text, passed⟩ := g
  cases text with
  | nil => exact behind
  | cons c cs =>
      intro d first
      rw [← Option.some.inj first]
      have nothing := passed []
      rw [List.append_nil, tokens, tokensFrom] at nothing
      cases part : isNamePart c with
      | false => rfl
      | true =>
          have no_slash : c ≠ '/' := by
            rintro rfl
            revert part
            decide
          rw [isBlank_of_isNamePart part, if_neg Bool.false_ne_true, comment_of_other no_slash]
            at nothing
          split at nothing
          · contradiction
          · cases nothing
          · cases nothing
          · cases nothing

/-- Expressions of names, members, calls, strings and differences. -/
inductive Expression where
  | reference (name : List Char)
  | this
  | string (content : List Char)
  | member (object : Expression) (name : List Char)
  | call (function argument : Expression)
  | difference (minuend subtrahend : Expression)
deriving DecidableEq, Repr

/-- The words that are reserved in modules beside those that are so everywhere. -/
def moduleWords : List String :=
  ["enum", "implements", "interface", "let", "package", "private", "protected", "public", "static"]

/-- A word with its escapes resolved. The first `passed` characters belong to an escape. -/
def spellingFrom : (passed : Nat) → List Char → List Char
  | _, [] => []
  | passed + 1, _ :: cs => spellingFrom passed cs
  | 0, c :: cs =>
    if c == '\\' then
      Char.ofNat (Template.number ((cs.take (unicodeEscape cs)).filter Text.isHexDigit)) ::
        spellingFrom (unicodeEscape cs) cs
    else c :: spellingFrom 0 cs

/-- Whether a word is reserved, with escapes or without, so that it refers to nothing. -/
def isReserved (w : List Char) : Bool :=
  (reservedWords ++ moduleWords).contains (String.ofList (spellingFrom 0 w))

namespace Expression

def thisWord : List Char := "this".toList

/-- Whether a member can be taken of an expression, and whether it can be called. -/
def IsOperand : Expression → Prop
  | difference _ _ => False
  | _ => True

/-- The tokens of an expression. -/
def tokens : Expression → List Token
  | reference w => [.word w]
  | this => [.word thisWord]
  | string s => [.string s]
  | member o w => o.tokens ++ [.mark '.', .word w]
  | call f a => f.tokens ++ .mark '(' :: (a.tokens ++ [.mark ')'])
  | difference a b => a.tokens ++ .mark '-' :: b.tokens

/-- No reference is to a reserved word, and differences stand where they need no brackets. -/
def Proper : Expression → Prop
  | reference w => isReserved w = false
  | this | string _ => True
  | member o _ => o.Proper ∧ o.IsOperand
  | call f a => f.Proper ∧ f.IsOperand ∧ a.Proper
  | difference a b => a.Proper ∧ b.Proper ∧ b.IsOperand

/-- What stands at the end of what was read: nothing that an operator could follow, an operand, or
an operand with a dot behind it. -/
inductive Current where
  | missing
  | operand (e : Expression)
  | dotted (e : Expression)

/-- What was read of an expression: for each open bracket, the innermost first, what is called and
what it is to be subtracted from; then the minuend and the operand inside the innermost. -/
structure Reading where
  brackets : List (Option Expression × Expression)
  minuend : Option Expression
  current : Current

def subtracted (minuend : Option Expression) (e : Expression) : Expression :=
  minuend.elim e (difference · e)

/-- The operand that a word is on its own. -/
def primary? (w : List Char) : Option Expression :=
  if w = thisWord then some this else if isReserved w then none else some (reference w)

namespace Reading

def start : Reading := ⟨[], none, .missing⟩

def step : Reading → Token → Option Reading
  | ⟨open_, m, .missing⟩, .word w => (primary? w).map fun e => ⟨open_, m, .operand e⟩
  | ⟨open_, m, .missing⟩, .string s => some ⟨open_, m, .operand (string s)⟩
  | ⟨open_, m, .dotted o⟩, .word w => some ⟨open_, m, .operand (member o w)⟩
  | ⟨open_, m, .operand e⟩, .mark '.' => some ⟨open_, m, .dotted e⟩
  | ⟨open_, m, .operand e⟩, .mark '(' => some ⟨(m, e) :: open_, none, .missing⟩
  | ⟨(m', f) :: open_, m, .operand e⟩, .mark ')' =>
    some ⟨open_, m', .operand (call f (subtracted m e))⟩
  | ⟨open_, m, .operand e⟩, .mark '-' => some ⟨open_, some (subtracted m e), .missing⟩
  | _, _ => none

/-- The expression that was read, if nothing is left open. -/
def result? : Reading → Option Expression
  | ⟨[], m, .operand e⟩ => some (subtracted m e)
  | _ => none

end Reading

/-- The expression that a text is. -/
def read? (text : List Char) : Option Expression := do
  let r ← (Script.tokens text).foldlM Reading.step .start
  r.result?

/-- The tokens of what was read. -/
def minuendTokens (m : Option Expression) : List Token :=
  m.elim [] fun a => a.tokens ++ [.mark '-']

theorem tokens_subtracted (m : Option Expression) (e : Expression) :
    (subtracted m e).tokens = minuendTokens m ++ e.tokens := by
  cases m with
  | none => rfl
  | some a => simp [subtracted, minuendTokens, tokens]

def Current.tokens : Current → List Token
  | missing => []
  | operand e => e.tokens
  | dotted e => e.tokens ++ [.mark '.']

def bracketTokens : List (Option Expression × Expression) → List Token
  | [] => []
  | (m, f) :: open_ => bracketTokens open_ ++ minuendTokens m ++ f.tokens ++ [.mark '(']

def Reading.tokens (r : Reading) : List Token :=
  bracketTokens r.brackets ++ minuendTokens r.minuend ++ r.current.tokens

/-- All parts of what was read are proper, and operands where they have to be. -/
structure Reading.Proper (r : Reading) : Prop where
  brackets : ∀ b ∈ r.brackets, (∀ m ∈ b.1, m.Proper) ∧ b.2.Proper ∧ b.2.IsOperand
  minuend : ∀ m ∈ r.minuend, m.Proper
  operand : ∀ e, r.current = .operand e → e.Proper ∧ e.IsOperand
  dotted : ∀ e, r.current = .dotted e → e.Proper ∧ e.IsOperand

theorem proper_start : Reading.start.Proper where
  brackets b member := by cases member
  minuend m member := by cases member
  operand e other := by cases other
  dotted e other := by cases other

theorem proper_subtracted {m : Option Expression} {e : Expression} (minuend : ∀ a ∈ m, a.Proper)
    (proper : e.Proper) (operand : e.IsOperand) : (subtracted m e).Proper := by
  cases m with
  | none => exact proper
  | some a => exact ⟨minuend a rfl, proper, operand⟩

theorem primary?_eq_some {w : List Char} {e : Expression} (h : primary? w = some e) :
    e.tokens = [.word w] ∧ e.Proper ∧ e.IsOperand := by
  unfold primary? at h
  split at h
  · rename_i same
    cases h
    exact ⟨by rw [same]; rfl, trivial, trivial⟩
  · split at h
    · cases h
    · rename_i free
      cases h
      exact ⟨rfl, Bool.eq_false_iff.mpr free, trivial⟩

/-- A step takes its token in and keeps everything proper. -/
theorem step_sound {r r' : Reading} {t : Token} (proper : r.Proper) (h : r.step t = some r') :
    r'.tokens = r.tokens ++ [t] ∧ r'.Proper := by
  unfold Reading.step at h
  split at h
  · rename_i open_ m w
    obtain ⟨e, word, rfl⟩ := Option.map_eq_some_iff.mp h
    obtain ⟨tokens, own, operand⟩ := primary?_eq_some word
    refine ⟨?_, proper.brackets, proper.minuend, ?_, ?_⟩
    · simp [Reading.tokens, Current.tokens, tokens]
    · rintro _ ⟨⟩
      exact ⟨own, operand⟩
    · rintro _ ⟨⟩
  · cases h
    refine ⟨?_, proper.brackets, proper.minuend, ?_, ?_⟩
    · simp [Reading.tokens, Current.tokens, tokens]
    · rintro _ ⟨⟩
      exact ⟨trivial, trivial⟩
    · rintro _ ⟨⟩
  · cases h
    refine ⟨?_, proper.brackets, proper.minuend, ?_, ?_⟩
    · simp [Reading.tokens, Current.tokens, tokens]
    · rintro _ ⟨⟩
      exact ⟨proper.dotted _ rfl, trivial⟩
    · rintro _ ⟨⟩
  · cases h
    refine ⟨?_, proper.brackets, proper.minuend, ?_, ?_⟩
    · simp [Reading.tokens, Current.tokens]
    · rintro _ ⟨⟩
    · rintro _ ⟨⟩
      exact proper.operand _ rfl
  · cases h
    refine ⟨?_, ?_, ?_, ?_, ?_⟩
    · simp [Reading.tokens, Current.tokens, bracketTokens, minuendTokens]
    · exact List.forall_mem_cons.mpr ⟨⟨proper.minuend, proper.operand _ rfl⟩, proper.brackets⟩
    · rintro _ ⟨⟩
    · rintro _ ⟨⟩
    · rintro _ ⟨⟩
  · rename_i m' f open_ m e
    cases h
    obtain ⟨⟨outer, function, operand⟩, others⟩ := List.forall_mem_cons.mp proper.brackets
    obtain ⟨own, simple⟩ := proper.operand _ rfl
    refine ⟨?_, others, outer, ?_, ?_⟩
    · simp [Reading.tokens, Current.tokens, bracketTokens, tokens, tokens_subtracted]
    · rintro _ ⟨⟩
      exact ⟨⟨function, operand, proper_subtracted proper.minuend own simple⟩, trivial⟩
    · rintro _ ⟨⟩
  · cases h
    obtain ⟨own, simple⟩ := proper.operand _ rfl
    refine ⟨?_, proper.brackets, ?_, ?_, ?_⟩
    · simp [Reading.tokens, Current.tokens, minuendTokens, tokens_subtracted]
    · rintro _ ⟨⟩
      exact proper_subtracted proper.minuend own simple
    · rintro _ ⟨⟩
    · rintro _ ⟨⟩
  · cases h

theorem foldlM_sound {ts : List Token} {r r' : Reading} (proper : r.Proper)
    (h : ts.foldlM Reading.step r = some r') : r'.tokens = r.tokens ++ ts ∧ r'.Proper := by
  induction ts generalizing r with
  | nil =>
      cases h
      exact ⟨(List.append_nil _).symm, proper⟩
  | cons t ts ih =>
      obtain ⟨next, one, rest⟩ := Option.bind_eq_some_iff.mp h
      obtain ⟨taken, kept⟩ := step_sound proper one
      obtain ⟨all, last⟩ := ih kept rest
      exact ⟨by rw [all, taken, List.append_assoc, List.singleton_append], last⟩

/-- A proper operand is read as itself wherever one is missing, and any proper expression where a
bracket or the text begins. The induction is on the expression, in front of which the reading may
have come to anything. -/
theorem foldlM_tokens (e : Expression) (proper : e.Proper) :
    (∀ open_ m, e.IsOperand →
      e.tokens.foldlM Reading.step ⟨open_, m, .missing⟩ = some ⟨open_, m, .operand e⟩) ∧
    (∀ open_, ∃ m b, subtracted m b = e ∧
      e.tokens.foldlM Reading.step ⟨open_, none, .missing⟩ = some ⟨open_, m, .operand b⟩) := by
  have alone {e : Expression} (operand : ∀ open_ m,
      e.tokens.foldlM Reading.step ⟨open_, m, .missing⟩ = some ⟨open_, m, .operand e⟩) :
      (∀ open_ m, e.IsOperand →
        e.tokens.foldlM Reading.step ⟨open_, m, .missing⟩ = some ⟨open_, m, .operand e⟩) ∧
      (∀ open_, ∃ m b, subtracted m b = e ∧
        e.tokens.foldlM Reading.step ⟨open_, none, .missing⟩ = some ⟨open_, m, .operand b⟩) :=
    ⟨fun open_ m _ => operand open_ m, fun open_ => ⟨none, e, rfl, operand open_ none⟩⟩
  induction e with
  | reference w =>
      refine alone fun open_ m => ?_
      have free : isReserved w = false := proper
      have other : w ≠ thisWord := by
        rintro rfl
        revert free
        decide
      simp [tokens, Reading.step, primary?, other, free]
  | this => exact alone fun open_ m => rfl
  | string s => exact alone fun open_ m => rfl
  | member o w ih =>
      refine alone fun open_ m => ?_
      rw [tokens, List.foldlM_append, (ih proper.1).1 open_ m proper.2]
      rfl
  | call f a ihf iha =>
      refine alone fun open_ m => ?_
      obtain ⟨function, operand, argument⟩ := proper
      obtain ⟨m', b, whole, inside⟩ := (iha argument).2 ((m, f) :: open_)
      rw [tokens, List.foldlM_append, (ihf function).1 open_ m operand]
      simp only [Option.bind_eq_bind, Option.bind_some, List.foldlM_cons, Reading.step,
        List.foldlM_append, inside, whole]
      rfl
  | difference a b iha ihb =>
      obtain ⟨minuend, subtrahend, operand⟩ := proper
      refine ⟨fun _ _ no_operand => no_operand.elim, fun open_ => ⟨some a, b, rfl, ?_⟩⟩
      obtain ⟨m, c, whole, inside⟩ := (iha minuend).2 open_
      rw [tokens, List.foldlM_append, inside]
      simp only [Option.bind_eq_bind, Option.bind_some, List.foldlM_cons, Reading.step, whole]
      exact (ihb subtrahend).1 open_ (some a) operand

/-- A text is read as the expression whose tokens are its own. -/
theorem read?_eq_some_iff {text : List Char} {e : Expression} :
    read? text = some e ↔ e.Proper ∧ Script.tokens text = e.tokens := by
  constructor
  · intro h
    obtain ⟨r, run, result⟩ := Option.bind_eq_some_iff.mp h
    obtain ⟨taken, proper⟩ := foldlM_sound proper_start run
    unfold Reading.result? at result
    split at result
    · cases result
      obtain ⟨own, operand⟩ := proper.operand _ rfl
      refine ⟨proper_subtracted proper.minuend own operand, ?_⟩
      rw [tokens_subtracted]
      exact taken.symm
    · cases result
  · rintro ⟨proper, text⟩
    obtain ⟨m, b, whole, run⟩ := (foldlM_tokens e proper).2 []
    rw [read?, text]
    change (e.tokens.foldlM Reading.step Reading.start).bind _ = _
    rw [Reading.start, run, Option.bind_some, Reading.result?, whole]

end Expression

end Restyle.Script
