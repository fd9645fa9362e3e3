import Restyle.Proofs.Sheet.Selectors
import Restyle.Proofs.Text.Cut
/-!
Names of classes as identifiers. The standard serialisation writes a name so that a selector may
hold it: the selector is read as the name again, and its mask is as long as the selector is.
-/

namespace Restyle.Sheet

open Text (byteLength byteLength_append byteLength_cons byteLength_nil)

def isControl (c : Char) : Bool := c.toNat < 32 || c.toNat == 127

def numberOf (c : Char) : List Char := '\\' :: (Text.hexDigits c.toNat ++ [' '])

def serializeInside (c : Char) : List Char :=
  if isControl c then numberOf c else ClassName.escape c

/-- A character with which an identifier begins, behind its first hyphen or without one. -/
def serializeLead (c : Char) : List Char :=
  if c.isDigit then numberOf c else serializeInside c

/-- A name as an identifier. -/
def serialize : List Char → List Char
  | [] => []
  | ['-'] => ['\\', '-']
  | '-' :: c :: cs => '-' :: (serializeLead c ++ cs.flatMap serializeInside)
  | c :: cs => serializeLead c ++ cs.flatMap serializeInside

/-- A text that can be seen: one without blanks and control characters. -/
def Visible (name : List Char) : Prop :=
  ∀ c ∈ name, Text.isBlank c = false ∧ isControl c = false

instance (name : List Char) : Decidable (Visible name) :=
  decidable_of_iff (name.all (fun c => !Text.isBlank c && !isControl c) = true)
    (by simp [Visible])

theorem Visible.flatMap_inside {name : List Char} (h : Visible name) :
    name.flatMap serializeInside = name.flatMap ClassName.escape := by
  have same : name.map serializeInside = name.map ClassName.escape := by
    apply List.map_congr_left
    intro c hc
    rw [serializeInside, (h c hc).2]
    rfl
  rw [List.flatMap_def, same, ← List.flatMap_def]

/-- Whether a name begins with something else than a digit, behind its first hyphen or without
one. -/
def beginsWord : List Char → Bool
  | [] => false
  | ['-'] => false
  | '-' :: c :: _ => !c.isDigit
  | c :: _ => !c.isDigit

/-- What may stand before the digit of a name that begins with one. -/
def IsSign (sign : List Char) : Prop := sign = [] ∨ sign = ['-']

theorem name_cases {name : List Char} (some_char : name ≠ []) :
    name = ['-'] ∨ beginsWord name = true ∨
      ∃ sign d rest, IsSign sign ∧ d.isDigit = true ∧ name = sign ++ d :: rest := by
  cases word : beginsWord name with
  | true => exact .inr (.inl rfl)
  | false =>
      revert word
      fun_cases beginsWord name with
      | case1 => exact absurd rfl some_char
      | case2 => exact fun _ => .inl rfl
      | case3 c cs =>
          intro digit
          exact .inr (.inr ⟨['-'], c, cs, .inr rfl, by simpa using digit, rfl⟩)
      | case4 c cs =>
          intro digit
          exact .inr (.inr ⟨[], c, cs, .inl rfl, by simpa using digit, rfl⟩)

theorem serialize_word {name : List Char} (visible : Visible name)
    (word : beginsWord name = true) : serialize name = name.flatMap ClassName.escape := by
  rw [← visible.flatMap_inside]
  revert word
  fun_cases beginsWord name with
  | case1 => exact fun word => by cases word
  | case2 => exact fun word => by cases word
  | case3 c cs =>
      intro word
      have other : c.isDigit = false := by simpa using word
      have hyphen : serializeInside '-' = ['-'] := by decide
      simp [serialize, serializeLead, other, hyphen]
  | case4 c cs no_hyphen no_sign =>
      intro word
      have other : c.isDigit = false := by simpa using word
      rw [serialize.eq_4 c cs no_hyphen no_sign, serializeLead, other]
      rfl

theorem char_of_range {p : Char → Prop} {low n : Nat}
    (table : ∀ i, i < n → p (Char.ofNat (low + i))) {c : Char} (above : low ≤ c.toNat)
    (below : c.toNat < low + n) : p c := by
  have entry := table (c.toNat - low) (by omega)
  rwa [Nat.add_sub_cancel' above, Char.ofNat_toNat] at entry

theorem of_isDigit {p : Char → Prop} (table : ∀ i, i < 10 → p (Char.ofNat (48 + i))) {d : Char}
    (digit : d.isDigit = true) : p d := by
  have range : 48 ≤ d.toNat ∧ d.toNat ≤ 57 := by
    simpa [Char.isDigit, UInt32.le_iff_toNat_le] using digit
  exact char_of_range table range.1 (Nat.lt_succ_of_le range.2)

theorem hexDigits_digit {d : Char} (digit : d.isDigit = true) :
    Text.hexDigits d.toNat = ['3', d] :=
  of_isDigit (p := fun d => Text.hexDigits d.toNat = ['3', d]) (by decide) digit

theorem charOfHex?_digit {d : Char} (digit : d.isDigit = true) : charOfHex? ['3', d] = some d :=
  of_isDigit (p := fun d => charOfHex? ['3', d] = some d) (by decide) digit

theorem serialize_digit {sign rest : List Char} (h : IsSign sign) {d : Char}
    (digit : d.isDigit = true) (visible : Visible rest) :
    serialize (sign ++ d :: rest) =
      sign ++ '\\' :: '3' :: d :: ' ' :: rest.flatMap ClassName.escape := by
  have lead : serializeLead d = ['\\', '3', d, ' '] := by
    rw [serializeLead, if_pos digit, numberOf, hexDigits_digit digit]
    rfl
  have no_hyphen : d ≠ '-' := by
    rintro rfl
    cases digit
  rw [← visible.flatMap_inside]
  rcases h with rfl | rfl
  · rw [List.nil_append, serialize.eq_4 d rest (fun same => absurd same no_hyphen)
      (fun _ _ same => absurd same no_hyphen), lead]
    rfl
  · rw [List.singleton_append, serialize, lead]
    rfl

example : serialize "-2xl:p-4".toList = "-\\32 xl\\:p-4".toList := by decide

theorem isIdentChar_of_isDigit {d : Char} (digit : d.isDigit = true) : isIdentChar d = true := by
  simp [isIdentChar, Char.isAlphanum, digit]

theorem isBlank_of_isDigit {d : Char} (digit : d.isDigit = true) : Text.isBlank d = false :=
  of_isDigit (p := fun d => Text.isBlank d = false) (by decide) digit

/-- A name that begins with a digit is read behind the digit's number and the space that may end
it. -/
theorem readClass_digit {sign after rest : List Char} (h : IsSign sign) {d : Char}
    (digit : d.isDigit = true) (ends : after.head?.any Text.isHexDigit = false)
    (goes_on : dropSpace after = rest.flatMap ClassName.escape) {fuel : Nat}
    (enough : rest.length + 2 < fuel) :
    readClass fuel (sign ++ '\\' :: '3' :: d :: after) = some (sign ++ d :: rest, []) := by
  have hex : ['3', d].all Text.isHexDigit = true := by simp [Text.isHexDigit, digit]
  have behind_sign : ∀ n, rest.length + 1 < n →
      readClass n ('\\' :: '3' :: d :: after) = some (d :: rest, []) := by
    intro n enough
    obtain ⟨m, rfl⟩ : ∃ m, n = m + 1 := Nat.exists_eq_succ_of_ne_zero (by omega)
    have later := readClass_escape (.inl rfl) rest (Nat.lt_of_succ_lt_succ enough)
    rw [List.append_nil] at later
    have numbered := readClass_numbered (List.cons_ne_nil '3' [d]) (by simp) hex ends m
    rw [charOfHex?_digit digit, Option.bind_some, goes_on, later] at numbered
    exact numbered
  rcases h with rfl | rfl
  · exact behind_sign fuel (Nat.lt_of_succ_lt enough)
  · obtain ⟨m, rfl⟩ : ∃ m, fuel = m + 1 := Nat.exists_eq_succ_of_ne_zero (by omega)
    rw [List.singleton_append, readClass_ident (by decide),
      behind_sign m (Nat.lt_of_succ_lt_succ enough)]
    rfl

theorem parseClassSelector?_of_read {name text : List Char} (some_char : name ≠ [])
    (trimmed : Text.trim ('.' :: text) = '.' :: text)
    (read : readClass (text.length + 1) text = some (name, [])) :
    parseClassSelector? ('.' :: text) = some ⟨String.ofList name, none⟩ := by
  have not_empty : name.isEmpty = false := List.isEmpty_eq_false_iff.mpr some_char
  rw [parseClassSelector?, trimmed]
  simp only [read, not_empty, List.isEmpty_nil, if_true, Bool.false_eq_true, if_false]

/-- A text stands for a class by itself: as a list of selectors it is one, which is read as the
class. -/
structure StandsFor (selector name : List Char) : Prop where
  alone : splitSelectorList selector = [selector]
  read : parseClassSelector? selector = some ⟨String.ofList name, none⟩

theorem standsFor {name text : List Char} (some_char : name ≠ []) (whole : Inseparable 0 text)
    (trimmed : Text.trim ('.' :: text) = '.' :: text)
    (read : readClass (text.length + 1) text = some (name, [])) :
    StandsFor ('.' :: text) name := by
  have dot : Inseparable 0 ['.'] := .plain (by decide) (by decide) (.inl (by decide))
  refine ⟨?_, parseClassSelector?_of_read some_char trimmed read⟩
  have list : splitSelectorList ([',', ' '].intercalate ['.' :: text]) =
      [Text.trim ('.' :: text)] :=
    splitSelectorList_intercalate (by simpa using dot.append whole) (by simp [trimmed])
  rwa [List.intercalate_singleton, trimmed] at list

theorem standsFor_word {name : List Char} (some_char : name ≠ []) (visible : Visible name) :
    StandsFor ('.' :: name.flatMap ClassName.escape) name := by
  apply standsFor some_char (inseparable_escape name)
  · apply Text.trim_of_marks
    intro c hc
    rcases List.mem_cons.mp hc with rfl | hc
    · decide
    · exact isBlank_of_mem_escape (fun d hd => (visible d hd).1) hc
  · have enough := Nat.lt_succ_of_le (ClassName.length_le_escape name)
    simpa using readClass_escape (.inl rfl) name enough

theorem IsSign.isIdentChar {sign : List Char} (h : IsSign sign) :
    ∀ c ∈ sign, isIdentChar c = true := by
  rcases h with rfl | rfl <;> exact List.all_eq_true.mp rfl

/-- Behind a digit at the end of a selector no space is needed. -/
theorem standsFor_digit {sign : List Char} (h : IsSign sign) {d : Char}
    (digit : d.isDigit = true) :
    StandsFor ('.' :: (sign ++ ['\\', '3', d])) (sign ++ [d]) := by
  have ident := isIdentChar_of_isDigit digit
  apply standsFor (by simp)
  · have last : Inseparable 0 [d] := .ident ident
    exact (Inseparable.idents h.isIdentChar).append ((Inseparable.escaped 0 '3').append last)
  · apply Text.trim_eq_self rfl
    have mark : Text.isBlank d = false := isBlank_of_isDigit digit
    simp [List.getLast?_cons, List.getLast?_append, mark]
  · exact readClass_digit h digit rfl rfl (by simp)

theorem standsFor_digit_append {sign rest : List Char} (h : IsSign sign) {d : Char}
    (digit : d.isDigit = true) (some_char : rest ≠ []) (visible : Visible rest) :
    StandsFor ('.' :: (sign ++ '\\' :: '3' :: d :: ' ' :: rest.flatMap ClassName.escape))
      (sign ++ d :: rest) := by
  have hex : ['3', d].all Text.isHexDigit = true := by simp [Text.isHexDigit, digit]
  have longer := ClassName.length_le_escape rest
  apply standsFor (by simp)
  · exact (Inseparable.idents h.isIdentChar).append
      ((Inseparable.numbered 0 hex).append (inseparable_escape rest))
  · apply Text.trim_eq_self rfl
    have some_escape : rest.flatMap ClassName.escape ≠ [] := by
      intro empty
      rw [empty, List.length_nil, Nat.le_zero, List.length_eq_zero_iff] at longer
      exact some_char longer
    have mark := isBlank_of_mem_escape (fun c hc => (visible c hc).1)
      (List.getLast_mem some_escape)
    simp [List.getLast?_append, List.getLast?_cons, List.getLast?_eq_some_getLast some_escape, mark]
  · refine readClass_digit h digit rfl rfl ?_
    simp only [List.length_append, List.length_cons]
    omega

/-- A character of a name as the mask leaves it. -/
def shade (c : Char) : List Char := if isIdentChar c then [c] else ['_', '_']

theorem toNat_lt_of_not_isIdentChar {c : Char} (h : isIdentChar c = false) : c.toNat < 128 := by
  simp only [isIdentChar, Bool.or_eq_false_iff, decide_eq_false_iff_not] at h
  omega

theorem maskEscaped_of_not_isIdentChar {c : Char} (h : isIdentChar c = false) :
    maskEscaped c = '_' := by
  simp [maskEscaped, h, toNat_lt_of_not_isIdentChar h]

theorem mask_ident {c : Char} (ident : isIdentChar c = true) (cs : List Char) :
    mask (c :: cs) = c :: mask cs := by
  have no_escape : c ≠ '\\' := isIdentChar_ne ident (by decide)
  have no_colon : c ≠ ':' := isIdentChar_ne ident (by decide)
  exact mask.eq_5 c cs (fun same _ => no_escape same) (fun _ _ same => absurd same no_escape)
    (fun _ _ same => absurd same no_colon)

theorem mask_idents {text : List Char} (h : ∀ c ∈ text, isIdentChar c = true) (rest : List Char) :
    mask (text ++ rest) = text ++ mask rest := by
  induction text with
  | nil => rfl
  | cons c cs ih =>
      obtain ⟨first, others⟩ := List.forall_mem_cons.mp h
      rw [List.cons_append, mask_ident first, ih others, List.cons_append]

theorem mask_escape (name rest : List Char) :
    mask (name.flatMap ClassName.escape ++ rest) = name.flatMap shade ++ mask rest := by
  induction name with
  | nil => rfl
  | cons c cs ih =>
      rw [List.flatMap_cons, List.flatMap_cons, List.append_assoc, List.append_assoc,
        ClassName.escape, shade]
      cases ident : isIdentChar c with
      | true =>
          rw [if_pos rfl, if_pos rfl, List.singleton_append, mask_ident ident, ih,
            List.singleton_append]
      | false =>
          have masked : mask ('\\' :: c :: (cs.flatMap ClassName.escape ++ rest)) =
              '_' :: maskEscaped c :: mask (cs.flatMap ClassName.escape ++ rest) := rfl
          rw [if_neg Bool.false_ne_true, if_neg Bool.false_ne_true]
          exact masked.trans (by rw [maskEscaped_of_not_isIdentChar ident, ih]; rfl)

theorem byteLength_shade (name : List Char) :
    byteLength (name.flatMap shade) = byteLength (name.flatMap ClassName.escape) := by
  induction name with
  | nil => rfl
  | cons c cs ih =>
      rw [List.flatMap_cons, List.flatMap_cons, byteLength_append, byteLength_append, ih, shade,
        ClassName.escape]
      cases ident : isIdentChar c with
      | true => rfl
      | false =>
          have ascii := toNat_lt_of_not_isIdentChar ident
          have one : c.utf8Size = 1 := by
            rw [Char.utf8Size_eq_one_iff, UInt32.le_iff_toNat_le]
            exact Nat.le_of_lt_succ ascii
          simp [one]
          decide

end Restyle.Sheet
