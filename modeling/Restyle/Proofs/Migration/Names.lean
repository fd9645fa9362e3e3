import Restyle.Migration.Config
import Restyle.Proofs.Component.Naming
import Restyle.Proofs.Text.Identifiers
/-!
Names of components as identifiers. Letters, digits and other numbers of a stem are kept, and an
accepted ending is made of such characters too. A name is an identifier if they all may stand in one and
the first of the stem may begin one. An ASCII digit may come first, since the name then begins with
an underscore; no other digit may.
-/

namespace Restyle

namespace Component

open Text (isIdentifier beginsIdentifier continuesIdentifier iotaBelow upperChar)

/-- The characters of a stem that are kept in names. -/
def kept (stem : List Char) : List Char := stem.filter isNameChar

/-- Whether a name may begin with a character of the stem, or with an underscore and it. -/
def mayLead (c : Char) : Bool := beginsIdentifier c || c == iotaBelow || c.isDigit

theorem flatten_nameParts (part stem : List Char) :
    (nameParts part stem).flatten = part.reverse ++ kept stem := by
  induction stem generalizing part with
  | nil =>
      rw [nameParts, List.flatten_singleton]
      exact (List.append_nil _).symm
  | cons c cs ih =>
      rw [nameParts, kept, List.filter_cons]
      split
      · rw [ih, List.reverse_cons, List.append_assoc]
        rfl
      · rw [List.flatten_cons, ih]
        rfl

theorem all_continues_capitalized (word : List Char) :
    (capitalized word).all continuesIdentifier = word.all continuesIdentifier := by
  cases word with
  | nil => rfl
  | cons c cs => rw [capitalized, List.all_append, Text.all_continues_upperChar, List.all_cons]

theorem all_continues_joined (words : List (List Char)) :
    (words.flatMap capitalized).all continuesIdentifier = words.flatten.all continuesIdentifier := by
  simp only [List.all_flatMap, List.all_flatten, all_continues_capitalized]

theorem joined_cases (words : List (List Char)) :
    (words.flatten = [] ∧ words.flatMap capitalized = []) ∨
    ∃ k ks c cs ds, words.flatten = k :: ks ∧ words.flatMap capitalized = c :: cs ∧
      upperChar k = c :: ds := by
  induction words with
  | nil => exact .inl ⟨rfl, rfl⟩
  | cons word words ih =>
      cases word with
      | nil => exact ih
      | cons k ks =>
          obtain ⟨c, ds, upper, -⟩ := Text.upperChar_eq k
          refine .inr ⟨k, ks ++ words.flatten, c, ds ++ ks ++ words.flatMap capitalized, ds, rfl,
            ?_, upper⟩
          rw [List.flatMap_cons, capitalized, upper]
          rfl

theorem isIdentifier_pascalCase_append (stem rest : List Char) :
    isIdentifier (pascalCase stem ++ rest) =
      ((kept stem).all continuesIdentifier && rest.all continuesIdentifier &&
        (kept stem).head?.all mayLead) := by
  have parts : (nameParts [] stem).flatten = kept stem := flatten_nameParts [] stem
  have all := all_continues_joined (nameParts [] stem)
  rw [parts] at all
  unfold pascalCase
  rcases joined_cases (nameParts [] stem) with
    ⟨nothing, joined⟩ | ⟨k, ks, c, cs, ds, first, joined, upper⟩
  · rw [parts] at nothing
    simp [joined, nothing, isIdentifier, Text.begins_underscore]
  · have begins := Text.begins_upperChar k
    have digit := Text.isDigit_upperChar k
    rw [upper, List.head?_cons, Option.any_some] at begins digit
    rw [parts] at first
    rw [joined] at all ⊢
    rw [← all, first, List.head?_cons, Option.all_some, mayLead, ← begins, ← digit]
    dsimp only
    by_cases number : c.isDigit = true
    · rw [if_pos number, List.cons_append, isIdentifier, Text.begins_underscore, number,
        List.all_append, Bool.true_and, Bool.or_true, Bool.and_true]
    · rw [if_neg number, List.cons_append, isIdentifier, List.all_append, List.all_cons,
        Bool.eq_false_iff.mpr number, Bool.or_false]
      cases own : beginsIdentifier c with
      | true => rw [Text.continues_of_begins own, Bool.true_and, Bool.true_and, Bool.and_true]
      | false => rw [Bool.false_and, Bool.and_false]

theorem toList_componentName (suffix : String) (file : Path) (n : Nat) :
    ∃ digits, (∀ c ∈ digits, c.isDigit = true) ∧ (componentName suffix file n).toList =
      pascalCase (file.stem?.getD "").toList ++ (suffix.toList ++ digits) := by
  have base : (String.ofList (pascalCase (file.stem?.getD "").toList) ++ suffix).toList
      = pascalCase (file.stem?.getD "").toList ++ suffix.toList := by
    rw [String.toList_append, String.toList_ofList]
  unfold componentName
  dsimp only
  split
  · exact ⟨[], fun c member => absurd member List.not_mem_nil, by rw [base, List.append_nil]⟩
  · have number : (toString n).toList = Nat.toDigits 10 n := Nat.toList_repr
    refine ⟨Nat.toDigits 10 n, ?_, ?_⟩
    · exact fun c => Nat.isDigit_of_mem_toDigits (by decide) (by decide)
    · rw [String.toList_append, base, number, List.append_assoc]

theorem isIdentifier_componentName (suffix : String) (file : Path) (n : Nat) :
    isIdentifier (componentName suffix file n).toList =
      ((kept (file.stem?.getD "").toList ++ suffix.toList).all continuesIdentifier &&
        (kept (file.stem?.getD "").toList).head?.all mayLead) := by
  obtain ⟨digits, all, name⟩ := toList_componentName suffix file n
  have number : digits.all continuesIdentifier = true :=
    List.all_eq_true.mpr fun c member => (Text.begins_digit (all c member)).2
  rw [name, isIdentifier_pascalCase_append, List.all_append, List.all_append, number,
    Bool.and_true]

end Component

namespace Migration

open Component (componentName kept mayLead isNameChar)
open Text (isIdentifier beginsIdentifier continuesIdentifier)

theorem Config.all_isNameChar_of_check {c d : Config} (h : c.check = .ok d) :
    ∀ x ∈ d.componentSuffix.toList, isNameChar x = true := by
  unfold Config.check at h
  split at h
  · cases h
  · split at h
    · rename_i all
      cases h
      exact List.all_eq_true.mp all
    · cases h

theorem identifier_of_ascii {c : Char} (ascii : c.toNat < 128) (named : isNameChar c = true) :
    continuesIdentifier c = true ∧ mayLead c = true := by
  have leads {c : Char} (begins : beginsIdentifier c = true) :
      continuesIdentifier c = true ∧ mayLead c = true :=
    ⟨Text.continues_of_begins begins, by rw [mayLead, begins, Bool.true_or, Bool.true_or]⟩
  simp only [isNameChar, Text.isAlphanumeric, ascii, if_true, Char.isAlphanum, Bool.or_eq_true,
    beq_iff_eq] at named
  rcases named with ((letter | digit) | rfl) | rfl
  · exact leads (Text.begins_of_isAlpha letter)
  · exact ⟨(Text.begins_digit digit).2, by rw [mayLead, digit, Bool.or_true]⟩
  · exact leads Text.begins_underscore
  · exact leads Text.begins_dollar

/-- The name of a component begins with no small letter, whatever the file is called. What is kept of
the stem are letters, digits, other numbers, underscores and dollar signs, and so is an ending that
the configuration accepts. The name is an identifier just if these may all stand in one and the
first of the stem may lead. That is so for ASCII, but there are other numbers that are in no
identifier, and digits and marks that begin none. -/
theorem identifier_componentName_iff {c d : Config} (accepted : c.check = .ok d) (file : Path)
    (n : Nat) :
    let name := (componentName d.componentSuffix file n).toList
    let stem := kept (file.stem?.getD "").toList
    (∃ first rest, name = first :: rest ∧ first.isLower = false) ∧
    (∀ x ∈ stem ++ d.componentSuffix.toList, isNameChar x = true) ∧
    (isIdentifier name = true ↔
      (∀ x ∈ stem ++ d.componentSuffix.toList, continuesIdentifier x = true) ∧
        ∀ x ∈ stem.head?, mayLead x = true) ∧
    ((∀ x ∈ stem ++ d.componentSuffix.toList, x.toNat < 128) → isIdentifier name = true) := by
  intro name stem
  have named : ∀ x ∈ stem ++ d.componentSuffix.toList, isNameChar x = true := by
    intro x member
    rcases List.mem_append.mp member with own | ending
    · exact (List.mem_filter.mp own).2
    · exact Config.all_isNameChar_of_check accepted x ending
  have whole : isIdentifier name = true ↔
      (∀ x ∈ stem ++ d.componentSuffix.toList, continuesIdentifier x = true) ∧
        ∀ x ∈ stem.head?, mayLead x = true := by
    rw [Component.isIdentifier_componentName, Bool.and_eq_true, List.all_eq_true,
      Option.all_eq_true]
    rfl
  refine ⟨Component.componentName_capital _ file n, named, whole, fun ascii => ?_⟩
  have anywhere : ∀ x ∈ stem ++ d.componentSuffix.toList,
      continuesIdentifier x = true ∧ mayLead x = true := fun x member =>
    identifier_of_ascii (ascii x member) (named x member)
  rw [whole]
  refine ⟨fun x member => (anywhere x member).1, fun x first => ?_⟩
  exact (anywhere x (List.mem_append_left _ (List.mem_of_mem_head? first))).2

def styledConfig : Config := { componentSuffix := "Styled" }

theorem identifier_componentName_iff_hyphenated :
    styledConfig.check = .ok styledConfig ∧
    (∀ x ∈ kept "my-layout".toList ++ "Styled".toList, x.toNat < 128) ∧
    componentName "Styled" ⟨"a/my-layout.jsx"⟩ 2 = "MyLayoutStyled2" ∧
    isIdentifier "MyLayoutStyled2".toList = true := by
  have accepted : styledConfig.check = .ok styledConfig := rfl
  have stem : ((⟨"a/my-layout.jsx"⟩ : Path).stem?.getD "") = "my-layout" := by decide +kernel
  have name : componentName "Styled" ⟨"a/my-layout.jsx"⟩ 2 = "MyLayoutStyled2" := by
    decide +kernel
  have all : (kept "my-layout".toList ++ "Styled".toList).all (·.toNat < 128) = true := by
    decide +kernel
  have ascii : ∀ x ∈ kept "my-layout".toList ++ "Styled".toList, x.toNat < 128 := fun x member =>
    of_decide_eq_true (List.all_eq_true.mp all x member)
  obtain ⟨-, -, -, identifier⟩ := identifier_componentName_iff accepted ⟨"a/my-layout.jsx"⟩ 2
  rw [stem] at identifier
  exact ⟨accepted, ascii, name, name ▸ identifier ascii⟩

/-- No underscore is put in front of a digit of another alphabet, and a superscript is kept. -/
theorem numeral_no_identifier :
    componentName "Style" ⟨"٣.jsx"⟩ 0 = "٣Style" ∧ componentName "Style" ⟨"x².jsx"⟩ 0 = "X²Style" ∧
    ¬ ∀ (c d : Config) (file : Path) (n : Nat), c.check = .ok d →
      isIdentifier (componentName d.componentSuffix file n).toList = true := by
  refine ⟨by decide +kernel, by decide +kernel, fun always => ?_⟩
  have identifier := always {} {} ⟨"٣.jsx"⟩ 0 rfl
  revert identifier
  decide +kernel

end Migration

end Restyle
