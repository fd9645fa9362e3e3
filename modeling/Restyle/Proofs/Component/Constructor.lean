import Restyle.Proofs.Component.Synthesis
import Restyle.Proofs.Script.Expression
/-!
Constructors as expressions. The constructor of a component is the member of `styled` that its tag
names, or a call of `styled` on its tag, just if no hyphen and no colon stands in the tag and no
component is named by a reserved word.
-/

namespace Restyle

open Script (IsWord Gap Ends Token Expression isNamePart isReserved tokens tokens_word tokens_mark
  ends_mark ends_nil)
open Script.Expression (thisWord)

namespace Markup

/-- A word of a name, with what may follow it behind a hyphen. -/
structure NameWord where
  front : List Char
  back : List Char
  word : IsWord front
  hyphen : back = [] ∨ back.head? = some '-'
  parts : ∀ c ∈ back, isNamePart c = true ∨ c = '-'

def NameWord.text (w : NameWord) : List Char := w.front ++ w.back

/-- A dot between blanks and comments, and the word behind it. -/
structure Access where
  before : Gap
  behind : Gap
  name : NameWord

def Access.text (a : Access) : List Char :=
  a.before.text ++ '.' :: (a.behind.text ++ a.name.text)

/-- The names of elements in markup. -/
inductive ElementName where
  | word (w : NameWord)
  | namespaced (space : NameWord) (before behind : Gap) (name : NameWord)
  | member (object : NameWord) (first : Access) (others : List Access)

namespace ElementName

def text : ElementName → List Char
  | word w => w.text
  | namespaced space before behind name =>
    space.text ++ (before.text ++ ':' :: (behind.text ++ name.text))
  | member object first others => object.text ++ (first :: others).flatMap Access.text

def styledWord : List Char := "styled".toList

/-- What the word stands for in front of members. -/
def objectOf (w : NameWord) : Expression :=
  if w.text = thisWord then .this else .reference w.text

def accessed (o : Expression) (as : List Access) : Expression :=
  as.foldl (fun e a => .member e a.name.text) o

/-- The styled element of a name: the member of `styled` that is called like an element of the
platform, if the name is a plain word with a small letter in front, and else a call of `styled`: on
the component or the member that is named, or on the name as a string where there is a hyphen or a
colon in it. -/
def styled : ElementName → Expression
  | word w =>
    if w.back = [] then
      if w.text.head?.any Char.isLower then .member (.reference styledWord) w.text
      else .call (.reference styledWord) (.reference w.text)
    else .call (.reference styledWord) (.string w.text)
  | namespaced space _ _ name =>
    .call (.reference styledWord) (.string (space.text ++ ':' :: name.text))
  | member object first others =>
    .call (.reference styledWord) (accessed (objectOf object) (first :: others))

/-- Whether no hyphen and no colon stands in a name, and no reserved word where a component or an
object is named. -/
def IsPlain : ElementName → Prop
  | word w =>
    w.back = [] ∧ (w.text.head?.any Char.isLower = true ∨ isReserved w.text = false)
  | namespaced _ _ _ _ => False
  | member object first others =>
    object.back = [] ∧ (∀ a ∈ first :: others, a.name.back = []) ∧
      (object.text = thisWord ∨ isReserved object.text = false)

end ElementName

namespace NameWord

def plain (w : List Char) (characters : w.all Script.isWordPart = true)
    (begins : w.head?.any (!·.isDigit) = true) : NameWord where
  front := w
  back := []
  word := Script.isWord_of_plain characters begins
  hyphen := .inl rfl
  parts c member := by cases member

theorem ends_back (w : NameWord) {rest : List Char} (ends : Ends rest) : Ends (w.back ++ rest) := by
  rcases w.hyphen with nothing | first
  · rwa [nothing]
  · obtain ⟨more, back⟩ := List.head?_eq_some_iff.mp first
    rw [back]
    exact ends_mark (by decide) _

theorem tokens_text (w : NameWord) {rest : List Char} (ends : Ends rest) :
    tokens (w.text ++ rest) = .word w.front :: tokens (w.back ++ rest) := by
  rw [text, List.append_assoc, tokens_word w.word (w.ends_back ends)]

theorem tokens_plain {w : NameWord} (plain : w.back = []) {rest : List Char} (ends : Ends rest) :
    tokens (w.text ++ rest) = .word w.text :: tokens rest := by
  rw [w.tokens_text ends, text, plain, List.append_nil, List.nil_append]

theorem back_eq_nil {w : NameWord} (all : ∀ c ∈ w.text, isNamePart c = true) : w.back = [] := by
  refine w.hyphen.resolve_right fun first => ?_
  obtain ⟨more, back⟩ := List.head?_eq_some_iff.mp first
  have part := all '-' (by rw [text, back]; simp)
  revert part
  decide

theorem not_mem_dot {w : NameWord} (plain : w.back = []) : '.' ∉ w.text := by
  rw [text, plain, List.append_nil]
  intro there
  have part := w.word.pieces.all_isNamePart '.' there
  revert part
  decide

end NameWord

theorem Access.ends (as : List Access) {rest : List Char} (ends : Ends rest) :
    Ends (as.flatMap Access.text ++ rest) := by
  cases as with
  | nil => exact ends
  | cons a as =>
      rw [List.flatMap_cons, Access.text, List.append_assoc, List.append_assoc]
      exact a.before.ends (ends_mark (by decide) _)

def Access.tokens (a : Access) : List Token := [.mark '.', .word a.name.text]

theorem Access.tokens_text {as : List Access} (plain : ∀ a ∈ as, a.name.back = [])
    {rest : List Char} (ends : Ends rest) :
    Script.tokens (as.flatMap Access.text ++ rest)
      = as.flatMap Access.tokens ++ Script.tokens rest := by
  induction as with
  | nil => rfl
  | cons a as ih =>
      obtain ⟨own, others⟩ := List.forall_mem_cons.mp plain
      rw [List.flatMap_cons, Access.text, List.append_assoc, List.append_assoc, a.before.passed,
        List.cons_append, tokens_mark (by decide), List.append_assoc, a.behind.passed,
        NameWord.tokens_plain own (Access.ends as ends), ih others]
      rfl

namespace ElementName

theorem tokens_text (n : ElementName) {rest : List Char} (ends : Ends rest) :
    ∃ w ts, tokens (n.text ++ rest) = .word w :: ts := by
  cases n with
  | word w => exact ⟨_, _, w.tokens_text ends⟩
  | namespaced space before behind name =>
      rw [text, List.append_assoc, List.append_assoc]
      exact ⟨_, _, space.tokens_text (before.ends (ends_mark (by decide) _))⟩
  | member object first others =>
      rw [text, List.append_assoc]
      exact ⟨_, _, object.tokens_text (Access.ends _ ends)⟩

theorem tokens_objectOf (w : NameWord) : (objectOf w).tokens = [.word w.text] := by
  unfold objectOf
  split
  · rename_i same
    rw [same]
    rfl
  · rfl

theorem proper_objectOf {w : NameWord} :
    (objectOf w).Proper ↔ w.text = thisWord ∨ isReserved w.text = false := by
  unfold objectOf
  split
  · rename_i same
    exact ⟨fun _ => .inl same, fun _ => trivial⟩
  · rename_i other
    exact (or_iff_right other).symm

theorem isOperand_objectOf (w : NameWord) : (objectOf w).IsOperand := by
  unfold objectOf
  split <;> exact trivial

theorem tokens_accessed (o : Expression) (as : List Access) :
    (accessed o as).tokens = o.tokens ++ as.flatMap Access.tokens := by
  induction as generalizing o with
  | nil => exact (List.append_nil _).symm
  | cons a as ih =>
      have first : (Expression.member o a.name.text).tokens = o.tokens ++ a.tokens := rfl
      rw [List.flatMap_cons, ← List.append_assoc, ← first]
      exact ih _

theorem proper_accessed {o : Expression} (operand : o.IsOperand) (as : List Access) :
    (accessed o as).Proper ↔ o.Proper := by
  induction as generalizing o with
  | nil => exact Iff.rfl
  | cons a as ih =>
      have member : (Expression.member o a.name.text).IsOperand := trivial
      exact (ih member).trans (and_iff_left operand)

end ElementName

end Markup

namespace Component

open Markup (Element ElementName NameWord Access isIntrinsicTag)
open Markup.ElementName (styledWord objectOf accessed)

theorem isWord_styled : IsWord styledWord := Script.isWord_of_plain (by decide) (by decide)

theorem proper_styled : (Expression.reference styledWord).Proper :=
  (by decide : isReserved styledWord = false)

theorem tokens_constructorFor (tag : String) : tokens (constructorFor tag).toList =
    if isIntrinsicTag tag then .word styledWord :: .mark '.' :: tokens tag.toList
    else .word styledWord :: .mark '(' :: tokens (tag.toList ++ [')']) := by
  unfold constructorFor
  split
  · have text : ("styled." ++ tag).toList = styledWord ++ '.' :: tag.toList :=
      String.toList_append
    rw [text, tokens_word isWord_styled (ends_mark (by decide) _), tokens_mark (by decide)]
  · have text : ("styled(" ++ tag ++ ")").toList = styledWord ++ '(' :: (tag.toList ++ [')']) := by
      rw [String.toList_append, String.toList_append, List.append_assoc]
      rfl
    rw [text, tokens_word isWord_styled (ends_mark (by decide) _), tokens_mark (by decide)]

theorem tokens_ne_string (tag : String) (n : ElementName) (text : tag.toList = n.text)
    (content : List Char) : tokens (constructorFor tag).toList ≠
      (Expression.call (.reference styledWord) (.string content)).tokens := by
  rw [tokens_constructorFor, text]
  split
  · exact fun same => by cases same
  · obtain ⟨w, ts, tokens⟩ := n.tokens_text (ends_mark (c := ')') (by decide) [])
    rw [tokens]
    exact fun same => by cases same

theorem isIntrinsicTag_eq {tag : String} (no_dot : '.' ∉ tag.toList) :
    isIntrinsicTag tag = tag.toList.head?.any Char.isLower := by
  unfold isIntrinsicTag
  split
  · rename_i none_
    rw [none_]
    rfl
  · rename_i c cs text
    rw [text] at no_dot ⊢
    have absent : (c :: cs).contains '.' = false :=
      Bool.eq_false_iff.mpr (mt List.contains_iff_mem.mp no_dot)
    rw [absent, Bool.not_false, Bool.and_true]
    rfl

theorem isIntrinsicTag_of_dot {tag : String} (dot : '.' ∈ tag.toList) :
    isIntrinsicTag tag = false := by
  unfold isIntrinsicTag
  split
  · rfl
  · rename_i c cs text
    rw [text] at dot
    rw [List.contains_iff_mem.mpr dot, Bool.not_true, Bool.and_false]

theorem read_word_iff {tag : String} {w : NameWord} (text : tag.toList = w.text) :
    Expression.read? (constructorFor tag).toList = some (ElementName.word w).styled ↔
      (ElementName.word w).IsPlain := by
  rw [Expression.read?_eq_some_iff]
  by_cases plain : w.back = []
  · have intrinsic : isIntrinsicTag tag = w.text.head?.any Char.isLower := by
      rw [isIntrinsicTag_eq (text ▸ NameWord.not_mem_dot plain), text]
    rw [tokens_constructorFor, intrinsic, text]
    simp only [ElementName.styled, ElementName.IsPlain, plain, if_true, true_and]
    cases w.text.head?.any Char.isLower with
    | true =>
        have own := NameWord.tokens_plain plain ends_nil
        rw [List.append_nil] at own
        simp only [if_true, true_or, iff_true, own]
        exact ⟨⟨proper_styled, trivial⟩, rfl⟩
    | false =>
        have own := NameWord.tokens_plain plain (ends_mark (c := ')') (by decide) [])
        rw [tokens_mark (by decide)] at own
        simp only [Bool.false_eq_true, if_false, false_or, own]
        constructor
        · exact fun read => read.1.2.2
        · exact fun free => ⟨⟨proper_styled, trivial, free⟩, rfl⟩
  · simp only [ElementName.styled, ElementName.IsPlain, plain, if_false, false_and, iff_false]
    exact fun read => tokens_ne_string tag (.word w) text w.text read.2

theorem read_namespaced {tag : String} {space name : NameWord} {before behind : Gap}
    (text : tag.toList = (ElementName.namespaced space before behind name).text) :
    Expression.read? (constructorFor tag).toList ≠
      some (ElementName.namespaced space before behind name).styled := by
  intro read
  exact tokens_ne_string tag _ text _ (Expression.read?_eq_some_iff.mp read).2

theorem read_member_iff {tag : String} {object : NameWord} {first : Access} {others : List Access}
    (text : tag.toList = (ElementName.member object first others).text) :
    Expression.read? (constructorFor tag).toList
        = some (ElementName.member object first others).styled ↔
      (ElementName.member object first others).IsPlain := by
  have dot : '.' ∈ tag.toList := by
    rw [text, ElementName.text, List.flatMap_cons, Access.text]
    simp
  rw [Expression.read?_eq_some_iff, tokens_constructorFor, isIntrinsicTag_of_dot dot,
    if_neg Bool.false_ne_true, text]
  simp only [ElementName.styled, ElementName.IsPlain, Expression.Proper, Expression.tokens,
    ElementName.tokens_accessed, ElementName.tokens_objectOf]
  rw [ElementName.proper_accessed (ElementName.isOperand_objectOf object),
    ElementName.proper_objectOf]
  constructor
  · rintro ⟨⟨-, -, free⟩, same⟩
    have parts : ∀ w, .word w ∈ .word object.text :: (first :: others).flatMap Access.tokens →
        ∀ c ∈ w, isNamePart c = true := by
      intro w member
      apply Script.isNamePart_of_mem_tokens ((constructorFor tag).toList) 0
      change .word w ∈ tokens _
      rw [tokens_constructorFor, isIntrinsicTag_of_dot dot, if_neg Bool.false_ne_true, text, same]
      simp only [List.singleton_append, List.mem_cons, List.mem_append] at member ⊢
      exact .inr (.inr (.inl member))
    refine ⟨NameWord.back_eq_nil (parts _ List.mem_cons_self), fun a member => ?_, free⟩
    apply NameWord.back_eq_nil
    apply parts
    refine List.mem_cons_of_mem _ (List.mem_flatMap.mpr ⟨a, member, ?_⟩)
    exact List.mem_cons_of_mem _ List.mem_cons_self
  · rintro ⟨plain, accesses, free⟩
    have ends : Ends [')'] := ends_mark (by decide) []
    refine ⟨⟨proper_styled, trivial, free⟩, ?_⟩
    rw [ElementName.text, List.append_assoc, NameWord.tokens_plain plain (Access.ends _ ends),
      Access.tokens_text accesses ends, tokens_mark (by decide)]
    rfl

/-- The constructor of a component is the expression that stands for the styled element of its tag
just if the tag is plain: without a hyphen or a colon, and with no reserved word where a component or
an object is named. -/
theorem constructor_read_iff (s : Synthesizer) {calls : List (Path × List Element)} {c : Styled}
    (made : c ∈ s.synthesizeAll calls) {n : ElementName} (tag : c.tag.toList = n.text) :
    Expression.read? c.constructor.toList = some n.styled ↔ n.IsPlain := by
  obtain ⟨file, k, e, rfl⟩ := mem_synthesizeAll made
  change e.tag.toList = n.text at tag
  change Expression.read? (constructorFor e.tag).toList = _ ↔ _
  cases n with
  | word w => exact read_word_iff tag
  | namespaced space before behind name => exact iff_of_false (read_namespaced tag) id
  | member object first others => exact read_member_iff tag

def unstyled : Synthesizer := ⟨Sheet.StyleTable.empty, "Style"⟩

def taggedElement (tag : String) : Element :=
  ⟨⟨"a.jsx"⟩, 0, tag, ⟨5, 6⟩, none, ⟨"p", ⟨7, 20⟩, ⟨6, 20⟩⟩⟩

def taggedComponent (tag constructor : String) : Styled :=
  ⟨"AStyle", ⟨"a.jsx"⟩, ⟨"a.style.jsx"⟩, "p", tag, constructor, ""⟩

def blankGap : Gap := ⟨[' '], fun _ => rfl⟩

def spacedName : ElementName :=
  .member (.plain "motion".toList (by decide) (by decide))
    ⟨blankGap, blankGap, .plain "div".toList (by decide) (by decide)⟩ []

theorem constructor_read_iff_spaced :
    taggedComponent "motion . div" "styled(motion . div)" ∈
      unstyled.synthesizeAll [(⟨"a.jsx"⟩, [taggedElement "motion . div"])] ∧
    "motion . div".toList = spacedName.text ∧ spacedName.IsPlain ∧
    Expression.read? "styled(motion . div)".toList = some spacedName.styled := by
  have made : taggedComponent "motion . div" "styled(motion . div)" ∈
      unstyled.synthesizeAll [(⟨"a.jsx"⟩, [taggedElement "motion . div"])] := by decide +kernel
  have tag : "motion . div".toList = spacedName.text := by decide
  have plain : spacedName.IsPlain := ⟨rfl, by simp [NameWord.plain], .inr (by decide)⟩
  exact ⟨made, tag, plain, (constructor_read_iff unstyled made tag).mpr plain⟩

def hyphenatedName : ElementName :=
  .word
    { front := "my".toList
      back := "-element".toList
      word := Script.isWord_of_plain (by decide) (by decide)
      hyphen := .inr rfl
      parts := by simpa using (by decide : "element".toList.all isNamePart = true) }

/-- A member of `styled` from which something is subtracted, where an element is to be styled. -/
theorem hyphenated_not_read :
    Expression.read? "styled.my-element".toList =
      some (.difference (.member (.reference styledWord) "my".toList)
        (.reference "element".toList)) ∧
    ¬ ∀ (s : Synthesizer) (calls : List (Path × List Element)) (c : Styled) (n : ElementName),
      c ∈ s.synthesizeAll calls → c.tag.toList = n.text →
        Expression.read? c.constructor.toList = some n.styled := by
  have subtracted : Expression.read? "styled.my-element".toList =
      some (.difference (.member (.reference styledWord) "my".toList)
        (.reference "element".toList)) := by decide +kernel
  refine ⟨subtracted, fun always => ?_⟩
  have made : taggedComponent "my-element" "styled.my-element" ∈
      unstyled.synthesizeAll [(⟨"a.jsx"⟩, [taggedElement "my-element"])] := by decide +kernel
  have read := always _ _ _ hyphenatedName made (by decide)
  have differs : Expression.difference (.member (.reference styledWord) "my".toList)
      (.reference "element".toList) ≠ hyphenatedName.styled := by decide
  exact differs (Option.some.inj (subtracted.symm.trans read))

end Component

end Restyle
