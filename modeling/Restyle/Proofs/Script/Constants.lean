import Restyle.Proofs.Script.Expression
import Restyle.Proofs.Syntax.Answers
import Restyle.Script.Grammar
/-!
Constants, each of which is an element of one tag with attributes that are set to strings: the text
of such a statement, and what the grammar without types answers for it.
-/

namespace Restyle.Script

open Syntax
open Syntax (Pattern)
open Text (byteLength byteLength_append byteLength_cons byteLength_nil)

variable {size : Nat} {after : List Char} {o : Nat} {st : List Node}

/-- The grammar of scripts with markup and without types. -/
abbrev untyped : Grammar Rule := grammar ⟨false, true⟩

def constWord : List Char := ['c', 'o', 'n', 's', 't']
def importWord : List Char := ['i', 'm', 'p', 'o', 'r', 't']
def fromWord : List Char := ['f', 'r', 'o', 'm']

/-- The marks of these scripts take up one byte each. -/
theorem utf8Size_marks : ' '.utf8Size = 1 ∧ '='.utf8Size = 1 ∧ '"'.utf8Size = 1 ∧
    '<'.utf8Size = 1 ∧ '/'.utf8Size = 1 ∧ '>'.utf8Size = 1 ∧ ';'.utf8Size = 1 ∧
    ','.utf8Size = 1 ∧ '\x7b'.utf8Size = 1 ∧ '\x7d'.utf8Size = 1 ∧ '\''.utf8Size = 1 ∧
    '\n'.utf8Size = 1 ∧ byteLength constWord = 5 ∧ byteLength importWord = 6 ∧
    byteLength fromWord = 4 := by
  decide

theorem htmlComment_of_other {c : Char} (no_tag : c ≠ '<') (no_hyphen : c ≠ '-')
    (cs : List Char) : htmlComment (c :: cs) = 0 := by
  unfold htmlComment
  split
  · rename_i same
    exact absurd (List.cons.inj same).1 no_tag
  · rename_i same
    exact absurd (List.cons.inj same).1 no_hyphen
  · rfl

theorem punctuation_other {p : String} {longer : List String} {c d : Char} {cs ds : List Char}
    (first : p.toList = d :: ds) (other : c ≠ d) :
    (punctuation p longer).scan (c :: cs) = 0 := by
  simp [punctuation, first, other.symm]

section

variable {w : List Char} {c : Char}

theorem IsWord.length_ne_zero (h : IsWord w) : w.length ≠ 0 := by
  obtain ⟨c, cs, rfl, -⟩ := h.exists_cons
  exact Nat.succ_ne_zero _

theorem IsWord.front (h : IsWord w) (after : List Char) : Fronts untyped [] (w ++ after) := by
  obtain ⟨c, cs, rfl, -, part⟩ := h.exists_cons
  have other {d : Char} (no_part : isNamePart d = false) : c ≠ d := by
    rintro rfl
    rw [part] at no_part
    cases no_part
  have mark : untyped.isBlank c = false := isBlank_of_isNamePart part
  exact ⟨by simp, by simpa using mark, comment_of_other (other (by decide)) _,
    htmlComment_of_other (other (by decide)) (other (by decide)) _⟩

theorem IsWord.front_behind (h : IsWord w) (after : List Char) :
    Fronts untyped [' '] (w ++ after) :=
  { h.front after with blank := List.all_eq_true.mp rfl }

theorem word_of_isWord (h : IsWord w) (ends : isNamePart c = false) (after : List Char) :
    word (w ++ c :: after) = w.length :=
  word_append h fun d first => by rwa [← Option.some.inj first]

theorem markupName_scan (h : IsWord w) (ends : isNamePart c = false) (no_hyphen : c ≠ '-')
    (after : List Char) (category : String) :
    (markupName category).scan (w ++ c :: after) = w.length := by
  simp [markupName, word_of_isWord h ends, no_hyphen]

theorem variableName_scan (h : IsWord w) (unreserved : String.ofList w ∉ reservedWords)
    (ends : isNamePart c = false) (after : List Char) :
    variableName (w ++ c :: after) = w.length := by
  simp [variableName, word_of_isWord h ends, unreserved]

end

/-- An attribute that is set to a string, with the blank in front of it. -/
structure Attribute where
  name : List Char
  value : List Char
  isWord : IsWord name
  some_value : value ≠ []
  unquoted : '"' ∉ value

namespace Attribute

def text (a : Attribute) : List Char :=
  ' ' :: (a.name ++ '=' :: '"' :: (a.value ++ ['"']))

def literalNode (start : Nat) (a : Attribute) : Node :=
  .over "string" (leafAt (.token "\"") start ['"'])
    [leafAt (.category "string_fragment") (start + 1) a.value,
      leafAt (.token "\"") (start + 1 + byteLength a.value) ['"']]

def node (start : Nat) (a : Attribute) : Node :=
  let behind := start + 1 + byteLength a.name
  (Node.over "jsx_attribute" (leafAt (.category "property_identifier") (start + 1) a.name)
    [leafAt (.token "=") behind ['='], a.literalNode (behind + 1)]).withRole .attribute

theorem byteLength_text (a : Attribute) :
    byteLength a.text = 1 + byteLength a.name + 2 + byteLength a.value + 1 := by
  simp only [text, byteLength_cons, byteLength_append, byteLength_nil, utf8Size_marks]
  omega

end Attribute

def attributesText (attributes : List Attribute) : List Char := attributes.flatMap Attribute.text

def attributeNodes : Nat → List Attribute → List Node
  | _, [] => []
  | start, a :: attributes =>
    a.node start :: attributeNodes (start + byteLength a.text) attributes

theorem attributesText_cons (a : Attribute) (as : List Attribute) :
    attributesText (a :: as) = a.text ++ attributesText as := rfl

theorem answers_attributeString (a : Attribute)
    (long : ('"' :: (a.value ++ '"' :: after)).length < size) :
    Answers untyped size 20 attributeString
      (.amid true false ('"' :: (a.value ++ '"' :: after)) o st)
      (some (.amid true false after (o + 1 + byteLength a.value + 1)
        (a.literalNode o :: st))) := by
  have some_ : 0 < size := Nat.zero_lt_of_lt long
  have opening : Fronts untyped [] (['"'] ++ (a.value ++ '"' :: after)) :=
    ⟨by simp, rfl, rfl, rfl⟩
  have closing : (punctuation "\"" []).scan (['"'] ++ after) = 1 := rfl
  have inside : (attributeText '"').scan (a.value ++ '"' :: after) = a.value.length := by
    have all : ∀ c ∈ a.value, (c != '"') = true := by
      intro c member
      rw [bne_iff_ne]
      rintro rfl
      exact a.unquoted member
    simp only [attributeText]
    rw [List.takeWhile_append_of_pos all, List.takeWhile_cons_of_neg (by decide), List.append_nil]
  apply Answers.left
  apply Answers.over (leafAt (.token "\"") o ['"']) _ rfl
  refine .both (answers_token opening some_ rfl (by decide)) ?_
  refine .both (.left (answers_attached inside (by simpa using a.some_value))) ?_
  exact answers_attached closing (by decide)

theorem answers_attribute (a : Attribute) (long : (a.text ++ after).length < size) :
    Answers untyped size 30 tagAttribute (.amid true false (a.text ++ after) o st)
      (some (.amid true false after (o + byteLength a.text) (a.node o :: st))) := by
  have text : a.text ++ after = [' '] ++ (a.name ++ '=' :: '"' :: (a.value ++ '"' :: after)) := by
    simp [Attribute.text]
  have ends : o + byteLength a.text =
      o + 1 + byteLength a.name + 1 + 1 + byteLength a.value + 1 := by
    rw [a.byteLength_text]
    omega
  rw [text] at long ⊢
  rw [ends]
  obtain ⟨some_, blank, behind, quoted⟩ : 0 < size ∧ 1 < size ∧
      ('=' :: '"' :: (a.value ++ '"' :: after)).length < size ∧
      ('"' :: (a.value ++ '"' :: after)).length < size := by
    simp only [List.length_append, List.length_cons, List.length_nil] at long ⊢
    omega
  have front := a.isWord.front_behind ('=' :: '"' :: (a.value ++ '"' :: after))
  have scanned := markupName_scan a.isWord (c := '=') (by decide) (by decide)
    ('"' :: (a.value ++ '"' :: after))
  have equals : Fronts untyped [] (['='] ++ '"' :: (a.value ++ '"' :: after)) :=
    ⟨by simp, rfl, rfl, rfl⟩
  refine Answers.role (d := .amid true false after _ (.over "jsx_attribute" _ _ :: st)) ?_
  apply Answers.left
  apply Answers.over (leafAt (.category "property_identifier") (o + 1) a.name) _ rfl
  refine .both (.right ?_ (answers_token front blank (scanned _) a.isWord.length_ne_zero)) ?_
  · -- The name has no namespace in front of it.
    apply Answers.node_none
    exact .both (answers_token front blank (scanned _) a.isWord.length_ne_zero)
      (.both_none (answers_refused rfl behind rfl))
  · apply Answers.left
    refine .both (answers_token equals some_ rfl (by decide)) ?_
    exact .left ((answers_attributeString a quoted).mono (by decide))

theorem answers_attributes (attributes : List Attribute)
    (long : (attributesText attributes ++ (' ' :: '/' :: '>' :: after)).length < size) :
    Answers untyped size (attributes.length + 31) (.many tagAttribute)
      (.amid true false (attributesText attributes ++ (' ' :: '/' :: '>' :: after)) o st)
      (some (.amid true false (' ' :: '/' :: '>' :: after)
        (o + byteLength (attributesText attributes))
        ((attributeNodes o attributes).reverse ++ st))) := by
  induction attributes generalizing o st with
  | nil => exact .done (answers_refused rfl long rfl)
  | cons a attributes ih =>
      have text : attributesText (a :: attributes) ++ (' ' :: '/' :: '>' :: after) =
          a.text ++ (attributesText attributes ++ (' ' :: '/' :: '>' :: after)) := by
        simp [attributesText]
      have ends : o + byteLength (attributesText (a :: attributes)) =
          o + byteLength a.text + byteLength (attributesText attributes) := by
        simp [attributesText, Nat.add_assoc]
      have stack : (attributeNodes o (a :: attributes)).reverse ++ st =
          (attributeNodes (o + byteLength a.text) attributes).reverse ++ a.node o :: st := by
        simp [attributeNodes]
      rw [text] at long ⊢
      rw [ends, stack]
      have behind : (attributesText attributes ++ (' ' :: '/' :: '>' :: after)).length < size := by
        rw [List.length_append] at long
        omega
      exact .more ((answers_attribute a long).mono (by simp)) (by simp [Cursor.amid]) (ih behind)

/-- Behind the name of a tag comes a blank, and neither a namespace nor a member. -/
theorem exists_front (attributes : List Attribute) (after : List Char) :
    ∃ c cs, attributesText attributes ++ (' ' :: '/' :: '>' :: after) = ' ' :: c :: cs ∧
      Fronts untyped [' '] (c :: cs) ∧ c ≠ ':' ∧ c ≠ '.' := by
  cases attributes with
  | nil =>
      exact ⟨'/', '>' :: after, rfl, ⟨List.all_eq_true.mp rfl, rfl, rfl, rfl⟩, by decide,
        by decide⟩
  | cons a attributes =>
      let rest := '=' :: '"' :: (a.value ++ '"' ::
        (attributesText attributes ++ (' ' :: '/' :: '>' :: after)))
      have front := a.isWord.front_behind rest
      obtain ⟨c, cs, same, -, part⟩ := a.isWord.exists_cons
      rw [same] at front
      refine ⟨c, cs ++ rest, ?_, front, ?_, ?_⟩
      · simp [attributesText, Attribute.text, same, rest]
      · rintro rfl; revert part; decide
      · rintro rfl; revert part; decide

theorem answers_tagName {tag : List Char} (isWord : IsWord tag) {c : Char} {cs : List Char}
    (front : Fronts untyped [' '] (c :: cs)) (no_namespace : c ≠ ':') (no_member : c ≠ '.')
    (long : (tag ++ ' ' :: c :: cs).length < size) :
    Answers untyped size 20 tagName (.amid true false (tag ++ ' ' :: c :: cs) o st)
      (some (.amid true false (' ' :: c :: cs) (o + byteLength tag)
        ((leafAt (.category "identifier") o tag).withRole .name :: st))) := by
  obtain ⟨some_, blank⟩ : 0 < size ∧ 1 < size := by
    simp only [List.length_append, List.length_cons] at long
    omega
  have scanned := markupName_scan isWord (c := ' ') (by decide) (by decide) (c :: cs)
  have word {k : Nat} : Answers untyped size (k + 1) (.token (markupName "identifier"))
      (.amid true false (tag ++ ' ' :: c :: cs) o st)
      (some (.amid true false (' ' :: c :: cs) (o + byteLength tag)
        (leafAt (.category "identifier") o tag :: st))) :=
    answers_token (isWord.front _) some_ (scanned _) isWord.length_ne_zero
  refine Answers.role (d := .amid true false _ _ (leafAt (.category "identifier") o tag :: st)) ?_
  apply Answers.right
  · apply Answers.node_none
    refine .both word (.both_none ?_)
    exact answers_token_none front (by rfl) (by rfl) blank (punctuation_other (by rfl) no_namespace)
  · refine .chain word (grows_none ?_)
    refine .cons_none (.both_none ?_) (answersTail_nil _)
    exact answers_token_none front (by rfl) (by rfl) blank (punctuation_other (by rfl) no_member)

/-- A constant that is an element of one tag. -/
structure Constant where
  name : List Char
  tag : List Char
  attributes : List Attribute
  isWord : IsWord name
  unreserved : String.ofList name ∉ reservedWords
  tag_isWord : IsWord tag

namespace Constant

def tagText (c : Constant) : List Char :=
  '<' :: (c.tag ++ (attributesText c.attributes ++ [' ', '/', '>']))

def tagNode (start : Nat) (c : Constant) : Node :=
  let behind := start + 1 + byteLength c.tag
  let tagEnd := behind + byteLength (attributesText c.attributes)
  .over "jsx_self_closing_element" (leafAt (.token "<") start ['<'])
    ((leafAt (.category "identifier") (start + 1) c.tag).withRole .name ::
      (attributeNodes behind c.attributes ++ [leafAt (.token "/>") (tagEnd + 1) ['/', '>']]))

def declaratorText (c : Constant) : List Char := c.name ++ (' ' :: '=' :: ' ' :: c.tagText)

def declaratorNode (start : Nat) (c : Constant) : Node :=
  let behind := start + byteLength c.name
  .over "variable_declarator" (leafAt (.category "identifier") start c.name)
    [leafAt (.token "=") (behind + 1) ['='], c.tagNode (behind + 3)]

def text (c : Constant) : List Char := constWord ++ ' ' :: (c.declaratorText ++ [';'])

def node (start : Nat) (c : Constant) : Node :=
  .over "lexical_declaration" (leafAt (.token "const") start constWord)
    [c.declaratorNode (start + 6),
      leafAt (.token ";") (start + 6 + byteLength c.declaratorText) [';']]

end Constant

/-- No operator and no comment begins where a tag begins. -/
theorem tag_front {tag : List Char} (isWord : IsWord tag) (after : List Char) :
    Fronts untyped [' '] ('<' :: (tag ++ after)) ∧
      (punctuation "<" ["<<", "<=", "</"]).scan ('<' :: (tag ++ after)) = 1 := by
  obtain ⟨c, cs, rfl, -, part⟩ := isWord.exists_cons
  have other {d : Char} (no_part : isNamePart d = false) : d ≠ c := by
    rintro rfl
    rw [part] at no_part
    cases no_part
  refine ⟨⟨List.all_eq_true.mp rfl, rfl, rfl, ?_⟩, ?_⟩
  · show htmlComment ('<' :: c :: (cs ++ after)) = 0
    unfold htmlComment
    split
    · rename_i same
      exact absurd (List.cons.inj (List.cons.inj same).2).1.symm (other (by decide))
    · cases ‹_›
    · rfl
  · have differs : '<' ≠ c ∧ '=' ≠ c ∧ '/' ≠ c :=
      ⟨other (by decide), other (by decide), other (by decide)⟩
    simp [punctuation, List.isPrefixOf_cons_cons, differs]
    rfl

theorem Constant.front (c : Constant) (after : List Char) :
    Fronts untyped [' '] (c.tagText ++ after) := by
  have front := (tag_front c.tag_isWord (attributesText c.attributes ++ [' ', '/', '>'] ++ after)).1
  rwa [← List.append_assoc] at front

theorem answers_element (c : Constant) (long : (' ' :: (c.tagText ++ after)).length < size) :
    Answers untyped size (c.attributes.length + 50) (.rule .element)
      (.plain (' ' :: (c.tagText ++ after)) o st)
      (some (.plain after (o + 1 + byteLength c.tagText) (c.tagNode (o + 1) :: st))) := by
  have text : ' ' :: (c.tagText ++ after) = [' '] ++ (['<'] ++ (c.tag ++
      (attributesText c.attributes ++ (' ' :: '/' :: '>' :: after)))) := by
    simp [Constant.tagText]
  have ends : o + 1 + byteLength c.tagText = o + 1 + 1 + byteLength c.tag +
      byteLength (attributesText c.attributes) + 1 + 2 := by
    simp only [Constant.tagText, byteLength_cons, byteLength_append, byteLength_nil,
      utf8Size_marks]
    omega
  rw [text] at long ⊢
  rw [ends]
  obtain ⟨d, ds, behind, front, no_namespace, no_member⟩ := exists_front c.attributes after
  let lt := leafAt (.token "<") (o + 1) ['<']
  let name := (leafAt (.category "identifier") (o + 1 + 1) c.tag).withRole .name
  let nodes := attributeNodes (o + 1 + 1 + byteLength c.tag) c.attributes
  have named := @answers_tagName size (o + 1 + 1) (lt :: st) _ c.tag_isWord _ _ front no_namespace
    no_member
  rw [← behind] at named
  obtain ⟨opening, bracket⟩ := tag_front c.tag_isWord
    (attributesText c.attributes ++ (' ' :: '/' :: '>' :: after))
  obtain ⟨blank, tag_long, long'⟩ : 1 < size ∧ (c.tag ++
      (attributesText c.attributes ++ (' ' :: '/' :: '>' :: after))).length < size ∧
      (attributesText c.attributes ++ (' ' :: '/' :: '>' :: after)).length < size := by
    simp only [List.length_append, List.length_cons, List.length_nil] at long ⊢
    omega
  have closing : Fronts untyped [' '] (['/', '>'] ++ after) :=
    ⟨List.all_eq_true.mp rfl, rfl, rfl, rfl⟩
  apply Answers.plain_rule rfl
  refine Answers.both (d := .plain after _ (c.tagNode (o + 1) :: st)) ?_ (answers_last rfl)
  refine Answers.chain (d := .plain after _ (c.tagNode (o + 1) :: st)) ?_ (grows_none ?_)
  · refine .ended lt (name :: nodes)
      [leafAt (.token "/>") (o + 1 + 1 + byteLength c.tag +
        byteLength (attributesText c.attributes) + 1) ['/', '>']] rfl (.inside ?_)
      (answers_token closing blank rfl (by decide))
    refine .both (answers_token opening blank bracket (by decide)) (.left ?_)
    have tagged := (named tag_long).mono (k := c.attributes.length + 41) (by omega)
    refine .both tagged (.both (answers_nothing _) ?_)
    have stack : (lt :: name :: nodes).reverse ++ st = nodes.reverse ++ name :: lt :: st := by simp
    rw [stack]
    exact (answers_attributes c.attributes long').mono (by omega)
  · -- A tag that closes itself has no children.
    exact .cons_none (.both_none (answers_last_none rfl)) (answersTail_nil _)

/-- An element is an operand, and more than that only where an operator follows. -/
theorem answers_operand (c : Constant)
    (long : (' ' :: (c.tagText ++ ';' :: after)).length < size) :
    Answers untyped size (c.attributes.length + 100) (.rule .operand)
      (.plain (' ' :: (c.tagText ++ ';' :: after)) o st)
      (some (.amid false true (';' :: after) (o + 1 + byteLength c.tagText)
        (c.tagNode (o + 1) :: st))) := by
  obtain ⟨blank, behind⟩ : 1 < size ∧ (';' :: after).length < size := by
    simp only [List.length_append, List.length_cons] at long ⊢
    omega
  have primary : Answers untyped size (c.attributes.length + 75) (.rule .primary)
      (.plain (' ' :: (c.tagText ++ ';' :: after)) o st)
      (some (.amid false true (';' :: after) (o + 1 + byteLength c.tagText)
        (c.tagNode (o + 1) :: st))) := by
    apply Answers.operand_rule false rfl
    refine .beyond (j := 40) 17 (by decide) (c.front _) rfl rfl blank (by omega) rfl ?_
    exact (answers_element c long).mono (by omega)
  apply Answers.operand_rule true rfl
  refine .beyond (j := 20) 4 (by decide) (c.front _) rfl rfl blank (by omega) rfl ?_
  refine .alone (j := 20) ?_ rfl behind (by decide) (by omega) rfl
  exact .alone (j := 20) (primary.mono (by omega)) rfl behind (by decide) (by omega) rfl

theorem answers_expression (c : Constant)
    (long : (' ' :: (c.tagText ++ ';' :: after)).length < size) :
    Answers untyped size (c.attributes.length + 120) (.rule .expression)
      (.plain (' ' :: (c.tagText ++ ';' :: after)) o st)
      (some (.amid false true (';' :: after) (o + 1 + byteLength c.tagText)
        (c.tagNode (o + 1) :: st))) := by
  obtain ⟨blank, behind⟩ : 1 < size ∧ (';' :: after).length < size := by
    simp only [List.length_append, List.length_cons] at long ⊢
    omega
  apply Answers.operand_rule true rfl
  refine .beyond (j := 20) 2 (by decide) (c.front _) rfl rfl blank (by omega) rfl ?_
  refine .alone (j := 40) ?_ rfl behind (by decide) (by omega) rfl
  refine .alone (j := 40) ?_ rfl behind (by decide) (by omega) rfl
  refine .alone (j := 40) ?_ rfl behind (by decide) (by omega) rfl
  refine .beyond (j := 20) 1 (by decide) (c.front _) rfl rfl blank (by omega) rfl ?_
  exact (answers_operand c long).mono (by omega)

theorem answers_declarator (c : Constant)
    (long : (' ' :: (c.declaratorText ++ ';' :: after)).length < size) :
    Answers untyped size (c.attributes.length + 130)
      (.node "variable_declarator" (.seq [.rule .pattern, .nothing,
        .optional (.seq [.token (punctuation "=" ["==", "=>"]), .rule .expression])]))
      (.plain (' ' :: (c.declaratorText ++ ';' :: after)) o st)
      (some (.amid false true (';' :: after) (o + 1 + byteLength c.declaratorText)
        (c.declaratorNode (o + 1) :: st))) := by
  let value := ' ' :: (c.tagText ++ ';' :: after)
  have text : ' ' :: (c.declaratorText ++ ';' :: after) =
      [' '] ++ (c.name ++ ([' '] ++ (['='] ++ value))) := by
    simp [Constant.declaratorText, value]
  have ends : o + 1 + byteLength c.declaratorText =
      o + 1 + byteLength c.name + 1 + 1 + 1 + byteLength c.tagText := by
    simp only [Constant.declaratorText, byteLength_append, byteLength_cons, utf8Size_marks]
    omega
  rw [text] at long ⊢
  rw [ends]
  obtain ⟨blank, long'⟩ : 1 < size ∧ value.length < size := by
    simp only [List.length_append, List.length_cons, List.length_nil] at long ⊢
    omega
  have equals : Fronts untyped [' '] (['='] ++ value) := ⟨List.all_eq_true.mp rfl, rfl, rfl, rfl⟩
  have scanned := variableName_scan c.isWord c.unreserved (c := ' ') (by decide) (['='] ++ value)
  refine .over (leafAt (.category "identifier") (o + 1) c.name) [_, _] rfl ?_
  refine .both (.plain_rule rfl (.left
    (answers_token (c.isWord.front_behind _) blank scanned c.isWord.length_ne_zero))) ?_
  refine .both (answers_nothing _) (.left ?_)
  refine .both (answers_token equals blank rfl (by decide)) ?_
  exact (answers_expression c long').mono (by omega)

theorem answers_constant (c : Constant) {gap : List Char} (lines : gap = [] ∨ gap = ['\n'])
    (long : (gap ++ (c.text ++ after)).length < size) :
    Answers untyped size (c.attributes.length + 160) (.rule .statement)
      (.plain (gap ++ (c.text ++ after)) o st)
      (some (.plain after (o + byteLength gap + byteLength c.text)
        (c.node (o + byteLength gap) :: st))) := by
  let declarator := ' ' :: (c.declaratorText ++ ';' :: after)
  have text : c.text ++ after = constWord ++ declarator := by
    simp [Constant.text, declarator]
  have ends : o + byteLength gap + byteLength c.text =
      o + byteLength gap + 5 + 1 + byteLength c.declaratorText + 1 := by
    simp only [Constant.text, byteLength_append, byteLength_cons, byteLength_nil, utf8Size_marks]
    omega
  rw [text] at long ⊢
  rw [ends]
  obtain ⟨blanks, behind, long'⟩ : gap.length < size ∧ (';' :: after).length < size ∧
      declarator.length < size := by
    simp only [declarator, List.length_append, List.length_cons] at long ⊢
    omega
  have front : Fronts untyped gap (constWord ++ declarator) := by
    refine ⟨?_, rfl, rfl, rfl⟩
    rcases lines with rfl | rfl
    · exact List.all_eq_true.mp rfl
    · exact List.all_eq_true.mp rfl
  have ending : Fronts untyped [] (';' :: after) := ⟨List.all_eq_true.mp rfl, rfl, rfl, rfl⟩
  have declaration : Answers untyped size (c.attributes.length + 147) (.rule .declaration)
      (.plain (gap ++ (constWord ++ declarator)) o st)
      (some (.plain after (o + byteLength gap + 5 + 1 + byteLength c.declaratorText + 1)
        (c.node (o + byteLength gap) :: st))) := by
    apply Answers.plain_rule rfl
    refine .beyond (j := 20) 2 (by decide) front rfl rfl blanks (by omega) rfl (.left ?_)
    refine .over (leafAt (.token "const") (o + byteLength gap) constWord) [_, _] rfl ?_
    refine .both (.beyond (j := 20) 1 (by decide) front rfl rfl blanks (by omega) rfl
      (answers_token front blanks rfl (by decide))) ?_
    refine .both (.single ((answers_declarator c long').mono (by omega)) ?_) ?_
    · exact (answers_refused (j := 20) rfl behind rfl).mono (by omega)
    · exact answers_semicolon ending (by omega) rfl
  apply Answers.plain_rule rfl
  refine .beyond (j := 20) 2 (by decide) front rfl rfl blanks (by omega) rfl ?_
  exact .left (declaration.mono (by omega))

end Restyle.Script
