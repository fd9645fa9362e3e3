import Restyle.Proofs.Sheet.Identifiers
import Restyle.Proofs.Sheet.Loading
/-!
The class of a serialised name in the table of its sheet. Where the mask of the selector is an
identifier to the grammar, or two of which the second may name an element, the sheet is read
without faults and the table knows the class by its name.
-/

namespace Restyle.Sheet

open Syntax
open Text (byteLength byteLength_append byteLength_cons byteLength_nil)

/-- Simple selectors, the head of the grammar's rule of selectors. -/
def simpleSelector : Pattern Rule :=
  match rules .selector with
  | .chain simple _ => simple
  | other => other

/-- What may join other simple selectors to them. -/
def selectorTails : List (String × Pattern Rule) :=
  match rules .selector with
  | .chain _ tails => tails
  | _ => []

def colorBlock : List Char := "\x7b color: red; \x7d".toList

/-- What stands between the selector and the block. -/
def IsGap (gap : List Char) : Prop := gap = [' '] ∨ gap = [' ', ' ']

def classAt (start : Nat) (word : List Char) : Node :=
  .over "class_selector" (leafAt (.token ".") start ['.'])
    [leafAt (.category "class_name") (start + 1) word]

def descendantAt (start : Nat) (word tag : List Char) : Node :=
  .over "descendant_selector" (classAt start word)
    [leafAt (.token " ") (start + 1 + byteLength word) [' '],
      leafAt (.category "tag_name") (start + 1 + byteLength word + 1) tag]

section

variable {size : Nat} {word tag gap after rest : List Char} {o : Nat} {st : List Node}

theorem answers_selector {k o' : Nat} {text : List Char} {n : Node} {c : Cursor}
    (head : Answers grammar size k simpleSelector (.plain text o st) (some c))
    (growth : Grows grammar size k selectorTails st.length c (.plain rest o' (n :: st))) :
    Answers grammar size (k + 2) (.rule .selector) (.plain text o st)
      (some (.plain rest o' (n :: st))) := by
  have chain : Answers grammar size (k + 1) (.chain simpleSelector selectorTails)
      (.plain text o st) (some (.plain rest o' (n :: st))) := Answers.chain head growth
  exact Answers.plain_rule rfl chain

theorem answers_class (id : IsIdentifier word)
    (long : ('.' :: (word ++ ' ' :: after)).length < size) :
    Answers grammar size 28 simpleSelector (.plain ('.' :: (word ++ ' ' :: after)) o st)
      (some (.plain (' ' :: after) (o + 1 + byteLength word) (classAt o word :: st))) := by
  have some_ : 0 < size := Nat.zero_lt_of_lt long
  have behind : (' ' :: after).length < size := by
    simp only [List.length_cons, List.length_append] at long ⊢
    omega
  have dot : Fronts grammar [] (['.'] ++ (word ++ ' ' :: after)) := ⟨by simp, rfl, rfl, rfl⟩
  have taken := id.identifierLength_blank after
  refine Answers.chain (d := .plain (' ' :: after) (o + 1 + byteLength word) (classAt o word :: st))
    ?_ (grows_refused rfl behind (j := 20) (by decide) rfl)
  apply Answers.right (answers_refused rfl long rfl)
  apply Answers.right (answers_refused rfl long rfl)
  apply Answers.right (answers_refused rfl long rfl)
  apply Answers.right (answers_refused rfl long rfl)
  apply Answers.left
  apply Answers.over (leafAt (.token ".") o ['.'])
    [leafAt (.category "class_name") (o + 1) word] rfl
  refine Answers.both (answers_token dot some_ rfl (by decide)) ?_
  exact answers_token (id.front _).1 some_ taken (by simpa using id.ne_nil)

theorem answers_tag (id : IsIdentifier tag) (long : (tag ++ ' ' :: after).length < size) :
    Answers grammar size 28 simpleSelector (.plain (tag ++ ' ' :: after) o st)
      (some (.plain (' ' :: after) (o + byteLength tag)
        (leafAt (.category "tag_name") o tag :: st))) := by
  have some_ : 0 < size := Nat.zero_lt_of_lt long
  have behind : (' ' :: after).length < size := by
    simp only [List.length_append] at long ⊢
    omega
  obtain ⟨front, no_star⟩ := id.front (' ' :: after)
  have taken := id.identifierLength_blank after
  refine Answers.chain (d := .plain (' ' :: after) (o + byteLength tag)
    (leafAt (.category "tag_name") o tag :: st)) ?_
    (grows_refused rfl behind (j := 20) (by decide) rfl)
  apply Answers.right
  · exact Answers.node_none (answers_token_none front rfl rfl some_ no_star)
  · exact Answers.left (answers_token front some_ taken (by simpa using id.ne_nil))

variable (o) (st) in
theorem grows_gap (h : IsGap gap) (long : (gap ++ (colorBlock ++ rest)).length < size)
    (height : Nat) : Grows grammar size 30 selectorTails height
      (.plain (gap ++ (colorBlock ++ rest)) o st) (.plain (gap ++ (colorBlock ++ rest)) o st) := by
  rcases h with rfl | rfl
  · exact grows_refused rfl long (j := 20) (by decide) rfl
  · exact grows_refused rfl long (j := 20) (by decide) rfl

variable (rest) in
theorem IsGap.text_eq (h : IsGap gap) : ∃ more, gap ++ (colorBlock ++ rest) = ' ' :: more := by
  rcases h with rfl | rfl <;> exact ⟨_, rfl⟩

theorem answers_classSelector (id : IsIdentifier word) (h : IsGap gap)
    (long : ('.' :: word ++ (gap ++ (colorBlock ++ rest))).length < size) :
    Answers grammar size 40 (.rule .selector)
      (.plain ('.' :: word ++ (gap ++ (colorBlock ++ rest))) 0 [])
      (some (.plain (gap ++ (colorBlock ++ rest)) (byteLength ('.' :: word))
        [classAt 0 word])) := by
  have bytes : byteLength ('.' :: word) = 0 + 1 + byteLength word := by
    rw [byteLength_cons, (by decide : '.'.utf8Size = 1), Nat.zero_add]
  have behind : (gap ++ (colorBlock ++ rest)).length < size := by
    rw [List.length_append] at long
    omega
  have growth := grows_gap (0 + 1 + byteLength word) [classAt 0 word] h behind 0
  obtain ⟨more, text⟩ := h.text_eq rest
  rw [bytes]
  rw [text] at long growth ⊢
  exact (answers_selector ((answers_class id long).mono (by decide)) growth).mono (by decide)

/-- A word stands as the descendant of what is before it where it begins as an element may. -/
theorem descent_scan (id : IsIdentifier tag)
    (element : tag.head?.any (fun c => c.isAlpha || c == '-') = true) (after : List Char) :
    descent.scan (' ' :: (tag ++ after)) = 1 := by
  obtain ⟨c, cs, rfl⟩ := List.exists_cons_of_ne_nil id.ne_nil
  have mark : isBlank c = false :=
    isBlank_of_isIdentChar (isIdentChar_of_isIdentifierPart (id.parts c List.mem_cons_self))
  have stands : ("#.[-*".toList.contains c || c.isAlphanum) = true := by
    simp only [List.head?_cons, Option.any_some, Bool.or_eq_true, beq_iff_eq] at element
    rcases element with alpha | rfl
    · simp [Char.isAlphanum, alpha]
    · decide
  have blank : isBlank ' ' = true := by decide
  simp only [descent, List.cons_append, List.takeWhile_cons, blank, mark, if_true,
    Bool.false_eq_true, if_false, List.length_singleton, List.drop_succ_cons, List.drop_zero,
    stands]

variable (word) (o) (st) in
/-- A class and a word behind it grow together. -/
theorem answersTail_descendant (id : IsIdentifier tag)
    (element : tag.head?.any (fun c => c.isAlpha || c == '-') = true)
    (long : (tag ++ ' ' :: after).length < size) :
    AnswersTail grammar size 30 selectorTails st.length
      (.plain (' ' :: (tag ++ ' ' :: after)) (o + 1 + byteLength word) (classAt o word :: st))
      (some (.plain (' ' :: after) (o + 1 + byteLength word + 1 + byteLength tag)
        (descendantAt o word tag :: st))) := by
  have blank : descent.scan ([' '] ++ (tag ++ ' ' :: after)) = 1 := descent_scan id element _
  have descends : Answers grammar size 29 (.both (.attached descent) simpleSelector)
      (.plain (' ' :: (tag ++ ' ' :: after)) (o + 1 + byteLength word) (classAt o word :: st))
      (some (.plain (' ' :: after) (o + 1 + byteLength word + 1 + byteLength tag)
        (leafAt (.category "tag_name") (o + 1 + byteLength word + 1) tag ::
          leafAt (.token " ") (o + 1 + byteLength word) [' '] :: classAt o word :: st))) :=
    Answers.both (answers_attached blank (by decide)) (answers_tag id long)
  exact AnswersTail.over (classAt o word)
    [leafAt (.token " ") (o + 1 + byteLength word) [' '],
      leafAt (.category "tag_name") (o + 1 + byteLength word + 1) tag] rfl descends

end

/-- The grammar takes a text for a selector before the block. -/
def IsSelector (text gap : List Char) : Prop :=
  ∃ n : Node, Cursor.isExtra n = false ∧ n.span = ⟨0, byteLength text⟩ ∧
    ∀ {size : Nat}, (text ++ (gap ++ colorBlock)).length < size →
      Answers grammar size 40 (.rule .selector) (.plain (text ++ (gap ++ colorBlock)) 0 [])
        (some (.plain (gap ++ colorBlock) (byteLength text) [n]))

theorem isSelector_class {word gap : List Char} (id : IsIdentifier word) (h : IsGap gap) :
    IsSelector ('.' :: word) gap := by
  refine ⟨classAt 0 word, rfl, ?_, ?_⟩
  · rw [byteLength_cons, (by decide : '.'.utf8Size = 1), ← Nat.zero_add 1]
    rfl
  · intro size long
    rw [← List.append_nil colorBlock] at long ⊢
    exact answers_classSelector id h long

theorem isSelector_descendant {word tag gap : List Char} (id : IsIdentifier word)
    (id' : IsIdentifier tag) (element : tag.head?.any (fun c => c.isAlpha || c == '-') = true)
    (h : IsGap gap) : IsSelector ('.' :: (word ++ ' ' :: tag)) gap := by
  have bytes : byteLength ('.' :: (word ++ ' ' :: tag)) =
      0 + 1 + byteLength word + 1 + byteLength tag := by
    have one : '.'.utf8Size = 1 ∧ ' '.utf8Size = 1 := by decide
    simp only [byteLength_cons, byteLength_append, one]
    omega
  refine ⟨descendantAt 0 word tag, rfl, by rw [bytes]; rfl, ?_⟩
  intro size long
  have parts : '.' :: (word ++ ' ' :: tag) ++ (gap ++ colorBlock) =
      '.' :: (word ++ ' ' :: (tag ++ (gap ++ colorBlock))) := by
    simp only [List.cons_append, List.append_assoc]
  rw [parts] at long ⊢
  have behind_class : (tag ++ (gap ++ colorBlock)).length < size := by
    simp only [List.length_cons, List.length_append] at long ⊢
    omega
  have behind : (gap ++ colorBlock).length < size := by
    rw [List.length_append] at behind_class
    omega
  rw [← List.append_nil colorBlock] at long behind_class behind ⊢
  have growth := grows_gap (0 + 1 + byteLength word + 1 + byteLength tag)
    [descendantAt 0 word tag] h behind 0
  obtain ⟨more, text⟩ := h.text_eq []
  rw [bytes]
  rw [text] at long behind_class growth ⊢
  have tail := answersTail_descendant word 0 [] id' element behind_class
  exact (answers_selector ((answers_class id long).mono (by decide)) (Grows.step tail growth)).mono
    (by decide)

/-- The node of the declaration in a block that begins at an offset. -/
def declarationAt (start : Nat) : Node :=
  .over "declaration" (leafAt (.category "property_name") (start + 2) "color".toList)
    [leafAt (.token ":") (start + 7) [':'],
      leafAt (.category "plain_value") (start + 9) "red".toList,
      leafAt (.token ";") (start + 12) [';']]

def blockAt (start : Nat) : Node :=
  .over "block" (leafAt (.token "\x7b") start ['\x7b'])
    [declarationAt start, leafAt (.token "\x7d") (start + 14) ['\x7d']]

section

variable {size : Nat} {gap rest : List Char} {o : Nat} {st : List Node}

theorem length_lt_of_le {block word : List Char} (long : (block ++ rest).length < size)
    (le : word.length ≤ block.length) : (word ++ rest).length < size := by
  rw [List.length_append] at long ⊢
  omega

theorem size_of_long (long : (colorBlock ++ rest).length < size) : 15 < size := by
  have length : colorBlock.length = 15 := by decide
  rw [List.length_append, length] at long
  omega

theorem answers_value (long : (colorBlock ++ rest).length < size) :
    Answers grammar size 20 (.rule .value) (.plain (" red; \x7d".toList ++ rest) o st)
      (some (.plain ("; \x7d".toList ++ rest) (o + 4)
        (leafAt (.category "plain_value") (o + 1) "red".toList :: st))) := by
  have front : Fronts grammar [' '] ("red".toList ++ ("; \x7d".toList ++ rest)) :=
    ⟨List.all_eq_true.mp rfl, rfl, rfl, rfl⟩
  have blank : [' '].length < size := Nat.lt_trans (by decide) (size_of_long long)
  have here : (" red; \x7d".toList ++ rest).length < size := length_lt_of_le long (by decide)
  have behind : ("; \x7d".toList ++ rest).length < size := length_lt_of_le long (by decide)
  apply Answers.plain_rule rfl
  refine Answers.chain (d := .plain ("; \x7d".toList ++ rest) (o + 4)
    (leafAt (.category "plain_value") (o + 1) "red".toList :: st)) ?_
    (grows_refused rfl behind (j := 10) (by decide) rfl)
  -- The word is no function, since no arguments follow it, and neither a color nor a number.
  apply Answers.right
  · apply Answers.node_none
    exact Answers.both (answers_token front blank rfl (by decide)) (answers_refused rfl behind rfl)
  apply Answers.right (answers_refused rfl here rfl)
  apply Answers.right (answers_refused rfl here rfl)
  exact Answers.left (answers_token front blank rfl (by decide))

theorem answers_declaration (long : (colorBlock ++ rest).length < size) :
    Answers grammar size 40 (.rule .item) (.plain (" color: red; \x7d".toList ++ rest) (o + 1) st)
      (some (.plain (" \x7d".toList ++ rest) (o + 13) (declarationAt o :: st))) := by
  have nothing : ([] : List Char).length < size := Nat.zero_lt_of_lt long
  have blank : [' '].length < size := Nat.lt_trans (by decide) (size_of_long long)
  have behind : ("; \x7d".toList ++ rest).length < size := length_lt_of_le long (by decide)
  have property : Fronts grammar [' '] ("color".toList ++ (": red; \x7d".toList ++ rest)) :=
    ⟨List.all_eq_true.mp rfl, rfl, rfl, rfl⟩
  have colon : Fronts grammar [] ([':'] ++ (" red; \x7d".toList ++ rest)) :=
    ⟨List.all_eq_true.mp rfl, rfl, rfl, rfl⟩
  have semicolon : Fronts grammar [] ([';'] ++ (" \x7d".toList ++ rest)) :=
    ⟨List.all_eq_true.mp rfl, rfl, rfl, rfl⟩
  apply Answers.plain_rule rfl
  apply Answers.left
  apply Answers.over (leafAt (.category "property_name") (o + 2) "color".toList)
    [leafAt (.token ":") (o + 7) [':'], leafAt (.category "plain_value") (o + 9) "red".toList,
      leafAt (.token ";") (o + 12) [';']] rfl
  refine Answers.both (d := .plain ("; \x7d".toList ++ rest) (o + 12)
    (leafAt (.category "plain_value") (o + 9) "red".toList :: leafAt (.token ":") (o + 7) [':'] ::
      leafAt (.category "property_name") (o + 2) "color".toList :: st)) ?_
    (answers_token semicolon nothing rfl (by decide))
  refine Answers.both (answers_token property blank rfl (by decide)) ?_
  refine Answers.both (answers_token colon nothing rfl (by decide)) ?_
  refine Answers.both ((answers_value long).mono (by decide)) ?_
  -- No second value follows, neither behind a comma nor without one.
  apply Answers.done
  refine Answers.both (Answers.right (answers_refused rfl behind rfl) (answers_nothing _)) ?_
  exact answers_refused rfl behind rfl

theorem answers_block (h : IsGap gap) (long : (colorBlock ++ rest).length < size) :
    Answers grammar size 50 (.rule .block) (.plain (gap ++ (colorBlock ++ rest)) o st)
      (some (.plain rest (o + byteLength gap + 15) (blockAt (o + byteLength gap) :: st))) := by
  have short : gap.length < size := by
    rcases h with rfl | rfl <;> exact Nat.lt_trans (by decide) (size_of_long long)
  have blank : [' '].length < size := Nat.lt_trans (by decide) (size_of_long long)
  have behind : (" \x7d".toList ++ rest).length < size := length_lt_of_le long (by decide)
  have opening : Fronts grammar gap (['\x7b'] ++ (" color: red; \x7d".toList ++ rest)) := by
    rcases h with rfl | rfl <;> exact ⟨List.all_eq_true.mp rfl, rfl, rfl, rfl⟩
  have closing : Fronts grammar [' '] (['\x7d'] ++ rest) := ⟨List.all_eq_true.mp rfl, rfl, rfl, rfl⟩
  have parts : colorBlock ++ rest = ['\x7b'] ++ (" color: red; \x7d".toList ++ rest) := rfl
  rw [parts]
  apply Answers.plain_rule rfl
  apply Answers.over (leafAt (.token "\x7b") (o + byteLength gap) ['\x7b'])
    [declarationAt (o + byteLength gap),
      leafAt (.token "\x7d") (o + byteLength gap + 14) ['\x7d']] rfl
  refine Answers.both (answers_token opening short rfl (by decide)) ?_
  refine Answers.both (d := .plain (" \x7d".toList ++ rest) (o + byteLength gap + 13)
    (declarationAt (o + byteLength gap) ::
      leafAt (.token "\x7b") (o + byteLength gap) ['\x7b'] :: st)) ?_ ?_
  · apply Answers.more ((answers_declaration long).mono (by decide)) (by simp [Cursor.amid])
    exact Answers.done (answers_refused rfl behind rfl)
  · refine Answers.both (Answers.right (answers_refused rfl behind rfl) (answers_nothing _)) ?_
    exact answers_token closing blank rfl (by decide)

end

def ruleSetOf (selector : Node) (block : Nat) : Node :=
  .over "rule_set" (.over "selectors" selector []) [blockAt block]

/-- A selector and the block are taken for a rule set, whatever follows. -/
theorem answers_ruleSet {text gap rest : List Char} {n : Node} {size : Nat} (h : IsGap gap)
    (own : Cursor.isExtra n = false)
    (long : ('.' :: text ++ (gap ++ (colorBlock ++ rest))).length < size)
    (taken : Answers grammar size 40 (.rule .selector)
      (.plain ('.' :: text ++ (gap ++ (colorBlock ++ rest))) 0 [])
      (some (.plain (gap ++ (colorBlock ++ rest)) (byteLength ('.' :: text)) [n]))) :
    Answers grammar size 60 (.rule .item)
      (.plain ('.' :: text ++ (gap ++ (colorBlock ++ rest))) 0 [])
      (some (.plain rest (byteLength ('.' :: text) + byteLength gap + 15)
        [ruleSetOf n (byteLength ('.' :: text) + byteLength gap)])) := by
  have behind : (gap ++ (colorBlock ++ rest)).length < size := by
    rw [List.length_append] at long
    omega
  have block : (colorBlock ++ rest).length < size := by
    rw [List.length_append] at behind
    omega
  apply Answers.plain_rule rfl
  apply Answers.right (answers_refused rfl long rfl)
  apply Answers.left
  apply Answers.over (.over "selectors" n [])
    [blockAt (byteLength ('.' :: text) + byteLength gap)] rfl
  refine Answers.both (d := .plain (gap ++ (colorBlock ++ rest)) (byteLength ('.' :: text))
    [.over "selectors" n []]) ?_ ((answers_block h block).mono (by decide))
  apply Answers.plain_rule rfl
  apply Answers.over n [] own
  refine Answers.both (taken.mono (by decide)) ?_
  apply Answers.done
  rcases h with rfl | rfl <;> exact answers_refused rfl behind rfl

theorem answers_sheet {text gap : List Char} {n : Node} {size : Nat} (h : IsGap gap)
    (own : Cursor.isExtra n = false) (long : ('.' :: text ++ (gap ++ colorBlock)).length < size)
    (taken : Answers grammar size 40 (.rule .selector)
      (.plain ('.' :: text ++ (gap ++ colorBlock)) 0 [])
      (some (.plain (gap ++ colorBlock) (byteLength ('.' :: text)) [n]))) :
    Answers grammar size 70 (.rule .sheet) (.plain ('.' :: text ++ (gap ++ colorBlock)) 0 [])
      (some (.plain [] (byteLength ('.' :: text) + byteLength gap + 15)
        [ruleSetOf n (byteLength ('.' :: text) + byteLength gap)])) := by
  have some_ := Nat.zero_lt_of_lt long
  rw [← List.append_nil colorBlock] at long taken ⊢
  have ruleSet := answers_ruleSet h own long taken
  apply Answers.plain_rule rfl
  refine Answers.more (ruleSet.mono (by decide)) (by simp [Cursor.amid]) ?_
  exact Answers.done (answers_refused rfl some_ rfl)

theorem parse_sheet {text gap : List Char} (h : IsGap gap)
    (selector : IsSelector ('.' :: text) gap) :
    ∃ n : Node, n.span = ⟨0, byteLength ('.' :: text)⟩ ∧
      (parse ('.' :: text ++ (gap ++ colorBlock))).children =
        [ruleSetOf n (byteLength ('.' :: text) + byteLength gap)] := by
  obtain ⟨n, own, span, taken⟩ := selector
  refine ⟨n, span, ?_⟩
  have long := Nat.lt_succ_self ('.' :: text ++ (gap ++ colorBlock)).length
  have tree := parse_of_answers (by omega) (answers_sheet h own long (taken long))
  rw [parse, tree]
  rfl

theorem declarationOf?_declarationAt (before : List Char) :
    declarationOf? (before ++ colorBlock) (declarationAt (byteLength before)) =
      some ("color", "red") := by
  have property : Text.slice ⟨byteLength before + 2, byteLength before + 7⟩ (before ++ colorBlock) =
      "color".toList := by
    have parts : before ++ colorBlock =
        (before ++ "\x7b ".toList) ++ ("color".toList ++ ": red; \x7d".toList) := by
      rw [List.append_assoc]
      rfl
    exact Text.slice_eq parts (by rw [byteLength_append]; rfl) (by rw [byteLength_append]; rfl)
  have value : Text.slice ⟨byteLength before + 8, byteLength before + 13⟩ (before ++ colorBlock) =
      " red;".toList := by
    have parts : before ++ colorBlock =
        (before ++ "\x7b color:".toList) ++ (" red;".toList ++ " \x7d".toList) := by
      rw [List.append_assoc]
      rfl
    exact Text.slice_eq parts (by rw [byteLength_append]; rfl) (by rw [byteLength_append]; rfl)
  have read : declarationValue " red;".toList = "red".toList := by decide
  rw [declarationOf?_eq (n := declarationAt (byteLength before)) rfl rfl rfl]
  refine congrArg some (Prod.ext ?_ ?_)
  · exact (congrArg String.ofList property).trans String.ofList_toList
  · refine (congrArg (fun text => String.ofList (declarationValue text)) value).trans ?_
    exact (congrArg String.ofList read).trans String.ofList_toList

/-- A sheet whose selector stands for a class, and whose mask the grammar takes, has the table of
that class. -/
theorem ofCss_selector {text masked gap name : List Char} (stands : StandsFor ('.' :: text) name)
    (h : IsGap gap) (selector : IsSelector ('.' :: masked) gap)
    (masks : mask (text ++ (gap ++ colorBlock)) = masked ++ (gap ++ colorBlock))
    (bytes : byteLength masked = byteLength text) :
    StyleTable.ofCss (String.ofList ('.' :: text ++ (gap ++ colorBlock))) =
      ⟨[(String.ofList name, [⟨.free, [("color", "red")]⟩])], 0⟩ := by
  obtain ⟨n, span, tree⟩ := parse_sheet h selector
  have same : byteLength ('.' :: masked) = byteLength ('.' :: text) := by
    rw [byteLength_cons, byteLength_cons, bytes]
  rw [same] at span tree
  have listed : Text.slice (Node.over "selectors" n []).span
      ('.' :: text ++ (gap ++ colorBlock)) = '.' :: text := by
    have covers : (Node.over "selectors" n []).span = ⟨0, byteLength ('.' :: text)⟩ := by
      rw [← span]
      rfl
    rw [covers]
    exact Text.slice_zero_append _ _
  have declared : declarationsOf ('.' :: text ++ (gap ++ colorBlock))
      (blockAt (byteLength ('.' :: text) + byteLength gap)) = [("color", "red")] := by
    have read := declarationOf?_declarationAt ('.' :: text ++ gap)
    rw [byteLength_append, List.append_assoc] at read
    exact List.filterMap_cons_some read
  have whole : mask ('.' :: text ++ (gap ++ colorBlock)) = '.' :: masked ++ (gap ++ colorBlock) :=
    congrArg ('.' :: ·) masks
  rw [StyleTable.ofCss, String.toList_ofList, whole, tree]
  have recorded : recordRuleSet ('.' :: text ++ (gap ++ colorBlock)) [] .empty
      (ruleSetOf n (byteLength ('.' :: text) + byteLength gap)) =
      recordSelectors [] [("color", "red")] .empty ['.' :: text] := by
    have selectors : (ruleSetOf n (byteLength ('.' :: text) + byteLength gap)).childOf? "selectors"
        = some (.over "selectors" n []) := rfl
    have block : (ruleSetOf n (byteLength ('.' :: text) + byteLength gap)).childOf? "block"
        = some (blockAt (byteLength ('.' :: text) + byteLength gap)) := rfl
    rw [recordRuleSet, selectors, block]
    simp only [declared, listed, stands.alone]
    rfl
  refine recorded.trans ?_
  rw [recordSelectors, List.foldl_cons, List.foldl_nil, stands.read]
  rfl

theorem mask_gap {gap : List Char} (h : IsGap gap) :
    mask (gap ++ colorBlock) = gap ++ colorBlock := by
  rcases h with rfl | rfl <;> decide

theorem mask_digit {sign : List Char} (h : IsSign sign) {d : Char} (digit : d.isDigit = true)
    (rest : List Char) :
    mask (sign ++ ['\\', '3', d] ++ rest) = sign ++ ['_', '3', d] ++ mask rest := by
  have number : mask ('\\' :: '3' :: d :: rest) = '_' :: maskEscaped '3' :: mask (d :: rest) := rfl
  have three : maskEscaped '3' = '3' := by decide
  rw [List.append_assoc, mask_idents h.isIdentChar, List.append_assoc]
  rw [three, mask_ident (isIdentChar_of_isDigit digit)] at number
  exact congrArg (sign ++ ·) number

/-- What follows the digit with which a name begins. -/
def behindDigit : List Char → List Char
  | '-' :: c :: cs => if c.isDigit then cs else []
  | c :: cs => if c.isDigit then cs else []
  | [] => []

/-- Whether a text begins as the name of an element does to the grammar. -/
def beginsElement (text : List Char) : Bool :=
  beginsWord text && text.head?.any fun c => c.isAlpha || c == '-'

theorem behindDigit_append {sign : List Char} (h : IsSign sign) {d : Char}
    (digit : d.isDigit = true) (rest : List Char) : behindDigit (sign ++ d :: rest) = rest := by
  have no_hyphen : d ≠ '-' := by
    rintro rfl
    cases digit
  rcases h with rfl | rfl
  · rw [List.nil_append, behindDigit.eq_2 d rest fun _ _ same => absurd same no_hyphen,
      if_pos digit]
  · rw [List.singleton_append, behindDigit, if_pos digit]

theorem head?_shade {text : List Char} (element : beginsElement text = true) :
    (text.flatMap shade).head?.any (fun c => c.isAlpha || c == '-') = true := by
  rw [beginsElement, Bool.and_eq_true] at element
  cases text with
  | nil => exact absurd element.1 (by decide)
  | cons c cs =>
      have letter : (c.isAlpha || c == '-') = true := element.2
      have ident : isIdentChar c = true := by
        rw [Bool.or_eq_true, beq_iff_eq] at letter
        rcases letter with alpha | rfl
        · simp [isIdentChar, Char.isAlphanum, alpha]
        · decide
      rw [List.flatMap_cons, shade, if_pos ident]
      exact letter

/-- The sheet of one rule set for the class of a name. -/
def sheetOf (name : String) : String :=
  "." ++ String.ofList (serialize name.toList) ++ " \x7b color: red; \x7d"

theorem sheetOf_eq {name : String} {text gap : List Char}
    (written : serialize name.toList ++ [' '] = text ++ gap) :
    sheetOf name = String.ofList ('.' :: text ++ (gap ++ colorBlock)) := by
  have parts : '.' :: text ++ (gap ++ colorBlock) =
      ['.'] ++ serialize name.toList ++ ' ' :: colorBlock := by
    calc '.' :: text ++ (gap ++ colorBlock)
        = '.' :: ((text ++ gap) ++ colorBlock) := by
          rw [List.cons_append, List.append_assoc]
      _ = ['.'] ++ serialize name.toList ++ ' ' :: colorBlock := by
          rw [← written]
          simp only [List.append_assoc, List.cons_append, List.nil_append]
  rw [parts, String.ofList_append, String.ofList_append]
  rfl

theorem ofCss_written {name : String} {text masked gap : List Char}
    (written : serialize name.toList ++ [' '] = text ++ gap)
    (stands : StandsFor ('.' :: text) name.toList) (h : IsGap gap)
    (selector : IsSelector ('.' :: masked) gap)
    (masks : mask (text ++ (gap ++ colorBlock)) = masked ++ (gap ++ colorBlock))
    (bytes : byteLength masked = byteLength text) :
    StyleTable.ofCss (sheetOf name) = ⟨[(name, [⟨.free, [("color", "red")]⟩])], 0⟩ := by
  have table := ofCss_selector stands h selector masks bytes
  rwa [← sheetOf_eq written, String.ofList_toList] at table

/-- A hyphen alone is escaped. -/
theorem ofCss_hyphen :
    StyleTable.ofCss (sheetOf "-") = ⟨[("-", [⟨.free, [("color", "red")]⟩])], 0⟩ := by
  have stands : StandsFor ['.', '\\', '-'] "-".toList := ⟨by decide, by decide⟩
  have id : IsIdentifier ['_', '-'] := ⟨rfl, List.all_eq_true.mp rfl⟩
  have selector := isSelector_class id (.inl rfl)
  exact ofCss_written (by decide) stands (.inl rfl) selector (by decide) (by decide)

theorem ofCss_word {name : String} (visible : Visible name.toList) (latin : IsLatin name.toList)
    (word : beginsWord name.toList = true) :
    StyleTable.ofCss (sheetOf name) = ⟨[(name, [⟨.free, [("color", "red")]⟩])], 0⟩ := by
  have some_char : name.toList ≠ [] := by
    intro empty
    rw [empty] at word
    cases word
  have id := isIdentifier_shade latin word
  refine ofCss_written (congrArg (· ++ [' ']) (serialize_word visible word))
    (standsFor_word some_char visible) (.inl rfl) (isSelector_class id (.inl rfl)) ?_
    (byteLength_shade _)
  rw [mask_escape, mask_gap (.inl rfl)]

section

variable {name : String} {sign : List Char} {d : Char}

/-- The space that ends the number of a lone digit belongs to the gap. -/
theorem ofCss_digit (h : IsSign sign) (digit : d.isDigit = true)
    (text : name.toList = sign ++ [d]) :
    StyleTable.ofCss (sheetOf name) = ⟨[(name, [⟨.free, [("color", "red")]⟩])], 0⟩ := by
  have none_ : Visible [] := fun _ member => absurd member List.not_mem_nil
  have written : serialize name.toList ++ [' '] = (sign ++ ['\\', '3', d]) ++ [' ', ' '] := by
    rw [text, serialize_digit h digit none_]
    simp
  have stands : StandsFor ('.' :: (sign ++ ['\\', '3', d])) name.toList := by
    rw [text]
    exact standsFor_digit h digit
  have masks : mask (sign ++ ['\\', '3', d] ++ ([' ', ' '] ++ colorBlock)) =
      sign ++ ['_', '3', d] ++ ([' ', ' '] ++ colorBlock) := by
    rw [mask_digit h digit, mask_gap (.inr rfl)]
  have bytes : byteLength (sign ++ ['_', '3', d]) = byteLength (sign ++ ['\\', '3', d]) := by
    rw [byteLength_append, byteLength_append]
    rfl
  have selector := isSelector_class (isIdentifier_digit h digit) (.inr rfl)
  exact ofCss_written written stands (.inr rfl) selector masks bytes

/-- The mask leaves the space that ends the number of a digit, and the grammar has an element
behind it. -/
theorem ofCss_digit_append (h : IsSign sign) (digit : d.isDigit = true) {rest : List Char}
    (text : name.toList = sign ++ d :: rest) (visible : Visible rest) (latin : IsLatin rest)
    (element : beginsElement rest = true) :
    StyleTable.ofCss (sheetOf name) = ⟨[(name, [⟨.free, [("color", "red")]⟩])], 0⟩ := by
  have begins := element
  rw [beginsElement, Bool.and_eq_true] at begins
  have some_char : rest ≠ [] := by
    rintro rfl
    cases begins.1
  have written : serialize name.toList ++ [' '] =
      (sign ++ '\\' :: '3' :: d :: ' ' :: rest.flatMap ClassName.escape) ++ [' '] := by
    rw [text, serialize_digit h digit visible]
  have stands : StandsFor
      ('.' :: (sign ++ '\\' :: '3' :: d :: ' ' :: rest.flatMap ClassName.escape))
      name.toList := by
    rw [text]
    exact standsFor_digit_append h digit some_char visible
  have masks : mask (sign ++ '\\' :: '3' :: d :: ' ' :: rest.flatMap ClassName.escape ++
      ([' '] ++ colorBlock)) =
      sign ++ ['_', '3', d] ++ ' ' :: rest.flatMap shade ++ ([' '] ++ colorBlock) := by
    have parts : sign ++ '\\' :: '3' :: d :: ' ' :: rest.flatMap ClassName.escape ++
        ([' '] ++ colorBlock) = sign ++ ['\\', '3', d] ++
          ' ' :: (rest.flatMap ClassName.escape ++ ([' '] ++ colorBlock)) := by simp
    have space : mask (' ' :: (rest.flatMap ClassName.escape ++ ([' '] ++ colorBlock))) =
        ' ' :: mask (rest.flatMap ClassName.escape ++ ([' '] ++ colorBlock)) := rfl
    rw [parts, mask_digit h digit, space, mask_escape, mask_gap (.inl rfl)]
    simp
  have bytes : byteLength (sign ++ ['_', '3', d] ++ ' ' :: rest.flatMap shade) =
      byteLength (sign ++ '\\' :: '3' :: d :: ' ' :: rest.flatMap ClassName.escape) := by
    have digits : '_'.utf8Size = 1 ∧ '\\'.utf8Size = 1 := by decide
    simp only [byteLength_append, byteLength_cons, byteLength_nil, byteLength_shade, digits]
    omega
  have selector := isSelector_descendant (isIdentifier_digit h digit)
    (isIdentifier_shade latin begins.1) (head?_shade element) (.inl rfl)
  exact ofCss_written written stands (.inl rfl) selector masks bytes

end

/-- The sheet of a name has the table of its class, as long as the name is one of Latin-1 and
nothing but the name of an element follows a digit in front. -/
theorem ofCss_sheetOf {name : String} (some_char : name ≠ "") (visible : Visible name.toList)
    (latin : IsLatin name.toList)
    (behind : behindDigit name.toList = [] ∨ beginsElement (behindDigit name.toList) = true) :
    StyleTable.ofCss (sheetOf name) = ⟨[(name, [⟨.free, [("color", "red")]⟩])], 0⟩ := by
  have some_char' : name.toList ≠ [] := by
    intro empty
    exact some_char (by simpa using empty)
  rcases name_cases some_char' with hyphen | word | ⟨sign, d, rest, h, digit, text⟩
  · have same : name = "-" := by
      rw [← String.ofList_toList (s := name), hyphen]
    rw [same]
    exact ofCss_hyphen
  · exact ofCss_word visible latin word
  · rw [text, behindDigit_append h digit] at behind
    rcases behind with rfl | element
    · exact ofCss_digit h digit text
    · have later : ∀ c ∈ rest, c ∈ name.toList := fun c hc => by simp [text, hc]
      exact ofCss_digit_append h digit text (fun c hc => visible c (later c hc))
        (fun c hc => latin c (later c hc)) element

/-- The class of a serialised name is found by the name, with the one declaration of its sheet. -/
theorem StyleTable.lookup_sheetOf {name : String} (some_char : name ≠ "")
    (visible : Visible name.toList) (latin : IsLatin name.toList)
    (behind : behindDigit name.toList = [] ∨ beginsElement (behindDigit name.toList) = true) :
    (StyleTable.ofCss (sheetOf name)).lookup name = [⟨.free, [("color", "red")]⟩] := by
  rw [ofCss_sheetOf some_char visible latin behind]
  simp [lookup]

theorem StyleTable.lookup_sheetOf_breakpoint :
    ("2xl:p-1.5" ≠ "" ∧ Visible "2xl:p-1.5".toList ∧ IsLatin "2xl:p-1.5".toList ∧
      beginsElement (behindDigit "2xl:p-1.5".toList) = true) ∧
    (StyleTable.ofCss (sheetOf "2xl:p-1.5")).lookup "2xl:p-1.5" = [⟨.free, [("color", "red")]⟩] :=
  have element : beginsElement (behindDigit "2xl:p-1.5".toList) = true := by decide
  ⟨⟨by decide, by decide, by decide, element⟩,
    lookup_sheetOf (by decide) (by decide) (by decide) (.inr element)⟩

/-- The grammar has no place for a digit behind the space that ends a number, nor for a symbol
beyond Latin-1: the class is not found. -/
theorem StyleTable.lookup_sheetOf_lost :
    ("10" ≠ "" ∧ Visible "10".toList ∧ (StyleTable.ofCss (sheetOf "10")).lookup "10" = []) ∧
    ("→" ≠ "" ∧ Visible "→".toList ∧ (StyleTable.ofCss (sheetOf "→")).lookup "→" = []) := by
  refine ⟨⟨by decide, by decide, ?_⟩, by decide, by decide, ?_⟩
  · decide +kernel
  · decide +kernel

end Restyle.Sheet
