import Restyle.Proofs.Sheet.Selectors
import Restyle.Proofs.Text.Cut
/-!
Loading a sheet from its text. Given a tree that shows the parts of the sheet at their places, the
table that is loaded is the one that the sheet stands for, as long as no bracket stands in quotes.
-/

namespace Restyle.Sheet

open Syntax (Node)

namespace StyleTable

theorem insertAll_with (t : StyleTable) (entries : List (String × Entry)) (n : Nat) :
    insertAll { t with skipped := n } entries = { t.insertAll entries with skipped := n } := by
  induction entries generalizing t with
  | nil => rfl
  | cons e entries ih => exact ih (t.insert e.1 e.2)

theorem recording_recording (t : StyleTable) (first more : List (String × Entry)) (m n : Nat) :
    (t.recording first m).recording more n = t.recording (first ++ more) (m + n) := by
  have appended : (t.insertAll first).insertAll more = t.insertAll (first ++ more) :=
    List.foldl_append.symm
  rw [recording, recording, insertAll_with, appended, Nat.add_assoc, recording]

end StyleTable

theorem recordSelectors_eq (atRules : List String) (declarations : List (String × String))
    (selectors : List Selector) (t : StyleTable) :
    recordSelectors atRules declarations t ((selectors.map Selector.text).map Text.trim)
      = t.recording
          ((selectors.filterMap Selector.class?).map fun c =>
            (c.class_, .ofPairs ⟨atRules, c.pseudo⟩ declarations))
          (selectors.countP (·.class?.isNone)) := by
  induction selectors generalizing t with
  | nil => rfl
  | cons s selectors ih =>
      have read := s.parse_trim.2
      cases found : s.class? with
      | none =>
          have step : recordSelectors atRules declarations t
                (((s :: selectors).map Selector.text).map Text.trim)
              = recordSelectors atRules declarations (t.recording [] 1)
                  ((selectors.map Selector.text).map Text.trim) := by
            rw [recordSelectors, List.map_cons, List.map_cons, List.foldl_cons, read, found]
            rfl
          rw [step, ih, StyleTable.recording_recording, List.nil_append,
            List.filterMap_cons_none found, List.countP_cons_of_pos (by rw [found]; rfl),
            Nat.add_comm]
      | some c =>
          have step : recordSelectors atRules declarations t
                (((s :: selectors).map Selector.text).map Text.trim)
              = recordSelectors atRules declarations
                  (t.recording [(c.class_, .ofPairs ⟨atRules, c.pseudo⟩ declarations)] 0)
                  ((selectors.map Selector.text).map Text.trim) := by
            rw [recordSelectors, List.map_cons, List.map_cons, List.foldl_cons, read, found]
            rfl
          rw [step, ih, StyleTable.recording_recording, Nat.zero_add,
            List.filterMap_cons_some found, List.countP_cons_of_neg (by rw [found]; simp)]
          rfl

theorem Declaration.value_read (d : Declaration) :
    declarationValue (' ' :: (d.value ++ [';'])) = d.value := by
  have bounded := d.value_bounded
  rw [Bool.and_eq_true_iff] at bounded
  obtain ⟨front, back⟩ := bounded
  have not_empty : d.value ≠ [] := by
    intro empty
    rw [empty] at front
    cases front
  obtain ⟨before, c, split⟩ := (List.eq_nil_or_concat d.value).resolve_left not_empty
  rw [List.concat_eq_append] at split
  have ends : Text.isBlank c = false ∧ (c == ';') = false := by
    simpa [split] using back
  have marked : ((d.value ++ [';']).head?.any (!Text.isBlank ·)) = true := by
    rw [List.head?_append, Option.or_of_isSome (by simpa using not_empty)]
    exact front
  have trimmed : Text.trim (' ' :: (d.value ++ [';'])) = d.value ++ [';'] := by
    rw [Text.trim_blank_cons (by decide)]
    apply Text.trim_eq_self marked
    simp [Text.isBlank]
  have semicolon : Text.dropWhileEnd (· == ';') (d.value ++ [';']) = d.value := by
    rw [Text.dropWhileEnd_concat_of (by decide), split]
    exact Text.dropWhileEnd_concat (p := (· == ';')) ends.2 before
  rw [declarationValue, trimmed, semicolon, split]
  exact Text.dropWhileEnd_concat ends.1 before

theorem declarationOf?_eq {css : List Char} {n property colon : Node}
    (category : n.is "declaration" = true)
    (property_found : n.childOf? "property_name" = some property)
    (colon_found : (n.children.find? fun c => c.kind == .token ":") = some colon) :
    declarationOf? css n
      = some (String.ofList (Text.slice property.span css),
          String.ofList (declarationValue (Text.slice ⟨colon.span.stop, n.span.stop⟩ css))) := by
  have admitted : (guard (n.is "declaration") : Option Unit) = some () := if_pos category
  rw [declarationOf?, admitted, property_found, colon_found]
  rfl

theorem Declaration.read {d : Declaration} {n : Node} {before after : List Char}
    (stands : d.standsAt (Text.byteLength before) n = true) :
    declarationOf? (before ++ (d.text ++ after)) n
      = some (String.ofList d.property, String.ofList d.value) := by
  simp only [Declaration.standsAt, Bool.and_eq_true, beq_iff_eq, Option.any_eq_true] at stands
  obtain ⟨⟨⟨category, span⟩, property, property_found, property_span⟩, colon, colon_found,
    colon_stop⟩ := stands
  have property_text : Text.slice property.span (before ++ (d.text ++ after)) = d.property := by
    have parts : before ++ (d.text ++ after)
        = before ++ (d.property ++ ([':', ' '] ++ (d.value ++ [';']) ++ after)) := by
      simp only [Declaration.text, List.append_assoc]
    rw [property_span]
    exact Text.slice_eq parts rfl rfl
  have value_text : Text.slice ⟨colon.span.stop, n.span.stop⟩ (before ++ (d.text ++ after))
      = ' ' :: (d.value ++ [';']) := by
    have one : Text.byteLength [':'] = 1 := rfl
    have parts : before ++ (d.text ++ after)
        = (before ++ (d.property ++ [':'])) ++ (' ' :: (d.value ++ [';']) ++ after) := by
      simp only [Declaration.text, List.append_assoc, List.cons_append, List.nil_append]
    apply Text.slice_eq parts
    · simp only [colon_stop, Text.byteLength_append, one, Nat.add_assoc]
    · have whole : d.text = (d.property ++ [':']) ++ ' ' :: (d.value ++ [';']) := by
        simp only [Declaration.text, List.append_assoc, List.cons_append, List.nil_append]
      rw [span, spanFrom, whole, Text.byteLength_append (d.property ++ [':']),
        Text.byteLength_append before, Nat.add_assoc]
  rw [declarationOf?_eq category property_found colon_found, property_text, value_text,
    d.value_read]

theorem declarations_read {ds : List Declaration} {ns : List Node} {before after : List Char}
    (stand : declarationsStandAt (Text.byteLength before) ds ns = true) :
    ns.filterMap (declarationOf? (before ++ (ds.flatMap (fun d => d.text ++ [' ']) ++ after)))
      = ds.map fun d => (String.ofList d.property, String.ofList d.value) := by
  induction ds generalizing ns before with
  | nil =>
      cases ns with
      | nil => rfl
      | cons n ns => cases stand
  | cons d ds ih =>
      cases ns with
      | nil => cases stand
      | cons n ns =>
          rw [declarationsStandAt, Bool.and_eq_true] at stand
          obtain ⟨here, later⟩ := stand
          rw [← Text.byteLength_append] at later
          have first : declarationOf? (before ++ (d.text
              ++ ' ' :: (ds.flatMap (fun d => d.text ++ [' ']) ++ after))) n
              = some (String.ofList d.property, String.ofList d.value) := Declaration.read here
          have parts : before ++ ((d :: ds).flatMap (fun d => d.text ++ [' ']) ++ after)
              = before ++ (d.text ++ ' ' :: (ds.flatMap (fun d => d.text ++ [' ']) ++ after)) := by
            simp only [List.flatMap_cons, List.append_assoc, List.cons_append, List.nil_append]
          have parts' : before ++ ((d :: ds).flatMap (fun d => d.text ++ [' ']) ++ after)
              = (before ++ (d.text ++ [' ']))
                ++ (ds.flatMap (fun d => d.text ++ [' ']) ++ after) := by
            simp only [List.flatMap_cons, List.append_assoc]
          rw [List.map_cons, ← ih later, ← parts']
          exact List.filterMap_cons_some (by rw [parts]; exact first)

theorem RuleSet.recorded {r : RuleSet} (unquoted : r.selectors.all Selector.bracketsUnquoted = true)
    {n : Node} {before after : List Char} (atRules : List String) (t : StyleTable)
    (stands : r.standsAt (Text.byteLength before) n = true) :
    recordRuleSet (before ++ (r.text ++ after)) atRules t n
      = t.recording (r.entries atRules) r.otherSelectors := by
  simp only [RuleSet.standsAt, Bool.and_eq_true, beq_iff_eq, Option.any_eq_true] at stands
  obtain ⟨⟨-, selectors, selectors_found, selectors_span⟩, block, block_found, declared⟩ := stands
  have listed : Text.slice selectors.span (before ++ (r.text ++ after)) = r.selectorText := by
    have parts : before ++ (r.text ++ after) = before ++ (r.selectorText
        ++ ([' ', '\x7b', ' '] ++ (r.declarationText ++ ['\x7d', '\n']) ++ after)) := by
      simp only [RuleSet.text, List.append_assoc]
    rw [selectors_span]
    exact Text.slice_eq parts rfl rfl
  have declarations : declarationsOf (before ++ (r.text ++ after)) block
      = r.declarations.map fun d => (String.ofList d.property, String.ofList d.value) := by
    have parts : before ++ (r.text ++ after) = (before ++ (r.selectorText ++ [' ', '\x7b', ' ']))
        ++ (r.declarations.flatMap (fun d => d.text ++ [' ']) ++ (['\x7d', '\n'] ++ after)) := by
      simp only [RuleSet.text, RuleSet.declarationText, List.append_assoc, List.cons_append,
        List.nil_append]
    have three : Text.byteLength [' ', '\x7b', ' '] = 3 := rfl
    rw [declarationsOf, parts]
    apply declarations_read
    rw [Text.byteLength_append, Text.byteLength_append, three, ← Nat.add_assoc]
    exact declared
  have split : splitSelectorList r.selectorText = (r.selectors.map Selector.text).map Text.trim := by
    apply splitSelectorList_intercalate
    · intro text htext
      obtain ⟨s, hs, rfl⟩ := List.mem_map.mp htext
      exact s.inseparable (List.all_eq_true.mp unquoted s hs)
    · intro text htext
      obtain ⟨s, -, rfl⟩ := List.mem_map.mp htext
      exact s.parse_trim.1
  have some_declaration : (r.declarations.map fun d =>
      (String.ofList d.property, String.ofList d.value)).isEmpty = false := by
    simpa using r.declarations_ne_nil
  rw [recordRuleSet, selectors_found, block_found]
  simp only [declarations, some_declaration, Bool.false_eq_true, if_false, listed, split]
  exact recordSelectors_eq atRules _ r.selectors t

theorem is_of_not_isNamed {n : Node} (h : n.isNamed = false) (name : String) :
    n.is name = false := by
  obtain ⟨kind, role, span, children⟩ := n
  cases kind with
  | category c => cases h
  | token t => rfl
  | missing m => rfl
  | error => rfl

/-- Fixed tokens are passed over. -/
theorem recordItems_namedChildren (css : List Char) (atRules : List String) (t : StyleTable)
    (ns : List Node) :
    recordItems css atRules t (ns.filter Node.isNamed) = recordItems css atRules t ns := by
  induction ns generalizing t with
  | nil => rfl
  | cons n ns ih =>
      cases named : n.isNamed with
      | true =>
          rw [List.filter_cons_of_pos named]
          exact ih _
      | false =>
          have other := is_of_not_isNamed named
          have passed : recordItem css atRules t n = t := by
            obtain ⟨kind, role, span, children⟩ := n
            simp only [recordItem, isConditional, other, Bool.or_self, Bool.false_eq_true, if_false]
          rw [List.filter_cons_of_neg (by rw [named]; exact Bool.false_ne_true), recordItems, passed]
          exact ih t

theorem recordBlockOf_eq {css : List Char} {atRules : List String} {t : StyleTable} {block : Node} :
    ∀ {ns : List Node}, ns.find? (Node.is "block") = some block →
      recordBlockOf css atRules t ns = recordItems css atRules t block.children
  | [], found => by cases found
  | .mk k r s cs :: ns, found => by
      cases here : (Node.mk k r s cs).is "block" with
      | true =>
          rw [List.find?_cons_of_pos here] at found
          cases found
          rw [recordBlockOf, if_pos here]
          rfl
      | false =>
          rw [List.find?_cons_of_neg (by rw [here]; exact Bool.false_ne_true)] at found
          rw [recordBlockOf, if_neg (by rw [here]; exact Bool.false_ne_true)]
          exact recordBlockOf_eq found

theorem recordItem_atRule {n block : Node} {a : AtRule} (category : n.is a.category = true)
    (found : n.childOf? "block" = some block) (css : List Char) (atRules : List String)
    (t : StyleTable) :
    recordItem css atRules t n
      = recordItems css (conditionsInside css atRules n block) t block.namedChildren := by
  obtain ⟨kind, role, span, children⟩ := n
  have kind_eq : kind = .category a.category := beq_iff_eq.mp category
  have no_ruleSet : (Node.mk kind role span children).is "rule_set" = false := by
    rw [kind_eq]
    cases a <;> rfl
  have conditional : isConditional (Node.mk kind role span children) = true := by
    rw [kind_eq]
    cases a <;> rfl
  rw [Node.namedChildren, recordItems_namedChildren]
  simp only [recordItem, no_ruleSet, conditional, if_true, Bool.false_eq_true, if_false, found]
  exact recordBlockOf_eq found

theorem AtRule.isPrefixOf_word (a : AtRule) (rest : List Char) :
    "@layer".toList.isPrefixOf (a.word ++ rest) = decide (a = .layer) := by
  have media : AtRule.media.word = ['@', 'm', 'e', 'd', 'i', 'a'] := by decide
  have supports : AtRule.supports.word = ['@', 's', 'u', 'p', 'p', 'o', 'r', 't', 's'] := by
    decide
  have layer : AtRule.layer.word = ['@', 'l', 'a', 'y', 'e', 'r'] := by decide
  have word : "@layer".toList = ['@', 'l', 'a', 'y', 'e', 'r'] := by decide
  cases a with
  | media =>
      rw [media, word]
      rfl
  | supports =>
      rw [supports, word]
      rfl
  | layer =>
      rw [layer, word]
      rfl

theorem AtRule.word_marks (a : AtRule) :
    (∀ c ∈ a.word, Text.isBlank c = false) ∧ a.word ≠ [] := by
  have marks : a.word.all (fun c => !Text.isBlank c) = true := by cases a <;> rfl
  have some_mark : a.word.isEmpty = false := by cases a <;> rfl
  refine ⟨?_, List.isEmpty_eq_false_iff.mp some_mark⟩
  intro c member
  have mark := List.all_eq_true.mp marks c member
  rwa [Bool.not_eq_true'] at mark

theorem conditionsInside_eq {a : AtRule} {parameters before after : List Char} {n block : Node}
    (start : n.span.start = Text.byteLength before)
    (stop : block.span.start
      = Text.byteLength before + Text.byteLength (a.prelude parameters) + 1)
    (atRules : List String) :
    conditionsInside (before ++ (a.prelude parameters ++ ' ' :: after)) atRules n block
      = a.conditions parameters atRules := by
  have covered : Text.slice ⟨n.span.start, block.span.start⟩
      (before ++ (a.prelude parameters ++ ' ' :: after)) = a.prelude parameters ++ [' '] := by
    have parts : before ++ (a.prelude parameters ++ ' ' :: after)
        = before ++ ((a.prelude parameters ++ [' ']) ++ after) := by
      simp only [List.append_assoc, List.cons_append, List.nil_append]
    have one : Text.byteLength [' '] = 1 := rfl
    refine Text.slice_eq (s := ⟨n.span.start, block.span.start⟩) parts start ?_
    rw [stop, Text.byteLength_append, one, Nat.add_assoc]
  have blanks : prelude (before ++ (a.prelude parameters ++ ' ' :: after)) n block
      = Text.normalizeBlanks (a.prelude parameters) := by
    rw [prelude, covered]
    exact Text.normalizeBlanks_append_blank (by decide) _
  obtain ⟨rest, word⟩ := Text.normalizeBlanks_word a.word_marks.1 a.word_marks.2 parameters
  have layer : "@layer".toList.isPrefixOf (Text.normalizeBlanks (a.prelude parameters))
      = decide (a = .layer) := by
    rw [AtRule.prelude, word, a.isPrefixOf_word]
  rw [conditionsInside, blanks]
  simp only [layer, decide_eq_true_eq]
  rfl

mutual
/-- An item is recorded off a node that shows it. -/
theorem Item.recorded :
    ∀ (i : Item), i.bracketsUnquoted = true →
      ∀ {n : Node} {before after : List Char} (atRules : List String) (t : StyleTable),
        i.standsAt (Text.byteLength before) n = true →
        recordItem (before ++ (i.text ++ after)) atRules t n
          = t.recording (i.entries atRules) i.otherSelectors
  | .ruleSet r, unquoted, n, before, after, atRules, t, stands => by
      have category : n.is "rule_set" = true := by
        rw [Item.standsAt, RuleSet.standsAt, Bool.and_eq_true, Bool.and_eq_true] at stands
        exact stands.1.1
      have one : recordItem (before ++ (r.text ++ after)) atRules t n
          = recordRuleSet (before ++ (r.text ++ after)) atRules t n := by
        obtain ⟨kind, role, span, children⟩ := n
        simp only [recordItem, category, if_true]
      rw [Item.text, one]
      rw [Item.standsAt] at stands
      exact RuleSet.recorded unquoted atRules t stands
  | .atRule a parameters items, unquoted, n, before, after, atRules, t, stands => by
      simp only [Item.standsAt, Bool.and_eq_true, beq_iff_eq, Option.any_eq_true] at stands
      obtain ⟨⟨category, start⟩, block, found, opened, inside⟩ := stands
      have parts : before ++ ((Item.atRule a parameters items).text ++ after)
          = before ++ (a.prelude parameters ++ ' ' ::
              (['\x7b', '\n'] ++ (Items.text items ++ (['\x7d', '\n'] ++ after)))) := by
        simp only [Item.text, List.append_assoc, List.cons_append, List.nil_append]
      have parts' : before ++ ((Item.atRule a parameters items).text ++ after)
          = (before ++ (a.prelude parameters ++ [' ', '\x7b', '\n']))
              ++ (Items.text items ++ (['\x7d', '\n'] ++ after)) := by
        simp only [Item.text, List.append_assoc, List.cons_append, List.nil_append]
      have three : Text.byteLength [' ', '\x7b', '\n'] = 3 := rfl
      have conditions : conditionsInside (before ++ ((Item.atRule a parameters items).text ++ after))
          atRules n block = a.conditions parameters atRules := by
        rw [parts]
        exact conditionsInside_eq start opened atRules
      rw [recordItem_atRule category found, conditions, parts']
      apply Items.recorded items unquoted
      rw [Text.byteLength_append, Text.byteLength_append, three, ← Nat.add_assoc]
      exact inside

theorem Items.recorded :
    ∀ (items : List Item), Items.bracketsUnquoted items = true →
      ∀ {ns : List Node} {before after : List Char} (atRules : List String) (t : StyleTable),
        Items.standsAt (Text.byteLength before) items ns = true →
        recordItems (before ++ (Items.text items ++ after)) atRules t ns
          = t.recording (Items.entries atRules items) (Items.otherSelectors items)
  | [], _, [], before, after, atRules, t, _ => rfl
  | [], _, n :: ns, before, after, atRules, t, stands => by
      simp only [Items.standsAt, Bool.false_eq_true] at stands
  | i :: is, _, [], before, after, atRules, t, stands => by
      simp only [Items.standsAt, Bool.false_eq_true] at stands
  | i :: is, unquoted, n :: ns, before, after, atRules, t, stands => by
      rw [Items.bracketsUnquoted, Bool.and_eq_true] at unquoted
      rw [Items.standsAt, Bool.and_eq_true, ← Text.byteLength_append] at stands
      have parts : before ++ (Items.text (i :: is) ++ after)
          = before ++ (i.text ++ (Items.text is ++ after)) := by
        rw [Items.text, List.append_assoc]
      have parts' : before ++ (Items.text (i :: is) ++ after)
          = (before ++ i.text) ++ (Items.text is ++ after) := by
        rw [Items.text, List.append_assoc, List.append_assoc]
      have first : recordItem (before ++ (Items.text (i :: is) ++ after)) atRules t n
          = t.recording (i.entries atRules) i.otherSelectors := by
        rw [parts]
        exact Item.recorded i unquoted.1 atRules t stands.1
      have later : ∀ t, recordItems (before ++ (Items.text (i :: is) ++ after)) atRules t ns
          = t.recording (Items.entries atRules is) (Items.otherSelectors is) := by
        intro t
        rw [parts']
        exact Items.recorded is unquoted.2 atRules t stands.2
      rw [recordItems, first, later, StyleTable.recording_recording]
      rfl
end

/-- Loading the text of a sheet gives the table that the sheet stands for: its classes are inserted
in the order of the sheet, each with the declarations of its rule set in the context of the at-rules
around it and the pseudo-classes behind it, and each other selector is counted. The tree has to show
the parts of the sheet at their places, and no selector may have a bracket in quotes. -/
theorem StyleTable.ofCss_text (sheet : Items) (unquoted : Items.bracketsUnquoted sheet = true)
    (tree : Items.standsAt 0 sheet (parse (mask (Items.text sheet))).namedChildren = true) :
    StyleTable.ofCss (String.ofList (Items.text sheet)) = Items.table sheet := by
  have read : recordItems ([] ++ (Items.text sheet ++ [])) [] StyleTable.empty
      (parse (mask (Items.text sheet))).namedChildren = Items.table sheet :=
    Items.recorded sheet unquoted [] StyleTable.empty tree
  rw [List.nil_append, List.append_nil] at read
  rw [StyleTable.ofCss, String.toList_ofList, ← recordItems_namedChildren]
  exact read

/-- A rule set for a class with an escaped colon and a chain of pseudo-classes and for everything,
and one for a class and for what follows an element with a bracketed text, inside a layer inside a
condition. -/
def nestedSheet : Items :=
  [.ruleSet {
      selectors := [
        .ofClass ⟨'m', "d:w-1/2".toList, by decide, by decide⟩
          [⟨"hover".toList, by decide, by decide⟩, ⟨"focus".toList, by decide, by decide⟩],
        .simple ⟨.plain '*', [], by decide⟩ (by decide)]
      declarations := [⟨"width".toList, "50".toList, by decide⟩]
      declarations_ne_nil := by decide },
    .atRule .media "(min-width:  640px)".toList [
      .atRule .layer "base".toList [
        .ruleSet {
          selectors := [
            .ofClass ⟨'p', [], by decide, by decide⟩ [],
            .joined ⟨.plain 'a', [.enclosed .square
                (("title=".toList.map .plain) ++ [.enclosed .double [.plain ',']])], by decide⟩
              .child ⟨.plain '.', [.plain 'q'], by decide⟩ [(.sibling, ⟨.plain 'b', [], by decide⟩)]]
          declarations :=
            [⟨"color".toList, "red".toList, by decide⟩, ⟨"order".toList, "1".toList, by decide⟩]
          declarations_ne_nil := by decide }]]]

theorem StyleTable.ofCss_text_nested :
    Items.bracketsUnquoted nestedSheet = true
      ∧ Items.standsAt 0 nestedSheet (parse (mask (Items.text nestedSheet))).namedChildren = true
      ∧ StyleTable.ofCss (String.ofList (Items.text nestedSheet)) = Items.table nestedSheet := by
  have unquoted : Items.bracketsUnquoted nestedSheet = true := by decide
  have tree : Items.standsAt 0 nestedSheet
      (parse (mask (Items.text nestedSheet))).namedChildren = true := by decide +kernel
  exact ⟨unquoted, tree, StyleTable.ofCss_text nestedSheet unquoted tree⟩

def quotedBracketSheet : Items :=
  [.ruleSet {
    selectors := [
      .joined ⟨.enclosed .square
          (("title=".toList.map .plain) ++ [.enclosed .double [.plain '(']]), [], by decide⟩
        .child ⟨.plain 'a', [], by decide⟩ [],
      .ofClass ⟨'b', [], by decide, by decide⟩ []]
    declarations := [⟨"color".toList, "red".toList, by decide⟩]
    declarations_ne_nil := by decide }]

/-- With a bracket in quotes the list does not fall apart, and the class behind it is lost. -/
theorem StyleTable.ofCss_quotedBracket :
    Items.standsAt 0 quotedBracketSheet
        (parse (mask (Items.text quotedBracketSheet))).namedChildren = true
      ∧ String.ofList (Items.text quotedBracketSheet)
        = "[title=\"(\"] > a, .b \x7b color: red; \x7d\n"
      ∧ StyleTable.ofCss (String.ofList (Items.text quotedBracketSheet)) = ⟨[], 1⟩
      ∧ Items.table quotedBracketSheet = ⟨[("b", [⟨⟨[], none⟩, [("color", "red")]⟩])], 1⟩ := by
  refine ⟨?_, ?_, ?_, ?_⟩
  all_goals decide +kernel

end Restyle.Sheet
