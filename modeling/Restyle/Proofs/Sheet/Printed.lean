import Restyle.Sheet.Load
/-!
Stylesheets as data: rule sets with selectors of classes and of other things, nested in at-rules. A
sheet has a text, a table that its rule sets stand for, and places in its text at which a syntax
tree has to show its parts.
-/

namespace Restyle.Sheet

open Syntax (Node)

/-- The marks around a part of a selector that is read by itself. -/
inductive Enclosure where
  | round | square | double | single
deriving DecidableEq, Repr

namespace Enclosure

def opening : Enclosure → Char
  | round => '('
  | square => '['
  | double => '"'
  | single => '\''

def closing : Enclosure → Char
  | round => ')'
  | square => ']'
  | double => '"'
  | single => '\''

def isQuote : Enclosure → Bool
  | round | square => false
  | double | single => true

end Enclosure

def isBracket (c : Char) : Bool := c == '(' || c == ')' || c == '[' || c == ']'

/-- The characters by which simple selectors are joined or told apart in a list. -/
def isJoint (c : Char) : Bool :=
  Text.isBlank c || c == '>' || c == '+' || c == '~' || c == ','

/-- Whether a character stands for itself in a region: outside of enclosures, or inside one. -/
def admits : Option Enclosure → Char → Bool
  | none, c => c != '\\' && !isBracket c && c != '"' && c != '\'' && !isJoint c
  | some e, c =>
    if e.isQuote then c != '\\' && c != e.closing
    else c != '\\' && !isBracket c && c != '"' && c != '\''

/-- The pieces of a selector's text: characters that stand for themselves, escapes of a character
by itself or by its number, and parts in brackets or quotes. -/
inductive Piece where
  | plain (c : Char)
  | escaped (c : Char)
  | numbered (digits : List Char)
  | enclosed (marks : Enclosure) (inside : List Piece)

namespace Piece

mutual
def text : Piece → List Char
  | plain c => [c]
  | escaped c => ['\\', c]
  | numbered digits => '\\' :: (digits ++ [' '])
  | enclosed marks inside => marks.opening :: (textOf inside ++ [marks.closing])

def textOf : List Piece → List Char
  | [] => []
  | p :: ps => p.text ++ textOf ps
end

mutual
/-- Whether a piece may stand in a region. Quotes stand in brackets only. -/
def fits : Option Enclosure → Piece → Bool
  | region, plain c => admits region c
  | _, escaped c => !Text.isHexDigit c
  | _, numbered digits => !digits.isEmpty && digits.length ≤ 6 && digits.all Text.isHexDigit
  | none, enclosed marks inside => !marks.isQuote && allFit (some marks) inside
  | some region, enclosed marks inside => !region.isQuote && allFit (some marks) inside

def allFit : Option Enclosure → List Piece → Bool
  | _, [] => true
  | region, p :: ps => fits region p && allFit region ps
end

mutual
/-- Whether no bracket stands in quotes. -/
def bracketsUnquoted : Option Enclosure → Piece → Bool
  | region, plain c => !(region.any Enclosure.isQuote && isBracket c)
  | _, escaped _ | _, numbered _ => true
  | _, enclosed marks inside => allBracketsUnquoted (some marks) inside

def allBracketsUnquoted : Option Enclosure → List Piece → Bool
  | _, [] => true
  | region, p :: ps => bracketsUnquoted region p && allBracketsUnquoted region ps
end

end Piece

/-- Simple selectors written one after another. -/
structure Compound where
  first : Piece
  others : List Piece
  fit : Piece.allFit none (first :: others) = true

namespace Compound

def text (c : Compound) : List Char := Piece.textOf (c.first :: c.others)

def bracketsUnquoted (c : Compound) : Bool := Piece.allBracketsUnquoted none (c.first :: c.others)

end Compound

inductive Combinator where
  | descendant | child | adjacent | sibling
deriving DecidableEq, Repr

def Combinator.text : Combinator → List Char
  | descendant => [' ']
  | child => [' ', '>', ' ']
  | adjacent => [' ', '+', ' ']
  | sibling => [' ', '~', ' ']

/-- The characters of ASCII that leave a mark. -/
def isPrintable (c : Char) : Bool := '!' ≤ c && c ≤ '~'

structure ClassName where
  first : Char
  others : List Char
  first_letter : first.isAlpha = true
  others_printable : others.all isPrintable = true

namespace ClassName

def name (n : ClassName) : List Char := n.first :: n.others

/-- A character of a name as it stands in a selector. -/
def escape (c : Char) : List Char := if isIdentChar c then [c] else ['\\', c]

def text (n : ClassName) : List Char := n.name.flatMap escape

end ClassName

structure PseudoName where
  name : List Char
  identifier : name.all (fun c => isIdentChar c && !Text.isBlank c) = true
  name_ne_nil : name ≠ []

def PseudoName.text (p : PseudoName) : List Char := ':' :: p.name

/-- The selectors of a rule set: one class with pseudo-classes, simple selectors that do not begin
with a class, and simple selectors joined by combinators. -/
inductive Selector where
  | ofClass (name : ClassName) (pseudo : List PseudoName)
  | simple (c : Compound) (no_class : c.text.head? ≠ some '.')
  | joined (first : Compound) (combinator : Combinator) (second : Compound)
      (others : List (Combinator × Compound))

namespace Selector

def joinedText (others : List (Combinator × Compound)) : List Char :=
  others.flatMap fun o => o.1.text ++ o.2.text

def text : Selector → List Char
  | ofClass name pseudo => '.' :: (name.text ++ pseudo.flatMap PseudoName.text)
  | simple c _ => c.text
  | joined first combinator second others =>
    first.text ++ (combinator.text ++ (second.text ++ joinedText others))

def bracketsUnquoted : Selector → Bool
  | ofClass _ _ => true
  | simple c _ => c.bracketsUnquoted
  | joined first _ second others =>
    first.bracketsUnquoted && second.bracketsUnquoted && others.all (·.2.bracketsUnquoted)

/-- The class that a selector stands for, with its pseudo-classes. -/
def class? : Selector → Option ClassSelector
  | ofClass name pseudo =>
    some ⟨String.ofList name.name,
      if pseudo.isEmpty then none else some (String.ofList (pseudo.flatMap PseudoName.text))⟩
  | simple _ _ | joined _ _ _ _ => none

end Selector

structure Declaration where
  property : List Char
  value : List Char
  value_bounded :
    (value.head?.any (!Text.isBlank ·) && value.getLast?.any (fun c => !Text.isBlank c && c != ';'))
      = true

def Declaration.text (d : Declaration) : List Char :=
  d.property ++ ([':', ' '] ++ (d.value ++ [';']))

structure RuleSet where
  selectors : List Selector
  declarations : List Declaration
  declarations_ne_nil : declarations ≠ []

namespace RuleSet

def selectorText (r : RuleSet) : List Char :=
  [',', ' '].intercalate (r.selectors.map Selector.text)

def declarationText (r : RuleSet) : List Char :=
  r.declarations.flatMap fun d => d.text ++ [' ']

def text (r : RuleSet) : List Char :=
  r.selectorText ++ ([' ', '\x7b', ' '] ++ (r.declarationText ++ ['\x7d', '\n']))

def entries (atRules : List String) (r : RuleSet) : List (String × Entry) :=
  (r.selectors.filterMap Selector.class?).map fun c =>
    (c.class_, .ofPairs ⟨atRules, c.pseudo⟩
      (r.declarations.map fun d => (String.ofList d.property, String.ofList d.value)))

def otherSelectors (r : RuleSet) : Nat := r.selectors.countP (·.class?.isNone)

end RuleSet

inductive AtRule where
  | media | supports | layer
deriving DecidableEq, Repr

namespace AtRule

def word : AtRule → List Char
  | media => "@media".toList
  | supports => "@supports".toList
  | layer => "@layer".toList

def category : AtRule → String
  | media => "media_statement"
  | supports => "supports_statement"
  | layer => "at_rule"

def prelude (a : AtRule) (parameters : List Char) : List Char := a.word ++ ' ' :: parameters

/-- The conditions inside an at-rule. Layers are no condition. -/
def conditions (a : AtRule) (parameters : List Char) (atRules : List String) : List String :=
  if a = layer then atRules
  else atRules ++ [String.ofList (Text.normalizeBlanks (a.prelude parameters))]

end AtRule

inductive Item where
  | ruleSet (r : RuleSet)
  | atRule (a : AtRule) (parameters : List Char) (items : List Item)

/-- A sheet as its items from the first to the last. -/
abbrev Items := List Item

mutual
def Item.text : Item → List Char
  | .ruleSet r => r.text
  | .atRule a parameters items =>
    a.prelude parameters ++ ([' ', '\x7b', '\n'] ++ (Items.text items ++ ['\x7d', '\n']))

def Items.text : List Item → List Char
  | [] => []
  | i :: is => i.text ++ Items.text is
end

mutual
def Item.entries (atRules : List String) : Item → List (String × Entry)
  | .ruleSet r => r.entries atRules
  | .atRule a parameters items => Items.entries (a.conditions parameters atRules) items

/-- What is recorded for the classes of a sheet, in the order of the sheet. -/
def Items.entries (atRules : List String) : List Item → List (String × Entry)
  | [] => []
  | i :: is => i.entries atRules ++ Items.entries atRules is
end

mutual
def Item.otherSelectors : Item → Nat
  | .ruleSet r => r.otherSelectors
  | .atRule _ _ items => Items.otherSelectors items

def Items.otherSelectors : List Item → Nat
  | [] => 0
  | i :: is => i.otherSelectors + Items.otherSelectors is
end

mutual
def Item.bracketsUnquoted : Item → Bool
  | .ruleSet r => r.selectors.all Selector.bracketsUnquoted
  | .atRule _ _ items => Items.bracketsUnquoted items

/-- Whether no selector of a sheet has a bracket in quotes. -/
def Items.bracketsUnquoted : List Item → Bool
  | [] => true
  | i :: is => i.bracketsUnquoted && Items.bracketsUnquoted is
end

namespace StyleTable

def insertAll (t : StyleTable) (entries : List (String × Entry)) : StyleTable :=
  entries.foldl (fun t e => t.insert e.1 e.2) t

/-- A table with entries inserted and a number of selectors skipped. -/
def recording (t : StyleTable) (entries : List (String × Entry)) (skipped : Nat) : StyleTable :=
  { t.insertAll entries with skipped := t.skipped + skipped }

end StyleTable

def Items.table (sheet : Items) : StyleTable :=
  StyleTable.empty.recording (Items.entries [] sheet) (Items.otherSelectors sheet)

def spanFrom (start : Nat) (text : List Char) : Span := ⟨start, start + Text.byteLength text⟩

def Declaration.standsAt (start : Nat) (d : Declaration) (n : Node) : Bool :=
  n.is "declaration" && n.span == spanFrom start d.text
    && (n.childOf? "property_name").any (·.span == spanFrom start d.property)
    && (n.children.find? fun c => c.kind == .token ":").any fun c =>
      c.span.stop == start + Text.byteLength d.property + 1

/-- Whether nodes show declarations with blanks between them. -/
def declarationsStandAt : Nat → List Declaration → List Node → Bool
  | _, [], [] => true
  | start, d :: ds, n :: ns =>
    d.standsAt start n && declarationsStandAt (start + Text.byteLength (d.text ++ [' '])) ds ns
  | _, _, _ => false

def RuleSet.standsAt (start : Nat) (r : RuleSet) (n : Node) : Bool :=
  n.is "rule_set"
    && (n.childOf? "selectors").any (·.span == spanFrom start r.selectorText)
    && (n.childOf? "block").any fun b =>
      declarationsStandAt (start + Text.byteLength r.selectorText + 3) r.declarations
        b.namedChildren

mutual
def Item.standsAt : Nat → Item → Node → Bool
  | start, .ruleSet r, n => r.standsAt start n
  | start, .atRule a parameters items, n =>
    n.is a.category && n.span.start == start
      && (n.childOf? "block").any fun b =>
        b.span.start == start + Text.byteLength (a.prelude parameters) + 1
          && Items.standsAt (start + Text.byteLength (a.prelude parameters) + 3) items
            b.namedChildren

/-- Whether nodes show the items of a sheet, one node for each. -/
def Items.standsAt : Nat → List Item → List Node → Bool
  | _, [], [] => true
  | start, i :: is, n :: ns =>
    i.standsAt start n && Items.standsAt (start + Text.byteLength i.text) is ns
  | _, _, _ => false
end

end Restyle.Sheet
