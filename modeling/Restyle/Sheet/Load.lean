import Restyle.Sheet.Grammar
import Restyle.Sheet.Selector
import Restyle.Sheet.Table
/-!
Loading a compiled stylesheet into a style table. The sheet is read through a mask of the same
layout in which escapes are plain identifier characters, so that the tree of the masked text gives
the places of rules in the sheet itself.
-/

namespace Restyle.Sheet

open Syntax (Node)

/-- Whether only blanks, at least one, stand before the next semicolon. -/
def isBlankValue (cs : List Char) : Bool :=
  (cs.takeWhile Text.isAsciiBlank).length != 0
    && (cs.dropWhile Text.isAsciiBlank).head? == some ';'

/-- The character by which an escaped one is masked. -/
def maskEscaped (c : Char) : Char :=
  if c.toNat < 128 && !isIdentChar c then '_' else c

def mask : List Char → List Char
  | [] => []
  | '\\' :: [] => ['_']
  | '\\' :: e :: cs => '_' :: maskEscaped e :: mask cs
  | ':' :: b :: cs =>
    if isBlankValue (b :: cs) then ':' :: '_' :: mask cs else ':' :: mask (b :: cs)
  | c :: cs => c :: mask cs

/-- The value between the colon and the end of a declaration, without the semicolon. -/
def declarationValue (text : List Char) : List Char :=
  Text.trimRight (Text.dropWhileEnd (· == ';') (Text.trim text))

def declarationOf? (css : List Char) (n : Node) : Option (String × String) := do
  guard (n.is "declaration")
  let property ← n.childOf? "property_name"
  let colon ← n.children.find? fun c => c.kind == .token ":"
  let value := declarationValue (Text.slice ⟨colon.span.stop, n.span.stop⟩ css)
  return (String.ofList (Text.slice property.span css), String.ofList value)

def declarationsOf (css : List Char) (block : Node) : List (String × String) :=
  block.namedChildren.filterMap (declarationOf? css)

/-- Records the selectors of a rule set, all with the same declarations. -/
def recordSelectors (atRules : List String) (declarations : List (String × String))
    (t : StyleTable) (selectors : List (List Char)) : StyleTable :=
  selectors.foldl (fun t s =>
    match parseClassSelector? s with
    | some c => t.insert c.class_ (.ofPairs ⟨atRules, c.pseudo⟩ declarations)
    | none => t.skip) t

/-- Records a rule set. One without declarations says nothing. -/
def recordRuleSet (css : List Char) (atRules : List String) (t : StyleTable) (n : Node) :
    StyleTable :=
  match n.childOf? "selectors", n.childOf? "block" with
  | some selectors, some block =>
    let declarations := declarationsOf css block
    if declarations.isEmpty then t
    else
      recordSelectors atRules declarations t
        (splitSelectorList (Text.slice selectors.span css))
  | _, _ => t

/-- Whether a node is an at-rule whose block holds rules. -/
def isConditional (n : Node) : Bool :=
  n.is "media_statement" || n.is "supports_statement" || n.is "at_rule"

/-- The text of an at-rule before its block, with single spaces. -/
def prelude (css : List Char) (n block : Node) : List Char :=
  Text.normalizeBlanks (Text.slice ⟨n.span.start, block.span.start⟩ css)

/-- The conditions inside an at-rule. Layers are no condition. -/
def conditionsInside (css : List Char) (atRules : List String) (n block : Node) : List String :=
  let text := prelude css n block
  if "@layer".toList.isPrefixOf text then atRules else atRules ++ [String.ofList text]

mutual
/-- Records a rule set, or the rules inside an at-rule. -/
def recordItem (css : List Char) (atRules : List String) (t : StyleTable) : Node → StyleTable
  | .mk k r s cs =>
    let n := Node.mk k r s cs
    if n.is "rule_set" then recordRuleSet css atRules t n
    else if isConditional n then
      match n.childOf? "block" with
      | some block => recordBlockOf css (conditionsInside css atRules n block) t cs
      | none => t
    else t

/-- Records the items of the first block among the children of an at-rule. -/
def recordBlockOf (css : List Char) (atRules : List String) (t : StyleTable) :
    List Node → StyleTable
  | [] => t
  | .mk k r s cs :: ns =>
    if (Node.mk k r s cs).is "block" then recordItems css atRules t cs
    else recordBlockOf css atRules t ns

/-- Records items one after another. -/
def recordItems (css : List Char) (atRules : List String) (t : StyleTable) :
    List Node → StyleTable
  | [] => t
  | n :: ns => recordItems css atRules (recordItem css atRules t n) ns
end

def StyleTable.ofCss (css : String) : StyleTable :=
  let text := css.toList
  recordItems text [] .empty (parse (mask text)).children

end Restyle.Sheet
