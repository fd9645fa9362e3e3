import Restyle.Sheet.Lexeme
import Restyle.Syntax.Recovery
/-!
The grammar of stylesheets: rule sets with their selectors and declarations, and at-rules.
-/

namespace Restyle.Sheet

open Syntax (Pattern Grammar)
open Syntax.Pattern

/-- The rules of stylesheets. -/
inductive Rule where
  | sheet | item | block | selectors | selector | query | value | arguments
deriving DecidableEq, Repr

private abbrev P := Pattern Rule

private def op (p : String) (longer : List String := []) : P := token (punctuation p longer)
private def at_ (k : String) : P := token (atWord k)
private def comma : P := op ","

private def quoted (mark : String) (quote : Char) : P :=
  node "string_value" (seq [op mark, optional (attached (stringText quote)),
    attached (punctuation mark [])])

/-- A string on one line. -/
private def string : P := choice [quoted "\"" '"', quoted "'" '\'']

private def declarationStart : P :=
  seq [token (identifier "property_name"), token declarationColon, rule .value,
    many (seq [optional comma, rule .value])]

private def itemRule : P :=
  let queries := optional (separated1 comma (rule .query))
  let keyframe := node "keyframe_block" (seq [
    separated1 comma (choice [token (keyword "from"), token (keyword "to"), token number]),
    rule .block])
  choice [
    node "declaration" (seq [declarationStart, op ";"]),
    node "rule_set" (seq [rule .selectors, rule .block]),
    node "import_statement" (seq [at_ "@import", rule .value, queries, op ";"]),
    node "media_statement" (seq [at_ "@media", separated1 comma (rule .query), rule .block]),
    node "charset_statement" (seq [at_ "@charset", rule .value, op ";"]),
    node "namespace_statement" (seq [at_ "@namespace",
      choice [
        seq [token (identifier "namespace_name"), choice [string,
          node "call_expression" (seq [token (identifier "function_name"), rule .arguments])]],
        string,
        node "call_expression" (seq [token (identifier "function_name"), rule .arguments])],
      op ";"]),
    node "keyframes_statement" (seq [token keyframesWord, token (identifier "keyframes_name"),
      node "keyframe_block_list" (seq [op "\x7b", many keyframe, op "\x7d"])]),
    node "supports_statement" (seq [at_ "@supports", rule .query, rule .block]),
    node "at_rule" (seq [
      absent (choice [at_ "@import", at_ "@media", at_ "@charset", at_ "@namespace",
        token keyframesWord, at_ "@supports"]),
      token atKeyword, queries, choice [op ";", rule .block]]),
    node "postcss_statement" (seq [token atKeyword, many (rule .value), op ";"])]

private def blockRule : P :=
  node "block" (seq [op "\x7b", many (rule .item), optional (node "declaration" declarationStart),
    op "\x7d"])

private def selectorRule : P :=
  let className := token (identifier "class_name")
  let comparison := choice [op "=", op "~=", op "^=", op "|=", op "*=", op "$="]
  let attribute_ := seq [attached (punctuation "[" []), token (identifier "attribute_name"),
    optional (seq [comparison, rule .value]), op "]"]
  let selectorArguments := node "arguments" (seq [attached (punctuation "(" []),
    optional (separated1 comma (choice [
      seq [rule .selector, ahead fun cs => cs.head? == some ')' || cs.head? == some ','],
      many1 (rule .value)])), op ")"])
  let pseudoClass := seq [attached pseudoColon, token (identifier "class_name"),
    optional selectorArguments]
  let pseudoElement := seq [attached (punctuation "::" []), token (identifier "tag_name"),
    optional selectorArguments]
  let head := choice [
    node "universal_selector" (op "*" ["*="]),
    token (identifier "tag_name"),
    node "nesting_selector" (op "&"),
    string,
    node "class_selector" (seq [op ".", className]),
    node "id_selector" (seq [op "#", token (identifier "id_name")]),
    node "attribute_selector" (seq [op "[", token (identifier "attribute_name"),
      optional (seq [comparison, rule .value]), op "]"]),
    node "pseudo_class_selector" (seq [token pseudoColon, token (identifier "class_name"),
      optional selectorArguments]),
    node "pseudo_element_selector" (seq [op "::", token (identifier "tag_name"),
      optional selectorArguments]),
    node "child_selector" (seq [op ">", rule .selector]),
    node "sibling_selector" (seq [op "~" ["~="], rule .selector]),
    node "adjacent_sibling_selector" (seq [op "+", rule .selector])]
  let simple := chain head [
    ("class_selector", seq [attached (punctuation "." []), className]),
    ("nesting_selector", attached (punctuation "&" [])),
    ("id_selector", seq [attached (punctuation "#" []), token (identifier "id_name")]),
    ("attribute_selector", attribute_),
    ("pseudo_class_selector", pseudoClass),
    ("pseudo_element_selector", pseudoElement)]
  chain simple [
    ("descendant_selector", seq [attached descent, simple]),
    ("child_selector", seq [op ">", simple]),
    ("sibling_selector", seq [op "~", simple]),
    ("adjacent_sibling_selector", seq [op "+", simple]),
    ("namespace_selector", seq [op "|", simple])]

private def queryRule : P :=
  let feature := node "feature_query" (seq [op "(", token (identifier "feature_name"), op ":",
    many1 (rule .value), op ")"])
  let simple := choice [
    node "unary_query" (seq [choice [token (keyword "not"), token (keyword "only")],
      rule .query]),
    node "selector_query" (seq [token (keyword "selector"), op "(", rule .selector, op ")"]),
    token (identifier "keyword_query"),
    feature,
    node "parenthesized_query" (seq [op "(", rule .query, op ")"])]
  chain simple [("binary_query", seq [choice [token (keyword "and"), token (keyword "or")],
    simple])]

private def valueRule : P :=
  let simple := choice [
    node "call_expression" (seq [token (identifier "function_name"), rule .arguments]),
    token color, token number, token plain, string,
    node "grid_value" (seq [op "[", separated1 (optional comma) (rule .value), op "]"]),
    node "parenthesized_value" (seq [op "(", many1 (rule .value), op ")"]),
    node "important" (seq [op "!", token (identifier "important")])]
  chain simple [("binary_expression", seq [token arithmeticSign, simple])]

private def argumentsRule : P :=
  node "arguments" (seq [attached (punctuation "(" []),
    optional (separated1 (choice [comma, op ";"]) (many1 (rule .value))), op ")"])

def rules : Rule → Pattern Rule
  | .sheet => many (rule .item)
  | .item => itemRule
  | .block => blockRule
  | .selectors => node "selectors" (separated1 comma (rule .selector))
  | .selector => selectorRule
  | .query => queryRule
  | .value => valueRule
  | .arguments => argumentsRule

def grammar : Grammar Rule where
  root := .sheet
  rootName := "stylesheet"
  rules := rules
  isOperand := fun _ => false
  isBlank := isBlank
  comment := comment
  htmlComment := fun _ => 0
  semicolonUnderstood := fun _ _ => false
  stray := stray

def parse (source : List Char) : Syntax.Node := Syntax.parse grammar source

end Restyle.Sheet
