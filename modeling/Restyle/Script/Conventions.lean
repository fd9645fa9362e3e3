import Restyle.Syntax.Tree
/-!
The conventions that a script follows: where its leading directives end, which quotes it prefers,
and whether it ends statements with semicolons.
-/

namespace Restyle.Script

open Syntax (Node)

def moduleDirectives : List String := ["use client", "use server", "use strict"]

/-- The text of a string literal without its quotes. -/
def unquoted (raw : String) : String :=
  String.ofList (raw.toList.drop 1).dropLast

/-- Whether a statement is nothing but a module directive. -/
def isDirective (source : String) (statement : Node) : Bool :=
  statement.is "expression_statement" &&
    match statement.namedChild? 0 with
    | some e => e.is "string" && moduleDirectives.contains (unquoted (e.text source))
    | none => false

/-- The offset behind the line on which an offset stands. -/
def lineEnd (source : String) (offset : Nat) : Nat :=
  let text := source.toList
  match Text.splitAtByte? offset text with
  | some (_, rest) =>
    if rest.contains '\n' then offset + Text.byteLength (rest.takeWhile (· != '\n')) + 1
    else Text.byteLength text
  | none => Text.byteLength text

/-- The end of the last directive in front of the statements, given the one found so far. Comments are
passed over, but for those that are written as in markup. -/
def directiveEndFrom (source : String) (found : Option Nat) : List Node → Option Nat
  | [] => found
  | n :: ns =>
    if n.is "comment" || n.is "hash_bang_line" then directiveEndFrom source found ns
    else if isDirective source n then
      directiveEndFrom source (some (lineEnd source n.span.stop)) ns
    else found

/-- The offset behind the line of the last leading module directive. -/
def directiveEnd? (source : String) (tree : Node) : Option Nat :=
  directiveEndFrom source none tree.namedChildren

/-- How many strings begin with a single and with a double quote. -/
structure QuoteCount where
  single : Nat
  double : Nat
deriving DecidableEq, Repr

def QuoteCount.add (a b : QuoteCount) : QuoteCount :=
  ⟨a.single + b.single, a.double + b.double⟩

/-- The count for one string. -/
def QuoteCount.ofString (source : String) (n : Node) : QuoteCount :=
  match (n.text source).toList with
  | '\'' :: _ => ⟨1, 0⟩
  | '"' :: _ => ⟨0, 1⟩
  | _ => ⟨0, 0⟩

mutual
/-- The quotes of the strings in a tree. The attributes of tags do not count. -/
def quotesIn (source : String) : Node → QuoteCount
  | .mk k r s cs =>
    let n := Node.mk k r s cs
    if n.is "jsx_attribute" then ⟨0, 0⟩
    else if n.is "string" then .ofString source n
    else quotesInAll source cs

def quotesInAll (source : String) : List Node → QuoteCount
  | [] => ⟨0, 0⟩
  | n :: ns => (quotesIn source n).add (quotesInAll source ns)
end

/-- The quote that most strings of a script begin with, the single one where they are even. -/
def quoteStyle (source : String) (tree : Node) : Char :=
  let count := quotesIn source tree
  if count.single < count.double then '"' else '\''

def showsSemicolon (n : Node) : Bool :=
  n.is "import_statement" || n.is "expression_statement" || n.is "lexical_declaration"

def usesSemicolons (source : String) (tree : Node) : Bool :=
  let telling := tree.namedChildren.filter showsSemicolon
  let ended := telling.countP fun n => (n.text source).toList.getLast? == some ';'
  telling.length - ended < ended

end Restyle.Script
