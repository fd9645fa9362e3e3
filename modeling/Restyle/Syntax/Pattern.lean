import Restyle.Syntax.Tree
/-!
Grammars as data. A pattern says how a piece of source is made up and which nodes it leaves in the
tree; a grammar gives a pattern for each of its rules, together with what may stand between tokens.
-/

namespace Restyle.Syntax

/-- A kind of token. `scan` gives the number of characters that the token takes at the front of a
text, zero where it does not stand there. -/
structure Lexeme where
  kind : Kind
  scan : List Char → Nat

/-- How a piece of source is made up. Choices are ordered: the first alternative that fits is
taken. -/
inductive Pattern (Rule : Type) where
  /-- Nothing at all. -/
  | nothing
  /-- A token, after anything that may stand between tokens. -/
  | token (l : Lexeme)
  /-- A token that follows directly. -/
  | attached (l : Lexeme)
  /-- One pattern after another. -/
  | both (p q : Pattern Rule)
  /-- The first pattern, or else the second. -/
  | either (p q : Pattern Rule)
  /-- Any number of repetitions. -/
  | many (p : Pattern Rule)
  /-- A head that grows to the right: each tail that follows closes all since the head into a node
  of the given category. -/
  | chain (head : Pattern Rule) (tails : List (String × Pattern Rule))
  /-- A head that exactly one of the tails must follow, closing all since the head into a node. -/
  | ending (head : Pattern Rule) (tails : List (String × Pattern Rule))
  /-- The last node passes a test; nothing is taken. -/
  | last (test : Node → Bool)
  /-- A rule of the grammar. -/
  | rule (r : Rule)
  /-- A node of a category over what the pattern takes. -/
  | node (name : String) (p : Pattern Rule)
  /-- The nodes that the pattern leaves play a role in their parent. -/
  | role (r : Role) (p : Pattern Rule)
  /-- The pattern does not stand here; nothing is taken. -/
  | absent (p : Pattern Rule)
  /-- The text up to the next token passes a test; nothing is taken. -/
  | ahead (test : List Char → Bool)
  /-- The end of a statement: a semicolon, or a place where one is understood. -/
  | semicolon
  /-- No semicolon is understood here. -/
  | sameStatement
  /-- Inside brackets (`true`) no semicolon is understood; inside a body (`false`) one may be. -/
  | bracketed (inside : Bool) (p : Pattern Rule)

/-- A grammar: its rules, its comments, where a semicolon is understood, and how a text that fits
nowhere falls into tokens. -/
structure Grammar (Rule : Type) where
  /-- The rule that a whole source follows. -/
  root : Rule
  /-- The category of a whole source. -/
  rootName : String
  rules : Rule → Pattern Rule
  /-- Characters that may stand between tokens. -/
  isBlank : Char → Bool
  /-- The number of characters of the comment at the front of a text. -/
  comment : List Char → Nat
  /-- The number of characters of the comment as markup writes it at the front of a text. Behind an
  operand its marks are operators. -/
  htmlComment : List Char → Nat
  /-- Whether a rule stands for an operand, after which an operator may follow. -/
  isOperand : Rule → Bool
  /-- Whether a semicolon is understood at the front of a text, after an operand or not. -/
  semicolonUnderstood : (afterOperand : Bool) → List Char → Bool
  /-- The number of characters of the token that begins a text which fits nowhere. -/
  stray : List Char → Nat

namespace Pattern

variable {Rule : Type}

/-- All patterns, one after the other. -/
def seq : List (Pattern Rule) → Pattern Rule
  | [] => nothing
  | [p] => p
  | p :: ps => both p (seq ps)

/-- The first pattern that fits. -/
def choice : List (Pattern Rule) → Pattern Rule
  | [] => absent nothing
  | [p] => p
  | p :: ps => either p (choice ps)

/-- The pattern, if it stands here. -/
def optional (p : Pattern Rule) : Pattern Rule := either p nothing

/-- The pattern at least once. -/
def many1 (p : Pattern Rule) : Pattern Rule := both p (many p)

/-- Repetitions with separators between them. -/
def separated1 (sep p : Pattern Rule) : Pattern Rule := both p (many (both sep p))

/-- Repetitions with separators between them, or nothing. -/
def separated (sep p : Pattern Rule) : Pattern Rule := optional (separated1 sep p)

end Pattern

end Restyle.Syntax
