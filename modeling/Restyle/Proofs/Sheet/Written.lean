import Restyle.Sheet.Selector
/-!
Selectors as they are written: names with every kind of escape, simple selectors, pseudo-classes
with arguments, and combinators with blanks around them. A selector has a text, and a class that it
stands for if it is one class with at most a chain of pseudo-classes behind it.
-/

namespace Restyle.Sheet.Written

/-- A character of a name as it is written: by itself, behind a backslash, or by its number, with
the blank that may end the number. -/
inductive Glyph where
  | plain (c : Char)
  | escaped (c : Char)
  | numbered (digits ending : List Char)
deriving DecidableEq, Repr

namespace Glyph

def text : Glyph → List Char
  | plain c => [c]
  | escaped c => ['\\', c]
  | numbered digits ending => '\\' :: (digits ++ ending)

/-- The blanks that can end a number. -/
def endings : List (List Char) := [[], [' '], ['\t'], ['\n'], ['\x0c'], ['\r'], ['\r', '\n']]

def number (digits : List Char) : Nat := digits.foldl (fun n d => 16 * n + Text.hexValue d) 0

def isExact (digits : List Char) : Bool := number digits != 0 && decide (number digits).isValidChar

/-- The character that a glyph stands for. Numbers of no character stand for the replacement
character, and so does zero. -/
def value : Glyph → Char
  | plain c | escaped c => c
  | numbered digits _ =>
    if isExact digits then Char.ofNat (number digits) else '\uFFFD'

def fits : Glyph → Bool
  | plain c => isIdentChar c && !Text.isBlank c
  | escaped c => !Text.isHexDigit c
  | numbered digits ending =>
    !digits.isEmpty && decide (digits.length ≤ 6) && digits.all Text.isHexDigit
      && endings.contains ending

/-- Whether a text may go on behind a glyph: a number goes as far as it can, and takes the first
blank behind it. -/
def precedes (after : List Char) : Glyph → Bool
  | numbered digits [] =>
    !after.head?.any Text.isAsciiBlank
      && (digits.length == 6 || !after.head?.any Text.isHexDigit)
  | _ => true

def textOf (gs : List Glyph) : List Char := gs.flatMap text

/-- Whether glyphs may stand one behind another, in front of a text. -/
def allFit (after : List Char) : List Glyph → Bool
  | [] => true
  | g :: gs => g.fits && g.precedes (textOf gs ++ after) && allFit after gs

end Glyph

structure Name where
  glyphs : List Glyph
  some_glyph : glyphs ≠ []
  fit : Glyph.allFit [] glyphs = true

namespace Name

def text (n : Name) : List Char := Glyph.textOf n.glyphs

def value (n : Name) : List Char := n.glyphs.map Glyph.value

/-- Whether a blank behind a name would belong to it. -/
def isOpen (n : Name) : Bool := n.glyphs.getLast?.any (!·.precedes [' '])

end Name

inductive Sign where
  | child | adjacent | sibling
deriving DecidableEq, Repr

def Sign.mark : Sign → Char
  | child => '>'
  | adjacent => '+'
  | sibling => '~'

/-- A combinator with the blanks around it; blanks alone are one, too. -/
inductive Joint where
  | blank (first : Char) (others : List Char)
      (blanks : (first :: others).all Text.isAsciiBlank = true)
  | signed (before : List Char) (sign : Sign) (behind : List Char)
      (blanks : (before ++ behind).all Text.isAsciiBlank = true)
deriving DecidableEq, Repr

def Joint.text : Joint → List Char
  | blank first others _ => first :: others
  | signed before sign behind _ => before ++ sign.mark :: behind

def colons (element : Bool) : List Char := if element then [':', ':'] else [':']

inductive Element where
  | named (name : Name)
  | universal

namespace Element

def text : Element → List Char
  | named name => name.text
  | universal => ['*']

def isOpen : Element → Bool
  | named name => name.isOpen
  | universal => false

end Element

/-- The type of an element, perhaps in a namespace or in none. -/
structure ElementType where
  scope : Option (Option Element)
  element : Element

def ElementType.text (t : ElementType) : List Char :=
  match t.scope with
  | none => t.element.text
  | some none => '|' :: t.element.text
  | some (some e) => e.text ++ '|' :: t.element.text

structure Numeral where
  digits : List Char
  some_digit : digits ≠ []
  fit : digits.all Char.isDigit = true
deriving DecidableEq, Repr

def plusOrMinus (plus : Bool) : List Char := if plus then ['+'] else ['-']

/-- Where the counting of positions begins, as it stands behind the step. -/
structure Offset where
  before : List Char
  plus : Bool
  behind : List Char
  start : Numeral
  blanks : (before ++ behind).all Text.isAsciiBlank = true
deriving DecidableEq, Repr

def Offset.text (o : Offset) : List Char :=
  o.before ++ (plusOrMinus o.plus ++ (o.behind ++ o.start.digits))

/-- The positions that a pseudo-class stands for. -/
inductive Formula where
  | even
  | odd
  | single (sign : Option Bool) (position : Numeral)
  | every (sign : Option Bool) (step : Option Numeral) (offset : Option Offset)
deriving DecidableEq, Repr

def Formula.text : Formula → List Char
  | even => ['e', 'v', 'e', 'n']
  | odd => ['o', 'd', 'd']
  | single sign position => (sign.map plusOrMinus).getD [] ++ position.digits
  | every sign step offset =>
    (sign.map plusOrMinus).getD [] ++ ((step.map Numeral.digits).getD [] ++ 'n' ::
      (offset.map Offset.text).getD [])

/-- Whether a text may stand between quotes: the quote and the end of a line do only behind a
backslash. -/
def staysQuoted (quote : Char) : List Char → Bool
  | [] => true
  | [c] => c != quote && c != '\\' && c != '\n'
  | c :: d :: cs =>
    if c == '\\' then staysQuoted quote cs
    else c != quote && c != '\n' && staysQuoted quote (d :: cs)

def quoteOf (double : Bool) : Char := if double then '"' else '\''

/-- What stands among the arguments of a pseudo-class and is neither a simple selector nor a
combinator. -/
inductive Plain where
  | type (t : ElementType)
  | formula (f : Formula)
  | comma (before behind : List Char) (blanks : (before ++ behind).all Text.isAsciiBlank = true)
  | quoted (double : Bool) (inside : List Char) (fits : staysQuoted (quoteOf double) inside = true)

def Plain.text : Plain → List Char
  | type t => t.text
  | formula f => f.text
  | comma before behind _ => before ++ ',' :: behind
  | quoted double inside _ => quoteOf double :: (inside ++ [quoteOf double])

mutual

/-- Simple selectors other than those of an element's type. -/
inductive Simple where
  | ofClass (name : Name)
  | ofId (name : Name)
  | ofAttribute (inside : List Char)
  | nesting
  | pseudo (element : Bool) (name : Name)
  | function (element : Bool) (name : Name) (arguments : List Part)

inductive Part where
  | simple (s : Simple)
  | joint (j : Joint)
  | plain (p : Plain)

end

mutual

def Simple.text : Simple → List Char
  | .ofClass name => '.' :: name.text
  | .ofId name => '#' :: name.text
  | .ofAttribute inside => '[' :: (inside ++ [']'])
  | .nesting => ['&']
  | .pseudo element name => colons element ++ name.text
  | .function element name arguments =>
    colons element ++ (name.text ++ '(' :: (Part.textOf arguments ++ [')']))

def Part.text : Part → List Char
  | .simple s => s.text
  | .joint j => j.text
  | .plain p => p.text

def Part.textOf : List Part → List Char
  | [] => []
  | p :: ps => p.text ++ Part.textOf ps

end

mutual

/-- Whether a simple selector is no class, id or attribute, and holds none and no combinator. -/
def Simple.isFree : Simple → Bool
  | .ofClass _ | .ofId _ | .ofAttribute _ => false
  | .nesting | .pseudo _ _ => true
  | .function _ _ arguments => Part.allFree arguments

def Part.isFree : Part → Bool
  | .simple s => s.isFree
  | .joint _ => false
  | .plain _ => true

def Part.allFree : List Part → Bool
  | [] => true
  | p :: ps => p.isFree && Part.allFree ps

end

namespace Simple

def isPseudo : Simple → Bool
  | pseudo .. | function .. => true
  | ofClass _ | ofId _ | ofAttribute _ | nesting => false

def isNesting : Simple → Bool
  | nesting => true
  | ofClass _ | ofId _ | ofAttribute _ | pseudo .. | function .. => false

def isOpen : Simple → Bool
  | ofClass name | ofId name | pseudo _ name => name.isOpen
  | ofAttribute _ | nesting | function .. => false

end Simple

structure Compound where
  type : Option ElementType
  simples : List Simple
  some_simple : type.isSome = true ∨ simples ≠ []

namespace Compound

def text (c : Compound) : List Char :=
  (c.type.map ElementType.text).getD [] ++ c.simples.flatMap Simple.text

def isOpen (c : Compound) : Bool :=
  match c.simples.getLast? with
  | some s => s.isOpen
  | none => c.type.any (·.element.isOpen)

end Compound

/-- Whether no combinator begins with a blank that belongs to what stands before. -/
def separated : Compound → List (Joint × Compound) → Bool
  | _, [] => true
  | c, (j, d) :: more => !(c.isOpen && j.text.head?.any Text.isAsciiBlank) && separated d more

structure Selector where
  first : Compound
  others : List (Joint × Compound)
  apart : separated first others = true

namespace Selector

def joinedText (others : List (Joint × Compound)) : List Char :=
  others.flatMap fun o => o.1.text ++ o.2.text

def text (s : Selector) : List Char := s.first.text ++ joinedText s.others

def pseudoOf (chain : List Simple) : Option String :=
  if chain.isEmpty then none else some (String.ofList (chain.flatMap Simple.text))

/-- The class of a selector that is one class, with pseudo-classes whose arguments hold no class,
id, attribute or combinator. -/
def class? (s : Selector) : Option ClassSelector :=
  match s.first.type, s.first.simples, s.others with
  | none, .ofClass name :: chain, [] =>
    if chain.all fun p => p.isPseudo && p.isFree then
      some ⟨String.ofList name.value, pseudoOf chain⟩
    else none
  | _, _, _ => none

end Selector

end Restyle.Sheet.Written
