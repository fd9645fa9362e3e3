import Restyle.Syntax.Pattern
/-!
The tokens of stylesheets.
-/

namespace Restyle.Sheet

open Syntax (Lexeme)

/-- Blanks between tokens. -/
def isBlank (c : Char) : Bool := c == ' ' || ('\t' ≤ c && c ≤ '\r')

/-- The characters of Latin-1 beyond ASCII that may stand in an identifier. -/
def isLatinLetter (c : Char) : Bool := 0xA0 ≤ c.toNat && c.toNat ≤ 0xFF

def isIdentifierStart (c : Char) : Bool := c.isAlpha || c == '_' || isLatinLetter c

def isIdentifierPart (c : Char) : Bool := isIdentifierStart c || c.isDigit || c == '-'

def identifierLength : List Char → Nat
  | '-' :: '-' :: cs => 2 + (cs.takeWhile isIdentifierPart).length
  | '-' :: c :: cs =>
    if isIdentifierStart c then 2 + (cs.takeWhile isIdentifierPart).length else 0
  | c :: cs => if isIdentifierStart c then 1 + (cs.takeWhile isIdentifierPart).length else 0
  | [] => 0

def identifier (category : String) : Lexeme := ⟨.category category, identifierLength⟩

def keyword (k : String) : Lexeme :=
  ⟨.token k, fun cs => if cs.take (identifierLength cs) == k.toList then k.length else 0⟩

/-- A piece of punctuation, where no longer one stands. -/
def punctuation (p : String) (longer : List String) : Lexeme :=
  ⟨.token p, fun cs =>
    if p.toList.isPrefixOf cs && !longer.any (fun l => l.toList.isPrefixOf cs)
    then p.length else 0⟩

/-- A sign of arithmetic. Before a digit or a word, plus and minus belong to what follows. -/
def arithmeticSign : Lexeme :=
  ⟨.token "+", fun
    | c :: cs =>
      if c == '*' || c == '/' then 1
      else if c == '+' || c == '-' then
        if cs.head?.any fun d => isIdentifierPart d || d == '.' then 0 else 1
      else 0
    | [] => 0⟩

def atKeywordLength : List Char → Nat
  | '@' :: cs =>
    match (cs.takeWhile fun c => c.isAlpha || c == '-' || c == '_').length with
    | 0 => 0
    | n => n + 1
  | _ => 0

def atKeyword : Lexeme := ⟨.category "at_keyword", atKeywordLength⟩

def atWord (k : String) : Lexeme :=
  ⟨.token k, fun cs => if cs.take (atKeywordLength cs) == k.toList then k.length else 0⟩

/-- An at-keyword that ends in `keyframes`. -/
def keyframesWord : Lexeme :=
  ⟨.token "@keyframes", fun cs =>
    let n := atKeywordLength cs
    if "keyframes".toList.isSuffixOf (cs.take n) then n else 0⟩

/-- The text of a string on one line. -/
def stringText (quote : Char) : Lexeme :=
  ⟨.category "string_content", fun cs => (cs.takeWhile fun c => c != quote && c != '\n').length⟩

def color : Lexeme :=
  ⟨.category "color_value", fun
    | '#' :: cs =>
      let n := (cs.takeWhile Text.isHexDigit).length
      if n < 3 then 0 else min n 8 + 1
    | _ => 0⟩

/-- The length of a number without its sign. -/
def magnitude (cs : List Char) : Nat :=
  let whole := (cs.takeWhile Char.isDigit).length
  let rest := cs.drop whole
  let fraction := match rest with
    | '.' :: more => let n := (more.takeWhile Char.isDigit).length; if n == 0 then 0 else n + 1
    | _ => 0
  let exponent := match rest.drop fraction with
    | e :: '-' :: more =>
      let n := (more.takeWhile Char.isDigit).length
      if (e == 'e' || e == 'E') && n != 0 then n + 2 else 0
    | e :: more =>
      let n := (more.takeWhile Char.isDigit).length
      if (e == 'e' || e == 'E') && n != 0 then n + 1 else 0
    | [] => 0
  if whole + fraction == 0 then 0 else whole + fraction + exponent

def number : Lexeme :=
  ⟨.category "integer_value", fun cs =>
    let (sign, rest) : Nat × List Char := match cs with
      | c :: more => if c == '+' || c == '-' then (1, more) else (0, cs)
      | [] => (0, [])
    match magnitude rest with
    | 0 => 0
    | n => sign + n + ((rest.drop n).takeWhile fun c => c.isAlpha || c == '%').length⟩

def endsPlain (c : Char) : Bool :=
  isBlank c || ",;!\x7b\x7d()[]".toList.contains c

/-- The characters that go on in a plain value. A slash stands there before anything but a star or
an end. -/
def plainTail : List Char → Nat
  | [] => 0
  | '/' :: c :: cs => if c == '*' || endsPlain c then 0 else plainTail cs + 2
  | c :: cs => if c == '/' || endsPlain c then 0 else plainTail cs + 1

/-- The length of the plain value at the front of a text: one that has a letter behind any hyphens,
underscores and slashes. -/
def plainLength : List Char → Nat
  | [] => 0
  | '/' :: c :: cs =>
    if c == '*' || endsPlain c then 0
    else match plainLength cs with
      | 0 => 0
      | n => n + 2
  | c :: cs =>
    if c.isAlpha then 1 + plainTail cs
    else if c == '-' || c == '_' then
      match plainLength cs with
      | 0 => 0
      | n => n + 1
    else 0

/-- A value made of plain characters, or an identifier. -/
def plain : Lexeme :=
  ⟨.category "plain_value", fun cs => max (plainLength cs) (identifierLength cs)⟩

/-- Whether a block opens before the rule or declaration at the front of a text ends. -/
def opensBlock : List Char → Bool
  | [] => false
  | c :: cs =>
    if c == ';' || c == '\x7d' then false else if c == '\x7b' then true else opensBlock cs

def descent : Lexeme :=
  ⟨.token " ", fun cs =>
    let n := (cs.takeWhile isBlank).length
    match cs.drop n with
    | [] => 0
    | c :: more =>
      if "#.[-*".toList.contains c || c.isAlphanum then n
      else if c == ':' && !(more.head?.any isBlank) && opensBlock more then n
      else 0⟩

def pseudoColon : Lexeme :=
  ⟨.token ":", fun
    | ':' :: cs => if cs.head? == some ':' || !opensBlock cs then 0 else 1
    | _ => 0⟩

/-- The colon of a declaration. One that a block follows is the colon of a pseudo-class. -/
def declarationColon : Lexeme :=
  ⟨.token ":", fun cs =>
    if pseudoColon.scan cs == 0 then (punctuation ":" ["::"]).scan cs else 0⟩

/-- The number of characters up to and with the end of a comment. -/
def commentTail : List Char → Option Nat
  | [] => none
  | '*' :: '/' :: _ => some 2
  | _ :: cs => (commentTail cs).map (· + 1)

def comment : List Char → Nat
  | '/' :: '*' :: cs => ((commentTail cs).map (· + 2)).getD 0
  | '/' :: '/' :: cs => 2 + (cs.takeWhile fun c => c != '\n').length
  | _ => 0

def stray (cs : List Char) : Nat :=
  match identifierLength cs, number.scan cs, atKeywordLength cs with
  | 0, 0, 0 => if "::".toList.isPrefixOf cs then 2 else 1
  | a, b, c => max a (max b c)

end Restyle.Sheet
