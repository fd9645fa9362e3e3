import Restyle.Syntax.Pattern
/-!
The tokens of scripts: words, numbers, strings, templates, regular expressions, the text between
markup tags, comments, and the places where a semicolon is understood.
-/

namespace Restyle.Script

open Syntax (Kind Lexeme)

def isSpaceSeparator (c : Char) : Bool :=
  let n := c.toNat
  n == 0x20 || n == 0xA0 || n == 0x1680 || (0x2000 ≤ n && n ≤ 0x200A) || n == 0x202F
    || n == 0x205F || n == 0x3000

/-- The ASCII blanks, the vertical tab among them. -/
def isPlainBlank (c : Char) : Bool :=
  c == ' ' || ('\t' ≤ c && c ≤ '\r')

def isLineEnd (c : Char) : Bool :=
  c == '\n' || c == '\u2028' || c == '\u2029'

/-- The characters that may stand between the tokens of a script. -/
def isBlank (c : Char) : Bool :=
  isPlainBlank c || isSpaceSeparator c || isLineEnd c || c == '\uFEFF' || c == '\u2060'
    || c == '\u200B'

/-- The characters that may go on in a word: all but blanks, controls and punctuation. -/
def isWordPart (c : Char) : Bool :=
  0x1F < c.toNat && !isBlank c && !":;`\"'@#.,|^&<=>+-*/\\%?!~()[]\x7b\x7d".toList.contains c

/-- The length of the Unicode escape, after its backslash, at the front of a text. -/
def unicodeEscape : List Char → Nat
  | 'u' :: '\x7b' :: cs =>
    let digits := (cs.takeWhile Text.isHexDigit).length
    if 0 < digits && (cs.drop digits).head? == some '\x7d' then digits + 3 else 0
  | 'u' :: a :: b :: c :: d :: _ =>
    if [a, b, c, d].all Text.isHexDigit then 5 else 0
  | _ => 0

/-- The number of characters that go on in a word, `fuel` being at least the length of the text. -/
def wordTail : Nat → List Char → Nat
  | 0, _ => 0
  | _ + 1, [] => 0
  | fuel + 1, c :: cs =>
    if isWordPart c then 1 + wordTail fuel cs
    else if c == '\\' then
      match unicodeEscape cs with
      | 0 => 0
      | n + 1 => n + 2 + wordTail fuel (cs.drop (n + 1))
    else 0

def word (cs : List Char) : Nat :=
  match cs with
  | [] => 0
  | c :: _ => if c.isDigit then 0 else wordTail (cs.length + 1) cs

def reservedWords : List String :=
  ["break", "case", "catch", "class", "const", "continue", "debugger", "default", "delete", "do",
   "else", "export", "extends", "finally", "for", "function", "if", "import", "in", "instanceof",
   "new", "return", "super", "switch", "this", "throw", "try", "typeof", "var", "void", "while",
   "with", "null", "true", "false", "await", "yield"]

def variableName (cs : List Char) : Nat :=
  let n := word cs
  if reservedWords.contains (String.ofList (cs.take n)) then 0 else n

/-- A name that is not a reserved word. -/
def identifier : Lexeme := ⟨.category "identifier", variableName⟩

def anyWord (category : String) : Lexeme := ⟨.category category, word⟩

def keyword (k : String) : Lexeme :=
  ⟨.token k, fun cs => if cs.take (word cs) == k.toList then k.length else 0⟩

/-- A piece of punctuation, where no longer one stands. -/
def punctuation (p : String) (longer : List String) : Lexeme :=
  ⟨.token p, fun cs =>
    if p.toList.isPrefixOf cs && !longer.any (fun l => l.toList.isPrefixOf cs)
    then p.length else 0⟩

def privateName : Lexeme :=
  ⟨.category "private_property_identifier", fun
    | '#' :: cs => match word cs with
      | 0 => 0
      | n => n + 1
    | _ => 0⟩

def digitRun (p : Char → Bool) (cs : List Char) : Nat :=
  (cs.takeWhile fun c => p c || c == '_').length

def exponent : List Char → Nat
  | e :: sign :: cs =>
    if e == 'e' || e == 'E' then
      if sign == '+' || sign == '-' then
        match digitRun Char.isDigit cs with
        | 0 => 0
        | n => n + 2
      else match digitRun Char.isDigit (sign :: cs) with
        | 0 => 0
        | n => n + 1
    else 0
  | _ => 0

def decimal (cs : List Char) : Nat :=
  let whole := digitRun Char.isDigit cs
  let rest := cs.drop whole
  let fraction := match rest with
    | '.' :: more => let n := digitRun Char.isDigit more; if whole + n == 0 then 0 else n + 1
    | _ => 0
  if whole + fraction == 0 then 0
  else
    let power := exponent (rest.drop fraction)
    let big := if ((rest.drop (fraction + power)).head? == some 'n') then 1 else 0
    whole + fraction + power + big

def numberLength (cs : List Char) : Nat :=
  match cs with
  | '0' :: base :: digits =>
    if "xXoObB".toList.contains base then
      match digitRun Text.isHexDigit digits with
      | 0 => decimal cs
      | n => n + 2 + (if (digits.drop n).head? == some 'n' then 1 else 0)
    else decimal cs
  | c :: _ => if c == '_' then 0 else decimal cs
  | [] => 0

def number : Lexeme := ⟨.category "number", numberLength⟩

/-- The number of characters of a string up to its closing quote. A line end stands in a string only
after a backslash. -/
def stringTail (quote : Char) : List Char → Nat
  | [] => 0
  | '\\' :: _ :: cs => stringTail quote cs + 2
  | c :: cs => if c == quote || c == '\n' || c == '\r' then 0 else stringTail quote cs + 1

/-- The text of a string between quotes of one kind. -/
def stringText (quote : Char) : Lexeme := ⟨.category "string_fragment", stringTail quote⟩

/-- The text of a string that is the value of an attribute: it runs to the next quote of its kind,
over line ends and backslashes. -/
def attributeText (quote : Char) : Lexeme :=
  ⟨.category "string_fragment", fun cs => (cs.takeWhile (· != quote)).length⟩

/-- The number of characters up to the next substitution or the end of a template. -/
def templateTail : List Char → Nat
  | [] => 0
  | '\\' :: _ :: cs => templateTail cs + 2
  | '$' :: '\x7b' :: _ => 0
  | c :: cs => if c == '`' then 0 else templateTail cs + 1

def templateText : Lexeme := ⟨.category "string_fragment", templateTail⟩

/-- The number of characters of a regular expression up to its closing slash. -/
def regexTail (inClass : Bool) : List Char → Nat
  | [] => 0
  | '\\' :: c :: cs => if c == '\n' then 0 else regexTail inClass cs + 2
  | c :: cs =>
    if c == '\n' || (c == '/' && !inClass) then 0
    else regexTail (if c == '[' then true else if c == ']' then false else inClass) cs + 1

/-- The text of a regular expression between its slashes. -/
def regexText : Lexeme := ⟨.category "regex_pattern", regexTail false⟩

def regexFlags : Lexeme :=
  ⟨.category "regex_flags", fun cs => (cs.takeWhile fun c => 'a' ≤ c && c ≤ 'z').length⟩

/-- The name of a tag or attribute: a word, or words joined by hyphens. -/
def markupName (category : String) : Lexeme :=
  ⟨.category category, fun cs =>
    let n := word cs
    let plain := cs.take n
    if n != 0 && plain.all (fun c => c.isAlphanum || c == '_' || c == '$')
        && (cs.drop n).head? == some '-' then
      (cs.takeWhile fun c => c.isAlphanum || c == '_' || c == '$' || c == '-').length
    else n⟩

/-- Whether text shows behind a line feed (`true`) or elsewhere. -/
def showsBehind (fresh : Bool) : List Char → Bool
  | [] => false
  | c :: cs =>
    if c == '\n' then showsBehind true cs
    else if fresh && isPlainBlank c then showsBehind true cs
    else true

/-- Whether blanks between tags count as text: those that no line feed begins do. -/
def isVisibleText (cs : List Char) : Bool := showsBehind false cs

/-- The text between markup tags. -/
def markupText : Lexeme :=
  ⟨.category "jsx_text", fun cs =>
    let run := cs.takeWhile fun c => !"<>\x7b\x7d&".toList.contains c
    if isVisibleText run then run.length else 0⟩

/-- A character reference between markup tags. -/
def characterReference : Lexeme :=
  ⟨.category "html_character_reference", fun
    | '&' :: cs =>
      let body := cs.takeWhile (· != ';')
      let fits := match body with
        | '#' :: x :: ds =>
          if x == 'x' || x == 'X' then !ds.isEmpty && ds.length ≤ 6 && ds.all Text.isHexDigit
          else (x :: ds).length ≤ 5 && (x :: ds).all Char.isDigit
        | ds => !ds.isEmpty && ds.length ≤ 30 && ds.all Char.isAlpha
      if fits && body.length < cs.length then body.length + 2 else 0
    | _ => 0⟩

/-- The first line of a program that names its interpreter. -/
def hashBang : Lexeme :=
  ⟨.category "hash_bang_line", fun
    | '#' :: '!' :: cs => 2 + (cs.takeWhile (· != '\n')).length
    | _ => 0⟩

/-- The number of characters up to and with the end of a block comment. -/
def blockCommentTail : List Char → Option Nat
  | [] => none
  | '*' :: '/' :: _ => some 2
  | _ :: cs => (blockCommentTail cs).map (· + 1)

def comment : List Char → Nat
  | '/' :: '/' :: cs => 2 + (cs.takeWhile fun c => !isLineEnd c && c != '\r').length
  | '/' :: '*' :: cs => ((blockCommentTail cs).map (· + 2)).getD 0
  | _ => 0

/-- A comment as markup begins or ends it runs to the end of its line. -/
def htmlComment : List Char → Nat
  | '<' :: '!' :: '-' :: '-' :: cs => 4 + (cs.takeWhile fun c => !isLineEnd c).length
  | '-' :: '-' :: '>' :: cs => 3 + (cs.takeWhile fun c => !isLineEnd c).length
  | _ => 0

/-- The characters before which a new line does not end a statement. -/
def goesOnWith (cs : List Char) : Bool :=
  match cs with
  | [] => false
  | c :: rest =>
    if "`,:;*%><=[(?^|&/".toList.contains c then true
    else if c == '.' then !(rest.head?.any Char.isDigit)
    else if c == '+' then rest.head? != some '+'
    else if c == '-' then rest.head? != some '-'
    else if c == '!' then rest.head? == some '='
    else if "in".toList.isPrefixOf cs then
      let after := rest.drop 1
      if "stanceof".toList.isPrefixOf after then !((after.drop 8).head?.any Char.isAlpha)
      else !(after.head?.any Char.isAlpha)
    else false

/-- A text behind its blanks and comments, `fuel` being at least its length. -/
def behindComments : Nat → List Char → List Char
  | 0, cs => cs
  | fuel + 1, cs =>
    let cs := cs.dropWhile isPlainBlank
    match comment cs with
    | 0 => cs
    | n + 1 => behindComments fuel (cs.drop (n + 1))

def endsLine (cs : List Char) : Bool :=
  !goesOnWith (behindComments (cs.length + 1) cs)

/-- `semicolonUnderstood` for a text of at most `fuel` characters; `commented` tells that a comment
was just passed. -/
def understoodWithin (afterOperand : Bool) : Nat → (commented : Bool) → List Char → Bool
  | 0, _, _ => false
  | fuel + 1, commented, cs =>
    match cs with
    | [] => !commented
    | c :: more =>
      if c == '\x7d' then true
      else if isLineEnd c then endsLine more
      else if isPlainBlank c then understoodWithin afterOperand fuel false more
      else if commented then false
      else
        match comment cs with
        | 0 => false
        | n + 1 =>
          let after := cs.drop (n + 1)
          let separate := !afterOperand && after.head? != some ',' && after.head? != some '='
          if "/*".toList.isPrefixOf cs then
            if after.head? == some '/' then understoodWithin afterOperand fuel false after
            else if separate && (cs.take (n + 1)).any isLineEnd then true
            else understoodWithin afterOperand fuel true after
          else
            let next := behindComments (after.length + 1) after
            if next.head? == some '/' then false
            else (!afterOperand && next.head? != some ',' && next.head? != some '=')
              || next.head? == some '\x7d'

/-- Whether a statement ends at the front of a text although no semicolon is written there: at the
end, before a closing brace, or before a new line that does not go on with the statement. After an
operand a line comment hides the new line behind it. -/
def semicolonUnderstood (afterOperand : Bool) (cs : List Char) : Bool :=
  understoodWithin afterOperand (cs.length + 1) false cs

/-- The operators and brackets of scripts, longer ones first. -/
def operators : List String :=
  [">>>=", "...", "===", "!==", "**=", "<<=", ">>=", ">>>", "&&=", "||=", "??=", "=>", "==", "!=",
   "<=", ">=", "&&", "||", "??", "?.", "++", "--", "+=", "-=", "*=", "/=", "%=", "&=", "|=", "^=",
   "<<", ">>", "**", "</", "/>"]

def stray (cs : List Char) : Nat :=
  match cs with
  | '#' :: '!' :: rest => 2 + (rest.takeWhile (· != '\n')).length
  | _ =>
    match word cs with
    | 0 =>
      match numberLength cs with
      | 0 => ((operators.find? fun o => o.toList.isPrefixOf cs).map String.length).getD 1
      | n => n
    | n => n

end Restyle.Script
