import Restyle.Shell.Syntax
import Restyle.Text
/-!
The tokens of shell scripts: words with their quotes taken apart, operators and ends of lines.
-/

namespace Restyle.Shell

/-- A token of a script. -/
inductive Token where
  | word (w : Word)
  | operator (s : String)
  | endOfLine
  | redirect (stream : Nat) (direction : Direction)
deriving DecidableEq, Repr, Inhabited

/-- Characters that end a word where they are not quoted. -/
def endsWord (c : Char) : Bool := " \t\n;&|<>()".toList.contains c

def isNamePart (c : Char) : Bool := c.isAlphanum || c == '_'

/-- Adds a character to a word, in plain text or quoted. -/
def addChar (inQuotes : Bool) (c : Char) : Word → Word
  | .plain cs :: w => if inQuotes then .quoted [c] :: .plain cs :: w else .plain (cs ++ [c]) :: w
  | .quoted cs :: w => if inQuotes then .quoted (cs ++ [c]) :: w else .plain [c] :: .quoted cs :: w
  | w => (if inQuotes then .quoted [c] else .plain [c]) :: w

/-- The text up to the closing parenthesis that matches one before it, and the text behind. -/
def upToParenthesis : Nat → List Char → List Char → List Char × List Char
  | _, seen, [] => (seen.reverse, [])
  | depth, seen, '(' :: cs => upToParenthesis (depth + 1) ('(' :: seen) cs
  | 0, seen, ')' :: cs => (seen.reverse, cs)
  | depth + 1, seen, ')' :: cs => upToParenthesis depth (')' :: seen) cs
  | depth, seen, c :: cs => upToParenthesis depth (c :: seen) cs

def modifierOf : List Char → Modifier
  | [] => .asIs
  | ':' :: '-' :: text => .orElse true text
  | '-' :: text => .orElse false text
  | '#' :: '#' :: p => .withoutFront true p
  | '#' :: p => .withoutFront false p
  | '%' :: '%' :: p => .withoutEnd true p
  | '%' :: p => .withoutEnd false p
  | _ => .asIs

/-- The parameter or output that follows a dollar sign, and the text behind it. -/
def afterDollar (inQuotes : Bool) : List Char → Option (Piece × List Char)
  | '(' :: cs =>
    let (script, rest) := upToParenthesis 0 [] cs
    some (.output script inQuotes, rest)
  | '{' :: cs =>
    let inside := cs.takeWhile (· != '}')
    let rest := (cs.drop inside.length).drop 1
    match inside with
    | '#' :: c :: more => some (.parameter (String.ofList (c :: more)) .count inQuotes, rest)
    | _ =>
      let name := inside.takeWhile isNamePart
      let name := if name.isEmpty then inside.take 1 else name
      some (.parameter (String.ofList name) (modifierOf (inside.drop name.length)) inQuotes, rest)
  | c :: cs =>
    if "#*@?$!-".toList.contains c || c.isDigit then
      some (.parameter c.toString .asIs inQuotes, cs)
    else if isNamePart c then
      let name := c :: cs.takeWhile isNamePart
      some (.parameter (String.ofList name) .asIs inQuotes, (c :: cs).drop name.length)
    else none
  | [] => none

/-- Reads a word from its pieces so far, last one first. `inQuotes` tells whether double quotes are
open. -/
def readWord : Nat → Bool → Word → List Char → Word × List Char
  | 0, _, w, cs => (w.reverse, cs)
  | _ + 1, _, w, [] => (w.reverse, [])
  | fuel + 1, true, w, c :: cs =>
    if c == '"' then readWord fuel false w cs
    else if c == '$' then
      match afterDollar true cs with
      | some (piece, rest) => readWord fuel true (piece :: w) rest
      | none => readWord fuel true (addChar true c w) cs
    else if c == '\\' then
      match cs with
      | '\n' :: rest => readWord fuel true w rest
      | e :: rest =>
        if "$\"\\\x60".toList.contains e then readWord fuel true (addChar true e w) rest
        else readWord fuel true (addChar true e (addChar true c w)) rest
      | [] => readWord fuel true (addChar true c w) []
    else readWord fuel true (addChar true c w) cs
  | fuel + 1, false, w, c :: cs =>
    if endsWord c then (w.reverse, c :: cs)
    else if c == '"' then readWord fuel true (.quoted [] :: w) cs
    else if c == '\'' then
      let inside := cs.takeWhile (· != '\'')
      readWord fuel false (.quoted inside :: w) ((cs.drop inside.length).drop 1)
    else if c == '$' then
      match afterDollar false cs with
      | some (piece, rest) => readWord fuel false (piece :: w) rest
      | none => readWord fuel false (addChar false c w) cs
    else if c == '\\' then
      match cs with
      | '\n' :: rest => readWord fuel false w rest
      | e :: rest => readWord fuel false (addChar true e w) rest
      | [] => readWord fuel false (addChar false c w) []
    else readWord fuel false (addChar false c w) cs

/-- The redirection that a text begins with, given the number written before it. -/
def redirection? (number : Option Nat) : List Char → Option (Token × List Char)
  | '>' :: '>' :: cs => some (.redirect (number.getD 1) .toEndOfFile, cs)
  | '>' :: '&' :: cs => some (.redirect (number.getD 1) .copyOf, cs)
  | '>' :: '|' :: cs => some (.redirect (number.getD 1) .toFile, cs)
  | '>' :: cs => some (.redirect (number.getD 1) .toFile, cs)
  | '<' :: '&' :: cs => some (.redirect (number.getD 0) .copyOf, cs)
  | '<' :: cs => some (.redirect (number.getD 0) .fromFile, cs)
  | _ => none

def operator? : List Char → Option (String × List Char)
  | ';' :: ';' :: cs => some (";;", cs)
  | '&' :: '&' :: cs => some ("&&", cs)
  | '|' :: '|' :: cs => some ("||", cs)
  | c :: cs => if ";&|()".toList.contains c then some (c.toString, cs) else none
  | [] => none

/-- The token that a text begins with where no blank stands there, and the text behind. -/
def nextToken (cs : List Char) : Token × List Char :=
  let digits := cs.takeWhile Char.isDigit
  let numbered :=
    if digits.length == 1 then
      redirection? (some (Text.hexValue (digits.headD '0'))) (cs.drop 1)
    else none
  match numbered, redirection? none cs, operator? cs with
  | some found, _, _ => found
  | none, some found, _ => found
  | none, none, some (s, rest) => (.operator s, rest)
  | none, none, none =>
    let (w, rest) := readWord (cs.length + 1) false [] cs
    (.word w, rest)

/-- The tokens of a script, at most `fuel` many. -/
def tokensWithin : Nat → List Char → List Token
  | 0, _ => []
  | _ + 1, [] => []
  | fuel + 1, c :: cs =>
    if c == ' ' || c == '\t' then tokensWithin fuel cs
    else if c == '\n' then .endOfLine :: tokensWithin fuel cs
    else if c == '#' then tokensWithin fuel (cs.dropWhile (· != '\n'))
    else if c == '\\' && cs.head? == some '\n' then tokensWithin fuel (cs.drop 1)
    else
      let (token, rest) := nextToken (c :: cs)
      token :: tokensWithin fuel rest

def tokens (script : List Char) : List Token := tokensWithin (script.length + 1) script

end Restyle.Shell
