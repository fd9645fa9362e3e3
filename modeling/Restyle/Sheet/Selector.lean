import Restyle.Text
/-!
Selectors of utility classes: lists of selectors, and selectors of one class with a chain of
pseudo-classes.
-/

namespace Restyle.Sheet

/-- A selector of one class: its name as written in markup, and the pseudo-classes after it with
their colons. -/
structure ClassSelector where
  class_ : String
  pseudo : Option String
deriving DecidableEq, Repr, Inhabited

def isIdentChar (c : Char) : Bool :=
  c.isAlphanum || c == '-' || c == '_' || 128 ≤ c.toNat

/-- The parts of a list between the commas that stand in no brackets and behind no backslash.
`part` is what was read of the current part, last character first. -/
def splitFrom (depth : Int) (escaped : Bool) (part : List Char) : List Char → List (List Char)
  | [] => [part.reverse]
  | c :: cs =>
    if escaped then splitFrom depth false (c :: part) cs
    else if c == '\\' then splitFrom depth true (c :: part) cs
    else if c == '(' || c == '[' then splitFrom (depth + 1) false (c :: part) cs
    else if c == ')' || c == ']' then splitFrom (depth - 1) false (c :: part) cs
    else if c == ',' && depth == 0 then part.reverse :: splitFrom depth false [] cs
    else splitFrom depth false (c :: part) cs

/-- The selectors of a list, without blanks around them; empty ones are left out. -/
def splitSelectorList (list : List Char) : List (List Char) :=
  ((splitFrom 0 false [] list).map Text.trim).filter (!List.isEmpty ·)

/-- The character of a hexadecimal number, where there is one. -/
def charOfHex? (digits : List Char) : Option Char :=
  let n := digits.foldl (fun n d => 16 * n + Text.hexValue d) 0
  if h : n.isValidChar then some (Char.ofNatAux n h) else none

/-- The hexadecimal digits at the front of a text, at most `limit` of them, and the rest. -/
def takeHex : Nat → List Char → List Char × List Char
  | limit + 1, c :: cs =>
    if Text.isHexDigit c then
      let (digits, rest) := takeHex limit cs
      (c :: digits, rest)
    else ([], c :: cs)
  | _, cs => ([], cs)

/-- The rest of a text after the space that ends a hexadecimal escape. -/
def dropSpace : List Char → List Char
  | ' ' :: cs => cs
  | cs => cs

/-- The class name at the front of a text of at most `fuel` characters, its escapes resolved, and
what follows it. There is none where a backslash ends the text or stands for no character. -/
def readClass : Nat → List Char → Option (List Char × List Char)
  | 0, _ => none
  | _ + 1, [] => some ([], [])
  | fuel + 1, c :: cs =>
    if c == '\\' then
      match cs with
      | [] => none
      | e :: rest =>
        if Text.isHexDigit e then do
          let (digits, after) := takeHex 5 rest
          let here ← charOfHex? (e :: digits)
          let (name, tail) ← readClass fuel (dropSpace after)
          return (here :: name, tail)
        else do
          let (name, tail) ← readClass fuel rest
          return (e :: name, tail)
    else if isIdentChar c then do
      let (name, tail) ← readClass fuel cs
      return (c :: name, tail)
    else some ([], c :: cs)

/-- Whether what follows a class is a chain of pseudo-classes: it begins with a colon and holds
neither blanks nor combinators nor the marks of other simple selectors. -/
def isPseudoChain : List Char → Bool
  | ':' :: cs => !(cs.any fun c => Text.isBlank c || ">+~.[#".toList.contains c)
  | _ => false

/-- The class that a selector stands for, where it is one class with at most a chain of
pseudo-classes. -/
def parseClassSelector? (selector : List Char) : Option ClassSelector :=
  match Text.trim selector with
  | '.' :: rest =>
    match readClass (rest.length + 1) rest with
    | none => none
    | some (name, tail) =>
      if name.isEmpty then none
      else if tail.isEmpty then some ⟨String.ofList name, none⟩
      else if isPseudoChain tail then some ⟨String.ofList name, some (String.ofList tail)⟩
      else none
  | _ => none

end Restyle.Sheet
