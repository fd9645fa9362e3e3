import Restyle.Text
/-!
Patterns over texts: the ones of shell words, where a star stands for any text, and the ones of
line searches, where a star repeats what stands before it.
-/

namespace Restyle.Shell

/-- A test of one character, with the text behind it in the pattern. -/
abbrev CharTest := Char → Bool

/-- The ranges of a bracket expression, up to its closing bracket. -/
def bracketRanges : List Char → Option (List (Char × Char) × List Char)
  | [] => none
  | ']' :: rest => some ([], rest)
  | a :: '-' :: b :: rest =>
    if b == ']' then some ([(a, a), ('-', '-')], rest)
    else (bracketRanges rest).map fun (rs, more) => ((a, b) :: rs, more)
  | a :: rest => (bracketRanges rest).map fun (rs, more) => ((a, a) :: rs, more)

/-- The test of a bracket expression behind its opening bracket. -/
def bracketTest? (cs : List Char) : Option (CharTest × List Char) :=
  let (negated, inside) : Bool × List Char := match cs with
    | '!' :: rest | '^' :: rest => (true, rest)
    | _ => (false, cs)
  let found : Option (List (Char × Char) × List Char) := match inside with
    | ']' :: rest => (bracketRanges rest).map fun (rs, more) => ((']', ']') :: rs, more)
    | _ => bracketRanges inside
  found.map fun (rs, rest) =>
    (fun c => (rs.any fun (a, b) => a ≤ c && c ≤ b) != negated, rest)

/-- A part of a shell pattern. -/
inductive GlobPart where
  | anyText
  | one (test : CharTest)

def globParts : Nat → List (Char × Bool) → List GlobPart
  | 0, _ => []
  | _ + 1, [] => []
  | fuel + 1, (c, inQuotes) :: rest =>
    let literal := GlobPart.one (· == c)
    if inQuotes then literal :: globParts fuel rest
    else if c == '*' then .anyText :: globParts fuel rest
    else if c == '?' then .one (fun _ => true) :: globParts fuel rest
    else if c == '[' then
      match bracketTest? (rest.map (·.1)) with
      | some (test, more) => .one test :: globParts fuel (rest.drop (rest.length - more.length))
      | none => literal :: globParts fuel rest
    else literal :: globParts fuel rest

def globFits : List GlobPart → List Char → Bool
  | [], cs => cs.isEmpty
  | .one test :: ps, c :: cs => test c && globFits ps cs
  | .one _ :: _, [] => false
  | .anyText :: ps, cs => (List.range (cs.length + 1)).any fun n => globFits ps (cs.drop n)

def fits (pattern : List (Char × Bool)) (cs : List Char) : Bool :=
  globFits (globParts pattern.length pattern) cs

/-- A character of a search pattern, and how often it may stand there. -/
structure SearchPart where
  test : CharTest
  optional : Bool
  repeated : Bool

/-- Gives the last part of a search pattern another number of repetitions. -/
def repeatLast (optional repeated : Bool) : List SearchPart → List SearchPart
  | p :: ps => { p with optional := optional, repeated := repeated } :: ps
  | [] => []

/-- The parts of a search pattern, last one first. `extended` tells whether plus and question mark
have a meaning of their own. -/
def searchParts (extended : Bool) : Nat → List SearchPart → List Char → List SearchPart
  | 0, parts, _ => parts
  | _ + 1, parts, [] => parts
  | fuel + 1, parts, c :: cs =>
    if c == '\\' then
      match cs with
      | e :: rest => searchParts extended fuel (⟨(· == e), false, false⟩ :: parts) rest
      | [] => parts
    else if c == '.' then searchParts extended fuel (⟨fun _ => true, false, false⟩ :: parts) cs
    else if c == '*' && !parts.isEmpty then
      searchParts extended fuel (repeatLast true true parts) cs
    else if c == '+' && extended then searchParts extended fuel (repeatLast false true parts) cs
    else if c == '?' && extended then searchParts extended fuel (repeatLast true false parts) cs
    else if c == '[' then
      match bracketTest? cs with
      | some (test, rest) => searchParts extended fuel (⟨test, false, false⟩ :: parts) rest
      | none => searchParts extended fuel (⟨(· == '['), false, false⟩ :: parts) cs
    else searchParts extended fuel (⟨(· == c), false, false⟩ :: parts) cs

/-- Whether the parts of a search pattern fit the front of a text, or all of it. -/
def searchFits (toEnd : Bool) : List SearchPart → List Char → Bool
  | [], cs => !toEnd || cs.isEmpty
  | p :: ps, cs =>
    let run := (cs.takeWhile p.test).length
    let least := if p.optional then 0 else 1
    let most := if p.repeated then run else min run 1
    (List.range (most + 1)).any fun n => least ≤ n && searchFits toEnd ps (cs.drop n)

/-- Whether a search pattern is found in a line. A caret binds it to the front of the line, a dollar
sign to the end. -/
def isFound (extended : Bool) (pattern line : List Char) : Bool :=
  let (fromStart, p) : Bool × List Char := match pattern with
    | '^' :: rest => (true, rest)
    | _ => (false, pattern)
  let toEnd := p.getLast? == some '$'
  let p := if toEnd then p.dropLast else p
  let parts := (searchParts extended (p.length + 1) [] p).reverse
  let starts := if fromStart then [0] else List.range (line.length + 1)
  starts.any fun n => searchFits toEnd parts (line.drop n)

end Restyle.Shell
