import Restyle.Shell.Lexeme
/-!
Reading shell scripts from their tokens.
-/

namespace Restyle.Shell

/-- The word of a token that stands for itself where a command begins. -/
def Token.reserved? : Token → Option String
  | .word [.plain cs] =>
    let s := String.ofList cs
    if ["if", "then", "elif", "else", "fi", "while", "until", "do", "done", "for", "case", "esac",
        "\x7b", "\x7d", "!"].contains s
    then some s else none
  | _ => none

/-- Whether a list of commands ends before a token. -/
def Token.endsList (t : Token) : Bool :=
  match t, t.reserved? with
  | .operator ")", _ | .operator ";;", _ => true
  | _, some s => ["then", "elif", "else", "fi", "do", "done", "esac", "\x7d"].contains s
  | _, none => false

/-- The tokens behind the ends of lines at the front. -/
def skipLines (ts : List Token) : List Token := ts.dropWhile (· == .endOfLine)

/-- The tokens behind the ends of lines and semicolons at the front. -/
def skipSeparators (ts : List Token) : List Token :=
  ts.dropWhile fun t => t == .endOfLine || t == .operator ";"

/-- The tokens behind a reserved word, where it stands at the front. -/
def expectWord (s : String) : List Token → Option (List Token)
  | t :: ts => if t.reserved? == some s then some ts else none
  | [] => none

def assignment? : Word → Option (String × Word)
  | .plain cs :: w =>
    let name := cs.takeWhile isNamePart
    match cs.drop name.length with
    | '=' :: value =>
      if name.isEmpty || name.head?.any Char.isDigit then none
      else some (String.ofList name, if value.isEmpty then w else .plain value :: w)
    | _ => none
  | _ => none

/-- The parts of a simple command read so far, last ones first. -/
structure Parts where
  assigned : List (String × Word) := []
  words : List Word := []
  redirections : List Redirection := []
deriving Inhabited

def redirections : Nat → List Token → List Redirection × List Token
  | fuel + 1, .redirect n d :: .word w :: ts =>
    let (rs, rest) := redirections fuel ts
    (⟨n, d, w⟩ :: rs, rest)
  | _, ts => ([], ts)

def redirectedBy (c : Command) (rs : List Redirection) : Command :=
  if rs.isEmpty then c else .redirected c rs

def simpleParts : Nat → Parts → List Token → Parts × List Token
  | fuel + 1, p, .redirect n d :: .word w :: ts =>
    simpleParts fuel { p with redirections := ⟨n, d, w⟩ :: p.redirections } ts
  | fuel + 1, p, .word w :: ts =>
    match p.words.isEmpty, assignment? w with
    | true, some a => simpleParts fuel { p with assigned := a :: p.assigned } ts
    | _, _ => simpleParts fuel { p with words := w :: p.words } ts
  | _, p, ts => (p, ts)

/-- The alternatives of one pattern line of a selection, up to the closing parenthesis. -/
def alternatives : Nat → List Token → Option (List Word × List Token)
  | fuel + 1, .word w :: .operator "|" :: ts => do
    let (ws, rest) ← alternatives fuel ts
    return (w :: ws, rest)
  | _ + 1, .word w :: .operator ")" :: ts => some ([w], ts)
  | _, _ => none

/-- The words before the end of a line or a semicolon. -/
def wordsBefore : List Token → List Word × List Token
  | .word w :: ts => let (ws, rest) := wordsBefore ts; (w :: ws, rest)
  | ts => ([], ts)

mutual
/-- A list of commands, up to its end. -/
def readList : Nat → List Token → Option (Command × List Token)
  | 0, _ => none
  | fuel + 1, ts =>
    match skipSeparators ts with
    | [] => some (.nothing, [])
    | t :: ts =>
      if t.endsList then some (.nothing, t :: ts)
      else do
        let (first, rest) ← readChain fuel (t :: ts)
        match rest with
        | .endOfLine :: more | .operator ";" :: more | .operator "&" :: more => do
          let (second, rest) ← readList fuel more
          return (.both first second, rest)
        | _ => return (first, rest)

def readChain : Nat → List Token → Option (Command × List Token)
  | 0, _ => none
  | fuel + 1, ts => do
    let (first, rest) ← readPipeline fuel ts
    readLinks fuel first rest

/-- The conditions and pipelines that follow a first one. -/
def readLinks : Nat → Command → List Token → Option (Command × List Token)
  | 0, _, _ => none
  | fuel + 1, first, ts =>
    match ts with
    | .operator "&&" :: more => do
      let (second, rest) ← readPipeline fuel (skipLines more)
      readLinks fuel (.andThen first second) rest
    | .operator "||" :: more => do
      let (second, rest) ← readPipeline fuel (skipLines more)
      readLinks fuel (.orElse first second) rest
    | _ => some (first, ts)

/-- Commands whose outputs feed the next. -/
def readPipeline : Nat → List Token → Option (Command × List Token)
  | 0, _ => none
  | fuel + 1, ts =>
    match expectWord "!" ts with
    | some ts => do
      let (c, rest) ← readPipeline fuel ts
      return (.negated c, rest)
    | none => do
      let (first, rest) ← readCommand fuel ts
      match rest with
      | .operator "|" :: more => do
        let (second, rest) ← readPipeline fuel (skipLines more)
        return (.pipe first second, rest)
      | _ => return (first, rest)

def readCommand : Nat → List Token → Option (Command × List Token)
  | 0, _ => none
  | fuel + 1, ts =>
    match ts with
    | [] => none
    | .operator "(" :: more => do
      let (c, rest) ← readList fuel more
      match rest with
      | .operator ")" :: rest =>
        let (rs, rest) := redirections fuel rest
        return (redirectedBy (.subshell c) rs, rest)
      | _ => none
    | .word w :: .operator "(" :: .operator ")" :: more => do
      let (body, rest) ← readCommand fuel (skipLines more)
      match w with
      | [.plain name] => return (.define (String.ofList name) body, rest)
      | _ => none
    | t :: more =>
      match t.reserved? with
      | none =>
        let (p, rest) := simpleParts (ts.length + 1) {} ts
        if p.words.isEmpty && p.assigned.isEmpty && p.redirections.isEmpty then none
        else
          return (redirectedBy (.simple p.assigned.reverse p.words.reverse)
            p.redirections.reverse, rest)
      | some word => do
        let (c, rest) ← readCompound fuel word more
        let (rs, rest) := redirections fuel rest
        return (redirectedBy c rs, rest)

/-- A compound command behind its first word. -/
def readCompound : Nat → String → List Token → Option (Command × List Token)
  | 0, _, _ => none
  | fuel + 1, word, ts =>
    match word with
    | "\x7b" => do
      let (c, rest) ← readList fuel ts
      return (c, ← expectWord "\x7d" rest)
    | "if" => readBranches fuel ts
    | "while" => readLoop fuel false ts
    | "until" => readLoop fuel true ts
    | "for" =>
      match ts with
      | .word [.plain name] :: .word [.plain ['i', 'n']] :: more => do
        let (ws, rest) := wordsBefore more
        let rest ← expectWord "do" (skipSeparators rest)
        let (body, rest) ← readList fuel rest
        return (.each (String.ofList name) ws body, ← expectWord "done" rest)
      | .word [.plain name] :: more => do
        let rest ← expectWord "do" (skipSeparators more)
        let (body, rest) ← readList fuel rest
        return (.each (String.ofList name) [[.parameter "@" .asIs true]] body,
          ← expectWord "done" rest)
      | _ => none
    | "case" =>
      match ts with
      | .word subject :: more =>
        match skipLines more with
        | .word [.plain ['i', 'n']] :: more => do
          let (arms, rest) ← readArms fuel more
          return (.select subject arms, rest)
        | _ => none
      | _ => none
    | _ => none

/-- The branches of a condition behind its first word. -/
def readBranches : Nat → List Token → Option (Command × List Token)
  | 0, _ => none
  | fuel + 1, ts => do
    let (test, rest) ← readList fuel ts
    let (yes, rest) ← readList fuel (← expectWord "then" rest)
    match expectWord "elif" rest, expectWord "else" rest with
    | some more, _ => do
      let (no, rest) ← readBranches fuel more
      return (.choose test yes no, rest)
    | none, some more => do
      let (no, rest) ← readList fuel more
      return (.choose test yes no, ← expectWord "fi" rest)
    | none, none => return (.choose test yes .nothing, ← expectWord "fi" rest)

/-- A loop behind its first word. -/
def readLoop : Nat → Bool → List Token → Option (Command × List Token)
  | 0, _, _ => none
  | fuel + 1, untilTrue, ts => do
    let (test, rest) ← readList fuel ts
    let (body, rest) ← readList fuel (← expectWord "do" rest)
    return (.loop untilTrue test body, ← expectWord "done" rest)

/-- The arms of a selection, up to its last word. -/
def readArms : Nat → List Token → Option (List (List Word × Command) × List Token)
  | 0, _ => none
  | fuel + 1, ts =>
    let ts := skipLines ts
    match expectWord "esac" ts with
    | some rest => some ([], rest)
    | none => do
      let ts := if ts.head? == some (.operator "(") then ts.drop 1 else ts
      let (patterns, rest) ← alternatives (ts.length + 1) ts
      let (body, rest) ← readList fuel rest
      match skipLines rest with
      | .operator ";;" :: more => do
        let (arms, rest) ← readArms fuel more
        return ((patterns, body) :: arms, rest)
      | rest => return ([(patterns, body)], ← expectWord "esac" rest)
end

/-- The command that a script stands for, where it is well formed. -/
def read? (script : List Char) : Option Command :=
  let ts := tokens script
  match readList (8 * ts.length + 16) ts with
  | some (c, []) => some c
  | _ => none

end Restyle.Shell
