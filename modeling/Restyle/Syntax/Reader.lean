import Restyle.Syntax.Pattern
/-!
Reading a source by a grammar. The reader either takes the whole source and gives its tree, or says
how far it came and what it expected there. Repairs let it go on where the grammar does not: a
stretch may be passed over as an error, a token may be supplied.
-/

namespace Restyle.Syntax

/-- A departure from the grammar at a byte offset, which is the end of the token before it. -/
inductive Repair where
  /-- Passes over a stretch; its readable parts stay below the error node. -/
  | skip (at_ : Nat) (span : Span) (children : List Node)
  /-- Supplies a token that is not there. -/
  | supply (at_ : Nat) (name : String)
deriving Repr, Inhabited

def Repair.offset : Repair → Nat
  | skip n _ _ => n
  | supply n _ => n

/-- Whether a token was supplied since the last token that the source has. A supplied token must
close a rule before the reader goes on. -/
inductive Supply where
  | none | opened | closed
deriving DecidableEq, Repr

/-- The place of the reader: the text ahead, its offset, the nodes read so far, last one first, and
how many they are. `operand` tells whether an operand has just ended. -/
structure Cursor where
  rest : List Char
  offset : Nat
  stack : List Node
  height : Nat
  supply : Supply
  bracketed : Bool
  operand : Bool

/-- A place between two parts of an unfinished construct: its offset and the nodes before it. -/
structure Boundary where
  offset : Nat
  height : Nat
deriving DecidableEq, Repr

/-- One reason why the reader stopped: the token that it expected, and what it had open. -/
structure Site where
  expected : String
  /-- The end of the token before. -/
  offset : Nat
  stack : List Node
  height : Nat
  boundaries : List Boundary

/-- How far the reader came: the offset of the first token that does not fit, the text from there
on, and the reasons. -/
structure Frontier where
  reach : Nat
  rest : List Char
  sites : List Site

namespace Frontier

/-- A frontier that nothing has reached. -/
def none : Frontier := ⟨0, [], []⟩

/-- Notes that a token was expected after `before`, at the place `here`. -/
def note (f : Frontier) (expected : String) (boundaries : List Boundary) (before here : Cursor) :
    Frontier :=
  let site : Site := ⟨expected, before.offset, before.stack, before.height, boundaries⟩
  if f.sites.isEmpty || f.reach < here.offset then ⟨here.offset, here.rest, [site]⟩
  else if f.reach == here.offset then { f with sites := site :: f.sites }
  else f

end Frontier

namespace Cursor

/-- The place at the beginning of a source, behind a byte order mark. -/
def start (source : List Char) : Cursor :=
  match source with
  | '\uFEFF' :: rest => ⟨rest, 3, [], 0, .none, false, false⟩
  | rest => ⟨rest, 0, [], 0, .none, false, false⟩

def push (c : Cursor) (n : Node) : Cursor :=
  { c with stack := n :: c.stack, height := c.height + 1 }

def advance (c : Cursor) (n : Nat) : Cursor :=
  { c with rest := c.rest.drop n, offset := c.offset + Text.byteLength (c.rest.take n) }

def take (c : Cursor) (kind : Kind) (n : Nat) : Cursor :=
  let next := c.advance n
  { next.push (.mk kind none ⟨c.offset, next.offset⟩ []) with supply := .none, operand := false }

/-- A rule ends here, so a token that was supplied has closed it. -/
def settle (c : Cursor) : Cursor :=
  { c with supply := if c.supply == .opened then .closed else c.supply }

/-- Whether a node belongs to no construct: a comment or an error. -/
def isExtra (n : Node) : Bool := n.isComment || n.isError

/-- Closes the nodes above a height into one node. Comments and errors before its first token stay
outside of it. -/
def close (c : Cursor) (name : String) (height : Nat) : Cursor :=
  let parts := (c.stack.take (c.height - height)).reverse
  let outside := parts.takeWhile isExtra
  let inside := parts.dropWhile isExtra
  let span : Span := match inside.head?, inside.getLast? with
    | some first, some last => ⟨first.span.start, last.span.stop⟩
    | _, _ => ⟨c.offset, c.offset⟩
  let below := c.stack.drop (c.height - height)
  { c.settle with
    stack := .mk (.category name) none span inside :: (outside.reverse ++ below)
    height := height + outside.length + 1 }

/-- Gives the last node a role. -/
def assign (c : Cursor) (r : Role) : Cursor :=
  match c.stack with
  | n :: ns => { c with stack := n.withRole r :: ns }
  | [] => c

end Cursor

section Reading

variable {Rule : Type} (g : Grammar Rule) (repairs : List Repair) (size : Nat)

def skipAt? (offset : Nat) : Option (Span × List Node) :=
  repairs.findSome? fun
    | .skip n span children => if n == offset then some (span, children) else none
    | .supply _ _ => none

/-- Whether a repair supplies the token `name` at an offset. -/
def suppliedAt (offset : Nat) (name : String) : Bool :=
  repairs.any fun
    | .supply n t => n == offset && t == name
    | .skip _ _ _ => false

def passSkip (c : Cursor) : Cursor :=
  match skipAt? repairs c.offset with
  | some (span, children) =>
    let after := (Text.splitAtByte? (span.stop - c.offset) c.rest).map (·.2)
    { c.push (.mk .error none span children) with rest := after.getD [], offset := span.stop }
  | none => c

/-- The comment at a cursor: its category and its length. -/
def commentAhead? (c : Cursor) : Option (String × Nat) :=
  match g.comment c.rest, g.htmlComment c.rest with
  | n + 1, _ => some ("comment", n + 1)
  | 0, n + 1 => if c.operand then none else some ("html_comment", n + 1)
  | 0, 0 => none

/-- Passes over everything that may stand before a token. -/
def passTrivia : Nat → Cursor → Cursor
  | 0, c => c
  | fuel + 1, c =>
    match skipAt? repairs c.offset with
    | some _ => passTrivia fuel (passSkip repairs c)
    | none =>
      match c.rest with
      | [] => c
      | ch :: rest =>
        if g.isBlank ch then
          passTrivia fuel { c with rest := rest, offset := c.offset + ch.utf8Size }
        else
          match commentAhead? g c with
          | none => c
          | some (name, n) =>
            let next := c.advance n
            passTrivia fuel (next.push (.mk (.category name) none ⟨c.offset, next.offset⟩ []))

/-- Passes over blanks and the one comment after them. -/
def passComment? (c : Cursor) : Option Cursor :=
  let blanks := c.rest.takeWhile g.isBlank
  let here := c.advance blanks.length
  match g.comment here.rest with
  | 0 => none
  | n + 1 =>
    let next := here.advance (n + 1)
    some (next.push (.mk (.category "comment") none ⟨here.offset, next.offset⟩ []))

/-- Whether a token of `n` characters may stand at `here`, the last token having ended at `before`.
Behind a stretch that was given up, the token is the one that a text which fits nowhere begins
with. -/
def fitsBehindSkip (before here : Cursor) (n : Nat) : Bool :=
  (skipAt? repairs before.offset).isNone || n == g.stray here.rest

/-- Reads one token whose text begins at `here`, the last token having ended at `before`. -/
def readToken (l : Lexeme) (boundaries : List Boundary) (before here : Cursor) (f : Frontier) :
    Option Cursor × Frontier :=
  if before.supply == .opened then (none, f)
  else
    let n := l.scan here.rest
    if n != 0 && fitsBehindSkip g repairs before here n then (some (here.take l.kind n), f)
    else
      let name := l.kind.name
      if before.supply == .none && suppliedAt repairs before.offset name then
        let missing := Node.mk (.missing name) none ⟨before.offset, before.offset⟩ []
        (some { before.push missing with supply := .opened }, f)
      else (none, f.note name boundaries before here)

/-- A place at which a semicolon is understood, at the cursor or after comments that follow, none
of which is written as in markup. -/
def semicolonPlace? : Nat → Cursor → Option Cursor
  | 0, _ => none
  | fuel + 1, c =>
    if (skipAt? repairs c.offset).isSome then none
    else if g.semicolonUnderstood c.operand c.rest then some c
    else match passComment? g c with
      | some next => semicolonPlace? fuel next
      | none => none

def semicolonLexeme : Lexeme :=
  ⟨.token ";", fun
    | ';' :: _ => 1
    | _ => 0⟩

mutual
/-- Reads a pattern at a cursor. `fuel` bounds the depth of the reading. -/
def read : Nat → Pattern Rule → List Boundary → Cursor → Frontier → Option Cursor × Frontier
  | 0, _, _, _, f => (none, f)
  | fuel + 1, p, boundaries, c, f =>
    match p with
    | .nothing => (some c, f)
    | .token l => readToken g repairs l boundaries c (passTrivia g repairs size c) f
    | .attached l => readToken g repairs l boundaries c (passSkip repairs c) f
    | .both p q =>
      match read fuel p boundaries c f with
      | (some c', f) => read fuel q (⟨c'.offset, c'.height⟩ :: boundaries) c' f
      | (none, f) => (none, f)
    | .either p q =>
      match read fuel p boundaries c f with
      | (some c', f) => (some c', f)
      | (none, f) => read fuel q boundaries c f
    | .many p =>
      match read fuel p (⟨c.offset, c.height⟩ :: boundaries) c f with
      | (some c', f) =>
        if c'.offset == c.offset && c'.height == c.height then (some c', f)
        else read fuel (.many p) boundaries c' f
      | (none, f) => (some c, f)
    | .chain head tails =>
      match read fuel head boundaries c f with
      | (some c', f) => grow fuel tails boundaries c.height c' f
      | (none, f) => (none, f)
    | .ending head tails =>
      match read fuel head boundaries c f with
      | (some c', f) =>
        readTail fuel tails (⟨c'.offset, c'.height⟩ :: boundaries) c.height c' f
      | (none, f) => (none, f)
    | .last test => (if (c.stack.head?.any test) then some c else none, f)
    | .rule r =>
      match read fuel (g.rules r) boundaries c f with
      | (some c', f) =>
        (some { c'.settle with operand := c'.operand || g.isOperand r }, f)
      | (none, f) => (none, f)
    | .node name p =>
      match read fuel p boundaries c f with
      | (some c', f) => (some (c'.close name c.height), f)
      | (none, f) => (none, f)
    | .role r p =>
      match read fuel p boundaries c f with
      | (some c', f) => (some (c'.assign r), f)
      | (none, f) => (none, f)
    | .absent p =>
      match read fuel p boundaries c .none with
      | (some _, _) => (none, f)
      | (none, _) => (some c, f)
    | .ahead test =>
      if test (passTrivia g repairs size c).rest then (some c, f) else (none, f)
    | .semicolon =>
      if c.supply == .none then
        match semicolonPlace? g repairs size c with
        | some c' => (some { c' with operand := false }, f)
        | none =>
          readToken g repairs semicolonLexeme boundaries c (passTrivia g repairs size c) f
      else readToken g repairs semicolonLexeme boundaries c (passTrivia g repairs size c) f
    | .sameStatement =>
      if c.bracketed || (semicolonPlace? g repairs size c).isNone then (some c, f)
      else (none, f)
    | .bracketed inside p =>
      match read fuel p boundaries { c with bracketed := inside } f with
      | (some c', f) => (some { c' with bracketed := c.bracketed }, f)
      | (none, f) => (none, f)

/-- Lets a chain whose head begins at `height` grow as far as one of its tails follows. -/
def grow : Nat → List (String × Pattern Rule) → List Boundary → Nat → Cursor → Frontier →
    Option Cursor × Frontier
  | 0, _, _, _, c, f => (some c, f)
  | fuel + 1, tails, boundaries, height, c, f =>
    match readTail fuel tails (⟨c.offset, c.height⟩ :: boundaries) height c f with
    | (some c', f) => grow fuel tails boundaries height c' f
    | (none, f) => (some c, f)

/-- Reads the first tail that follows and closes it together with the head. -/
def readTail : Nat → List (String × Pattern Rule) → List Boundary → Nat → Cursor → Frontier →
    Option Cursor × Frontier
  | 0, _, _, _, _, f => (none, f)
  | _ + 1, [], _, _, _, f => (none, f)
  | fuel + 1, (name, p) :: tails, boundaries, height, c, f =>
    match read fuel p boundaries c f with
    | (some c', f) => (some { c'.close name height with operand := c.operand }, f)
    | (none, f) => readTail fuel tails boundaries height c f
end

end Reading

/-- Reads a whole source under some repairs: its tree, or how far the reader came. -/
def readWith {Rule : Type} (g : Grammar Rule) (repairs : List Repair) (source : List Char) :
    Except Frontier Node :=
  let size := source.length + 1
  let first := Cursor.start source
  match read g repairs size (120 * size + 2000) (.rule g.root) [] first .none with
  | (some c, f) =>
    let last := passTrivia g repairs size c
    if last.rest.isEmpty then
      .ok (.mk (.category g.rootName) none ⟨first.offset, last.offset⟩ last.stack.reverse)
    else .error (f.note "end" [⟨c.offset, c.height⟩] c last)
  | (none, f) => .error f

end Restyle.Syntax
