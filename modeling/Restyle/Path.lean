/-!
Paths of files as they are written, and the components that they name.
-/

namespace Restyle

/-- One step of a path. -/
inductive Component where
  | root | current | parent | name (s : String)
deriving DecidableEq, Repr, Inhabited

def Component.text : Component → String
  | root => "/"
  | current => "."
  | parent => ".."
  | name s => s

/-- A path as written. -/
structure Path where
  text : String
deriving DecidableEq, Repr, Inhabited

namespace Path

/-- The number of characters before the first name: a slash, or a leading dot of its own. -/
def headLength : List Char → Nat
  | '/' :: _ => 1
  | ['.'] => 1
  | '.' :: '/' :: _ => 1
  | _ => 0

/-- The segments between slashes. -/
def split : List Char → List (List Char)
  | [] => [[]]
  | c :: cs =>
    if c == '/' then [] :: split cs
    else match split cs with
      | s :: ss => (c :: s) :: ss
      | [] => [[c]]

/-- The text of segments with slashes between them. -/
def join : List (List Char) → List Char
  | [] => []
  | [s] => s
  | s :: ss => s ++ '/' :: join ss

/-- The segments behind the head of a path. -/
def segments (p : Path) : List (List Char) :=
  let text := p.text.toList
  split (text.drop (headLength text))

/-- The head of a path: a slash, a dot or nothing. -/
def head (p : Path) : List Char :=
  let text := p.text.toList
  text.take (headLength text)

/-- Whether a segment names nothing: an empty one, or a dot. -/
def isIdle (s : List Char) : Bool := s.isEmpty || s == ['.']

def componentOf (s : List Char) : Component :=
  if s == ['.', '.'] then .parent else .name (String.ofList s)

/-- The components of a path. Repeated slashes and dots that are not in front name nothing. -/
def components (p : Path) : List Component :=
  (match p.head with
    | ['/'] => [Component.root]
    | ['.'] => [Component.current]
    | _ => []) ++
  (p.segments.filter (!isIdle ·)).map componentOf

def same (p q : Path) : Bool := p.components == q.components

def isAbsolute (p : Path) : Bool := p.text.toList.head? == some '/'

/-- A path without trailing segments that name nothing. -/
def dropIdle (ss : List (List Char)) : List (List Char) :=
  (ss.reverse.dropWhile isIdle).reverse

/-- The path without its last component. -/
def parent? (p : Path) : Option Path :=
  match (dropIdle p.segments).reverse with
  | _ :: before => some ⟨String.ofList (p.head ++ join (dropIdle before.reverse))⟩
  | [] => if p.head == ['.'] then some ⟨""⟩ else none

/-- A path put below another. An absolute path stands for itself. -/
def push (p q : Path) : Path :=
  if q.isAbsolute then q
  else
    let text := p.text.toList
    if text.isEmpty || text.getLast? == some '/' then ⟨p.text ++ q.text⟩
    else ⟨p.text ++ "/" ++ q.text⟩

/-- The last component, where it is a name. -/
def fileName? (p : Path) : Option String :=
  match p.components.getLast? with
  | some (.name s) => some s
  | _ => none

/-- A name cut at its last dot: what stands before it and after it. A name without a dot, or with
none but the one in front, has no second part. -/
def cutAtDot (name : String) : String × Option String :=
  let back := name.toList.reverse
  let after := back.takeWhile (· != '.')
  let rest := (back.drop after.length).drop 1
  if rest.isEmpty then (name, none)
  else (String.ofList rest.reverse, some (String.ofList after.reverse))

/-- The file name without its extension. -/
def stem? (p : Path) : Option String := p.fileName?.map fun n => (cutAtDot n).1

def extension? (p : Path) : Option String := p.fileName?.bind fun n => (cutAtDot n).2

def withFileName (p : Path) (name : String) : Path :=
  match p.fileName?, p.parent? with
  | some _, some q => q.push ⟨name⟩
  | _, _ => p.push ⟨name⟩

def ofComponents (cs : List Component) : Path :=
  cs.foldl (fun p c => p.push ⟨c.text⟩) ⟨""⟩

/-- Follows components from the ones passed so far, last one first. A step to the parent takes back
whatever stands last, and nothing where nothing stands. -/
def follow : List Component → List Component → List Component
  | passed, [] => passed.reverse
  | passed, .current :: cs => follow passed cs
  | passed, .parent :: cs => follow passed.tail cs
  | passed, c :: cs => follow (c :: passed) cs

/-- The path without dots, each step to a parent taken. The path need not exist. -/
def normalize (p : Path) : Path := ofComponents (follow [] p.components)

def startsWith (p base : Path) : Bool := base.components.isPrefixOf p.components

/-- The segments behind the first `n` names. -/
def dropNames : Nat → List (List Char) → List (List Char)
  | 0, ss => ss.dropWhile isIdle
  | _ + 1, [] => []
  | n + 1, s :: ss => if isIdle s then dropNames (n + 1) ss else dropNames n ss

/-- What follows a base in a path, as it is written there. -/
def relativeTo? (p base : Path) : Option Path :=
  if !p.startsWith base then none
  else if base.components.isEmpty then
    some ⟨String.ofList (p.head ++ join (dropIdle p.segments))⟩
  else
    let names := base.components.length - p.head.length
    some ⟨String.ofList (join (dropIdle (dropNames names p.segments)))⟩

/-- The path and its parents, the longest first, as long as there are at most `n`. -/
def ancestorsWithin : Nat → Path → List Path
  | 0, _ => []
  | n + 1, p =>
    p :: match p.parent? with
      | some q => ancestorsWithin n q
      | none => []

/-- The path and its parents, the longest first. -/
def ancestors (p : Path) : List Path := ancestorsWithin (p.text.length + 2) p

end Path

end Restyle
