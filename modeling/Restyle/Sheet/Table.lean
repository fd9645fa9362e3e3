/-!
Style tables: the declarations that each class name stands for, in the contexts in which it applies.
-/

namespace Restyle.Sheet

/-- Where declarations apply: inside conditional at-rules, the outermost first, and narrowed by
pseudo-classes. -/
structure Context where
  atRules : List String
  pseudo : Option String
deriving DecidableEq, Repr, Inhabited

namespace Context

/-- The context without any condition. -/
def free : Context := ⟨[], none⟩

/-- Whether a context has no condition. -/
def isFree (c : Context) : Bool := c.atRules.isEmpty && c.pseudo.isNone

/-- The headers of the blocks that a context opens, the outermost first. -/
def blockHeaders (c : Context) : List String :=
  c.atRules ++ (c.pseudo.map ("&" ++ ·)).toList

end Context

/-- Properties with their values, each property once, in the order of first appearance. -/
abbrev Declarations := List (String × String)

namespace Declarations

/-- Sets a property. One that is there keeps its place and takes the new value. -/
def put (property value : String) : Declarations → Declarations
  | [] => [(property, value)]
  | (p, v) :: ds =>
    if p == property then (p, value) :: ds else (p, v) :: put property value ds

/-- Sets properties one after another. -/
def putAll (ds : Declarations) (more : List (String × String)) : Declarations :=
  more.foldl (fun ds d => ds.put d.1 d.2) ds

end Declarations

/-- Names of bookkeeping entries, which are no declarations. -/
def reservedKeys : List String := ["__rule", "__source", "__pseudo", "__scope", "__context"]

def withoutReserved (pairs : List (String × String)) : List (String × String) :=
  pairs.filter fun d => !reservedKeys.contains d.1

/-- What one class stands for in one context. -/
structure Entry where
  context : Context
  declarations : Declarations
deriving DecidableEq, Repr, Inhabited

namespace Entry

def ofPairs (context : Context) (pairs : List (String × String)) : Entry :=
  ⟨context, Declarations.putAll [] (withoutReserved pairs)⟩

def extend (e : Entry) (pairs : List (String × String)) : Entry :=
  { e with declarations := e.declarations.putAll (withoutReserved pairs) }

end Entry

/-- The entries of the classes, in the order in which the classes came up, and the number of
selectors that stand for no class. -/
structure StyleTable where
  classes : List (String × List Entry)
  skipped : Nat
deriving DecidableEq, Repr, Inhabited

namespace StyleTable

/-- The table without classes. -/
def empty : StyleTable := ⟨[], 0⟩

/-- Every entry of a class, in the order of first appearance of its context. -/
def lookup (t : StyleTable) (class_ : String) : List Entry :=
  (t.classes.lookup class_).getD []

def contains (t : StyleTable) (class_ : String) : Bool :=
  (t.classes.lookup class_).isSome

def size (t : StyleTable) : Nat := t.classes.length

/-- Whether there is no class. -/
def isEmpty (t : StyleTable) : Bool := t.classes.isEmpty

/-- Adds an entry to others: one of the same context takes its declarations in. -/
def merge (e : Entry) : List Entry → List Entry
  | [] => [e]
  | f :: fs => if f.context == e.context then f.extend e.declarations :: fs else f :: merge e fs

def mergeInto (class_ : String) (e : Entry) :
    List (String × List Entry) → List (String × List Entry)
  | [] => [(class_, [e])]
  | (c, es) :: cs => if c == class_ then (c, merge e es) :: cs else (c, es) :: mergeInto class_ e cs

def insert (t : StyleTable) (class_ : String) (e : Entry) : StyleTable :=
  { t with classes := mergeInto class_ e t.classes }

/-- Counts a selector that stands for no class. -/
def skip (t : StyleTable) : StyleTable := { t with skipped := t.skipped + 1 }

end StyleTable

end Restyle.Sheet
