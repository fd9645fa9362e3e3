import Restyle.Sheet.Table
/-!
The style that a list of class tokens resolves to, and its text as the body of a template.
-/

namespace Restyle.Sheet

/-- The declarations of some tokens by context, the free context first, and the tokens that the
table does not know. -/
structure ResolvedStyle where
  groups : List (Context × Declarations)
  dropped : List String
deriving DecidableEq, Repr, Inhabited

namespace ResolvedStyle

def addEntry (e : Entry) : List (Context × Declarations) → List (Context × Declarations)
  | [] => [(e.context, Declarations.putAll [] e.declarations)]
  | (c, ds) :: gs =>
    if c == e.context then (c, ds.putAll e.declarations) :: gs else (c, ds) :: addEntry e gs

def freeFirst (groups : List (Context × Declarations)) : List (Context × Declarations) :=
  groups.filter (fun g => g.1 == Context.free) ++ groups.filter (fun g => g.1 != Context.free)

/-- The groups of the entries of all known tokens, in order of first appearance. -/
def gather (t : StyleTable) (tokens : List String) : List (Context × Declarations) :=
  (tokens.flatMap t.lookup).foldl (fun gs e => addEntry e gs) []

def resolve (t : StyleTable) (tokens : List String) : ResolvedStyle where
  groups := freeFirst (gather t tokens)
  dropped := tokens.filter fun token => (t.lookup token).isEmpty

def base? (s : ResolvedStyle) : Option Declarations :=
  match s.groups with
  | (c, ds) :: _ => if c.isFree then some ds else none
  | [] => none

/-- Whether nothing was found. -/
def isEmpty (s : ResolvedStyle) : Bool := s.groups.isEmpty

def line (depth : Nat) (text : String) : String :=
  String.join (List.replicate depth "  ") ++ text ++ "\n"

/-- The text of declarations inside blocks with the given headers. -/
def nest (declarations : Declarations) : Nat → List String → String
  | depth, [] => String.join (declarations.map fun (p, v) => line depth (p ++ ": " ++ v ++ ";"))
  | depth, h :: hs =>
    line depth (h ++ " \x7b") ++ nest declarations (depth + 1) hs ++ line depth "\x7d"

/-- The text of a style, group by group. -/
def toCss (s : ResolvedStyle) : String :=
  String.join (s.groups.map fun (c, ds) => nest ds 1 c.blockHeaders)

end ResolvedStyle

end Restyle.Sheet
