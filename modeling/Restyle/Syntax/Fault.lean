import Restyle.Syntax.Tree
/-!
The faults of a syntax tree: where it has errors and missing tokens, with the text around them.
-/

namespace Restyle.Syntax

/-- A fault with its line and column, counted from one in lines and bytes, the text around it, and
the name of the node. -/
structure Fault where
  line : Nat
  column : Nat
  context : String
  nodeKind : String
deriving DecidableEq, Repr, Inhabited

def contextMargin : Nat := 30

/-- The line and the column of a place `left` bytes further on in a text, from a known line and
column. -/
def positionFrom (left line column : Nat) : List Char → Nat × Nat
  | [] => (line, column)
  | c :: cs =>
    if left < c.utf8Size then (line, column + left)
    else if c == '\n' then positionFrom (left - 1) (line + 1) 1 cs
    else positionFrom (left - c.utf8Size) line (column + c.utf8Size) cs

/-- The line of an offset and its column in bytes, both counted from one. -/
def lineColumn (offset : Nat) (source : List Char) : Nat × Nat := positionFrom offset 1 1 source

/-- The text of a span with a margin on each side, not cut inside a character. -/
def contextOf (source : List Char) (span : Span) : String :=
  let start := Text.floorBoundary source (span.start - contextMargin)
  let stop := Text.ceilBoundary source (span.stop + contextMargin)
  String.ofList (Text.slice ⟨start, stop⟩ source)

def Node.fault (source : List Char) (n : Node) : Fault :=
  let (line, column) := lineColumn n.span.start source
  ⟨line, column, contextOf source n.span, n.kind.name⟩

mutual
/-- The faults at a node and below it, in document order. Subtrees without a fault are passed
over. -/
def Node.faults (source : List Char) : Node → List Fault
  | .mk k r s cs =>
    let here := Node.mk k r s cs
    (if here.isError || here.isMissing then [here.fault source] else [])
      ++ faultsOf source cs

def faultsOf (source : List Char) : List Node → List Fault
  | [] => []
  | n :: ns =>
    (if n.hasFault || n.isMissing then n.faults source else []) ++ faultsOf source ns
end

/-- The faults of a whole tree, in document order. -/
def faults (tree : Node) (source : List Char) : List Fault :=
  if tree.hasFault then tree.faults source else []

end Restyle.Syntax
