import Restyle.Text
/-!
Edits of a text by byte ranges. A set of edits is accepted for a source when each stands at whole
characters inside it and no two overlap; they are applied from the last to the first.
-/

namespace Restyle

/-- A replacement of a byte range by a text. Of insertions at one place the one of lower priority
comes first. -/
structure Edit where
  span : Span
  replacement : String
  label : String
  priority : Int
deriving DecidableEq, Repr, Inhabited

namespace Edit

def replace (span : Span) (replacement label : String) : Edit := ⟨span, replacement, label, 0⟩

def insert (offset : Nat) (text label : String) : Edit := replace ⟨offset, offset⟩ text label

def delete (span : Span) (label : String) : Edit := replace span "" label

def withPriority (e : Edit) (priority : Int) : Edit := { e with priority := priority }

/-- Whether an edit only inserts. -/
def isInsertion (e : Edit) : Bool := e.span.start == e.span.stop

/-- The order in which edits stand in a set: by start, then end, then priority. -/
def le (a b : Edit) : Bool :=
  a.span.start < b.span.start || (a.span.start == b.span.start &&
    (a.span.stop < b.span.stop || (a.span.stop == b.span.stop && a.priority ≤ b.priority)))

/-- The text with the range of the edit replaced, where the text has that range. -/
def splice? (e : Edit) (text : List Char) : Option (List Char) := do
  let (before, rest) ← Text.splitAtByte? e.span.start text
  let (_, after) ← Text.splitAtByte? e.span.length rest
  return before ++ e.replacement.toList ++ after

end Edit

/-- Why edits do not go together with a source. -/
inductive EditConflict where
  | overlapping (a b : Edit)
  | outOfBounds (e : Edit) (sourceLength : Nat)
  | splitsCharacter (e : Edit) (offset : Nat)
deriving DecidableEq, Repr

def EditConflict.message : EditConflict → String
  | overlapping a b =>
    s!"Edits overlap: '{a.label}' [{a.span.start}..{a.span.stop}) and " ++
      s!"'{b.label}' [{b.span.start}..{b.span.stop})"
  | outOfBounds e n =>
    s!"Edit '{e.label}' byte range [{e.span.start}..{e.span.stop}) is outside a {n}-byte source"
  | splitsCharacter e offset =>
    s!"Edit '{e.label}' splits a UTF-8 character at byte {offset}"

/-- Edits in the order in which they stand in a source. -/
structure EditSet where
  edits : List Edit
deriving DecidableEq, Repr

namespace EditSet

def misplaced? (source : List Char) (e : Edit) : Option EditConflict :=
  let n := Text.byteLength source
  if e.span.stop < e.span.start || n < e.span.stop then some (.outOfBounds e n)
  else if !Text.isBoundary e.span.start source then some (.splitsCharacter e e.span.start)
  else if !Text.isBoundary e.span.stop source then some (.splitsCharacter e e.span.stop)
  else none

/-- The first two neighbours that overlap. -/
def overlap? : List Edit → Option EditConflict
  | a :: b :: es =>
    if a.isInsertion && b.isInsertion && a.span.start == b.span.start then overlap? (b :: es)
    else if b.span.start < a.span.stop then some (.overlapping a b)
    else overlap? (b :: es)
  | _ => none

/-- The set of some edits, where they go together with the source. -/
def ofList (edits : List Edit) (source : String) : Except EditConflict EditSet :=
  let sorted := edits.mergeSort Edit.le
  match sorted.findSome? (misplaced? source.toList), overlap? sorted with
  | some conflict, _ => .error conflict
  | none, some conflict => .error conflict
  | none, none => .ok ⟨sorted⟩

/-- A text with all edits applied, the last one first, where each finds its range. -/
def applied? (s : EditSet) (text : List Char) : Option (List Char) :=
  s.edits.foldr (fun e rest => rest.bind e.splice?) (some text)

def apply (s : EditSet) (source : String) : String :=
  match s.applied? source.toList with
  | some text => String.ofList text
  | none => source

def size (s : EditSet) : Nat := s.edits.length

/-- Whether there is no edit. -/
def isEmpty (s : EditSet) : Bool := s.edits.isEmpty

end EditSet

end Restyle
