import Restyle.Language
import Restyle.Path
/-!
Scanning markup for the elements that carry class names as a plain string.
-/

namespace Restyle.Markup

open Syntax (Node)

/-- A class attribute: its text, its place, and the range that removing it takes away. -/
structure ClassAttribute where
  value : String
  span : Span
  removal : Span
deriving DecidableEq, Repr, Inhabited

def ClassAttribute.tokens (a : ClassAttribute) : List String :=
  (Text.words a.value.toList).map String.ofList

/-- An element with a class attribute. -/
structure Element where
  file : Path
  ordinal : Nat
  tag : String
  openingName : Span
  closingName : Option Span
  classes : ClassAttribute
deriving DecidableEq, Repr, Inhabited

/-- Whether a tag names an element of the platform: it begins with a small letter and has no dot. -/
def isIntrinsicTag (tag : String) : Bool :=
  match tag.toList with
  | [] => false
  | c :: cs => c.isLower && !(c :: cs).contains '.'

/-- Whether an element is one of the platform. -/
def Element.isIntrinsic (e : Element) : Bool := isIntrinsicTag e.tag

/-- The attribute that holds class names unless another is chosen. -/
def defaultClassAttribute : String := "className"

def noMarkupMessage (l : Language) : String :=
  "\"" ++ l.name ++ "\" files cannot contain markup"

def isClassAttribute (attr source : String) (n : Node) : Bool :=
  n.role == some .attribute && n.is "jsx_attribute" &&
    match n.namedChild? 0 with
    | some name => name.is "property_identifier" && name.text source == attr
    | none => false

/-- The first node that satisfies a test, together with the one before it. -/
def findWithPrevious (test : Node → Bool) (previous : Option Node) :
    List Node → Option (Option Node × Node)
  | [] => none
  | n :: ns => if test n then some (previous, n) else findWithPrevious test (some n) ns

/-- The first class attribute of an opening tag, where its value is a plain string. -/
def classAttribute? (attr source : String) (tag : Node) : Option ClassAttribute := do
  let (previous, n) ← findWithPrevious (isClassAttribute attr source) none tag.children
  let value ← n.namedChild? 1
  guard (value.is "string")
  let from_ := match previous with
    | some p => p.span.stop
    | none => n.span.start
  let raw := (value.text source).toList
  return ⟨String.ofList (raw.drop 1).dropLast, n.span, ⟨from_, n.span.stop⟩⟩

def closingName? (parent : Option Node) (tag : Node) : Option Span := do
  guard (tag.is "jsx_opening_element")
  let element ← parent
  guard (element.is "jsx_element")
  let closing ← element.childInRole? .closeTag
  let name ← closing.childInRole? .name
  return name.span

/-- The element of a tag that has a name and a plain class attribute, still without ordinal. -/
def elementOf? (attr : String) (file : Path) (source : String) (parent : Option Node)
    (tag : Node) : Option Element := do
  guard (tag.is "jsx_opening_element" || tag.is "jsx_self_closing_element")
  let name ← tag.childInRole? .name
  let classes ← classAttribute? attr source tag
  return ⟨file, 0, name.text source, name.span, closingName? parent tag, classes⟩

mutual
/-- The elements at a node and below it, in document order, still without ordinals. -/
def elementsAt (attr : String) (file : Path) (source : String) (parent : Option Node) :
    Node → List Element
  | .mk k r s cs =>
    let n := Node.mk k r s cs
    (elementOf? attr file source parent n).toList
      ++ elementsIn attr file source (some n) cs

def elementsIn (attr : String) (file : Path) (source : String) (parent : Option Node) :
    List Node → List Element
  | [] => []
  | n :: ns =>
    elementsAt attr file source parent n ++ elementsIn attr file source parent ns
end

/-- The elements with a plain class attribute in a tree, in document order. -/
def scan (attr : String) (file : Path) (source : String) (tree : Node) : List Element :=
  (elementsAt attr file source none tree).mapIdx fun i e => { e with ordinal := i }

/-- The elements of a source, or the language where it can hold none. -/
def scanSource (attr : String) (file : Path) (source : String) (l : Language) :
    Except Language (List Element) :=
  if l.hasMarkup then .ok (scan attr file source (l.parse source)) else .error l

end Restyle.Markup
