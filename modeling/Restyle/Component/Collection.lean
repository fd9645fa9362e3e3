import Restyle.Component.Naming
import Restyle.Markup.Scan
import Restyle.Sheet.Resolved
/-!
Styled components made from the class attributes of elements, one for each attribute text of a
file.
-/

namespace Restyle.Component

open Markup (Element)
open Sheet (StyleTable ResolvedStyle)

/-- A component that replaces the elements of a file whose class attribute has a given text. -/
structure Styled where
  name : String
  file : Path
  companion : Path
  classNames : String
  tag : String
  constructor : String
  css : String
deriving DecidableEq, Repr, Inhabited

def Styled.definition (c : Styled) : String :=
  "export const " ++ c.name ++ " = " ++ c.constructor ++ "`\n" ++ c.css ++ "`\n"

/-- The expression that makes a styled element of a tag: a member for elements of the platform, a
call for components. -/
def constructorFor (tag : String) : String :=
  if Markup.isIntrinsicTag tag then "styled." ++ tag else "styled(" ++ tag ++ ")"

/-- The components in the order of their creation. -/
abbrev Collection := List Styled

namespace Collection

def isOf (file : Path) (c : Styled) : Bool := c.file.same file

def forFile (cs : Collection) (file : Path) : List Styled :=
  cs.filter (isOf file)

def find? (cs : Collection) (file : Path) (classNames : String) : Option Styled :=
  List.find? (fun c => isOf file c && c.classNames == classNames) cs

def addToGroup (c : Styled) : List (Path × List Styled) → List (Path × List Styled)
  | [] => [(c.companion, [c])]
  | (p, group) :: groups =>
    if p.same c.companion then (p, group ++ [c]) :: groups else (p, group) :: addToGroup c groups

/-- The components grouped by companion file, in order of first appearance. -/
def byCompanion (cs : Collection) : List (Path × List Styled) :=
  cs.foldl (fun groups c => addToGroup c groups) []

end Collection

/-- What the elements of a file gave: the names of new components, the number of elements that
found theirs already made, and the tokens that no style is known for. -/
structure FileSynthesis where
  created : List String
  reused : Nat
  droppedTokens : List String
deriving DecidableEq, Repr, Inhabited

/-- How components are made: from which styles, and with which ending of their names. -/
structure Synthesizer where
  table : StyleTable
  suffix : String

namespace Synthesizer

/-- The component for an element of a file that has `occurrence` components already, and the tokens
that no style is known for. -/
def make (s : Synthesizer) (file : Path) (occurrence : Nat) (e : Element) :
    Styled × List String :=
  let style := ResolvedStyle.resolve s.table e.classes.tokens
  ({ name := componentName s.suffix file occurrence
     file := file
     companion := companionPath file
     classNames := e.classes.value
     tag := e.tag
     constructor := constructorFor e.tag
     css := style.toCss }, style.dropped)

/-- Takes one element into account. -/
def step (s : Synthesizer) (file : Path) (state : FileSynthesis × Collection) (e : Element) :
    FileSynthesis × Collection :=
  let (outcome, collection) := state
  if (collection.find? file e.classes.value).isSome then
    ({ outcome with reused := outcome.reused + 1 }, collection)
  else
    let (component, dropped) := s.make file (collection.forFile file).length e
    ({ outcome with
        created := outcome.created ++ [component.name]
        droppedTokens := outcome.droppedTokens ++ dropped },
      collection ++ [component])

def synthesizeFile (s : Synthesizer) (file : Path) (elements : List Element)
    (collection : Collection) : FileSynthesis × Collection :=
  elements.foldl (s.step file) (⟨[], 0, []⟩, collection)

end Synthesizer

end Restyle.Component
