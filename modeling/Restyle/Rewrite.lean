import Restyle.Component.Collection
import Restyle.Edit
import Restyle.Script.Conventions
import Restyle.Syntax.Fault
import Restyle.Text.Account
/-!
Rewriting a file: each element with a class attribute takes the name of its component, the
attribute goes, and the components are imported. The rest of the file stays as it is.
-/

namespace Restyle

open Component (Collection Styled)
open Markup (Element)
open Syntax (Fault)

/-- Why a file cannot be rewritten. -/
inductive RewriteError where
  /-- An element has no component. -/
  | inconsistent (file : Path) (message : String)
  /-- The language of the file has no markup, although components were made for it. -/
  | noMarkup (file : Path) (language : Language) (count : Nat)
  | conflict (c : EditConflict)
  /-- The result has more faults than the source. -/
  | invalidResult (before after : Nat) (faults : List Fault)
deriving DecidableEq, Repr

def RewriteError.message : RewriteError → String
  | inconsistent file m => s!"{file.text}: {m}"
  | noMarkup file l count =>
    s!"{file.text}: {count} markup element(s) scanned but {l.name} cannot hold markup"
  | conflict c => c.message
  | invalidResult before after _ =>
    s!"Rewrite introduced syntax errors ({before} before, {after} after)"

/-- A rewritten file, the number of elements replaced, and the names imported. -/
structure Rewritten where
  content : String
  replaced : Nat
  imported : List String
deriving DecidableEq, Repr, Inhabited

namespace Rewrite

def importStatement (names : List String) (module_ : String) (quote : Char) (semicolon : Bool) :
    String :=
  "import \x7b " ++ ", ".intercalate names ++ " \x7d from " ++ quote.toString ++ module_
    ++ quote.toString ++ (if semicolon then ";" else "") ++ "\n"

/-- What is said of an element whose component is missing. -/
def missingComponent (e : Element) : String :=
  "class literal " ++ Text.quoted e.classes.value ++ " on <" ++ e.tag
    ++ "> has no synthesized component"

def elementEdits (attr : String) (e : Element) (c : Styled) : List Edit :=
  let label := e.tag ++ " -> " ++ c.name
  [Edit.replace e.openingName c.name ("open " ++ label)]
    ++ (e.closingName.map fun s => Edit.replace s c.name ("close " ++ label)).toList
    ++ [Edit.delete e.classes.removal ("drop " ++ attr)]

/-- The edits for all elements, each with the component that was made for it. -/
def editsFor (attr : String) (file : Path) (components : Collection) :
    List Element → Except RewriteError (List Edit)
  | [] => .ok []
  | e :: es =>
    match components.find? file e.classes.value with
    | none => .error (.inconsistent file (missingComponent e))
    | some c =>
      match editsFor attr file components es with
      | .ok edits => .ok (elementEdits attr e c ++ edits)
      | .error err => .error err

/-- The edit that imports the components of a file behind its directives. It comes before any edit
that begins at the same place. -/
def importEdit (source : String) (tree : Syntax.Node) (owned : List Styled) : Edit :=
  let offset := (Script.directiveEnd? source tree).getD 0
  let specifier := match owned with
    | c :: _ => Component.importSpecifier c.companion
    | [] => ""
  let statement := importStatement (owned.map (·.name)) specifier
    (Script.quoteStyle source tree) (Script.usesSemicolons source tree)
  let before := Text.slice ⟨0, offset⟩ source.toList
  let statement :=
    if offset != 0 && before.getLast? != some '\n' then "\n" ++ statement else statement
  (Edit.insert offset statement "import components").withPriority (-1)

/-- Accepts a result that has no more faults than the source had. -/
def verify (l : Language) (before : Nat) (content : String) : Except RewriteError Unit :=
  let faults := Syntax.faults (l.parse content) content.toList
  if before < faults.length then .error (.invalidResult before faults.length faults) else .ok ()

/-- Rewrites the source of a file by the components that were made for it. A file without
components stays as it is. -/
def run (attr : String) (file : Path) (source : String) (l : Language)
    (components : Collection) : Except RewriteError Rewritten := do
  let owned := components.forFile file
  if owned.isEmpty then return ⟨source, 0, []⟩
  if !l.hasMarkup then throw (.noMarkup file l owned.length)
  let tree := l.parse source
  let before := (Syntax.faults tree source.toList).length
  let elements := Markup.scan attr file source tree
  let edits ← editsFor attr file components elements
  let set ← (EditSet.ofList (edits ++ [importEdit source tree owned]) source).mapError .conflict
  let content := set.apply source
  verify l before content
  return ⟨content, elements.length, owned.map (·.name)⟩

end Rewrite

end Restyle
