import Restyle.Path
import Restyle.Text.Case
/-!
Names of components and of the files that hold them.
-/

namespace Restyle.Component

/-- The ending of component names unless another is chosen. -/
def defaultSuffix : String := "Style"

def isNameChar (c : Char) : Bool :=
  Text.isAlphanumeric c || c == '_' || c == '$'

/-- The longest runs of name characters, `part` being what was read of the current one, last
character first. -/
def nameParts (part : List Char) : List Char → List (List Char)
  | [] => [part.reverse]
  | c :: cs => if isNameChar c then nameParts (c :: part) cs else part.reverse :: nameParts [] cs

/-- A word with its first character in upper case. -/
def capitalized : List Char → List Char
  | [] => []
  | c :: cs => Text.upperChar c ++ cs

/-- The words of a text joined, each with a capital. A name that would begin with a digit, or be
empty, begins with an underscore. -/
def pascalCase (stem : List Char) : List Char :=
  let joined := (nameParts [] stem).flatMap capitalized
  match joined with
  | [] => ['_']
  | c :: cs => if c.isDigit then '_' :: c :: cs else c :: cs

/-- The name of the component of a file that is created after `occurrence` others. -/
def componentName (suffix : String) (file : Path) (occurrence : Nat) : String :=
  let base := String.ofList (pascalCase ((file.stem?.getD "").toList)) ++ suffix
  if occurrence == 0 then base else base ++ toString occurrence

def companionPath (file : Path) : Path :=
  let stem := file.stem?.getD ""
  match file.extension? with
  | some e => file.withFileName (stem ++ ".style." ++ e)
  | none => file.withFileName (stem ++ ".style")

def importSpecifier (companion : Path) : String :=
  "./" ++ companion.stem?.getD ""

end Restyle.Component
