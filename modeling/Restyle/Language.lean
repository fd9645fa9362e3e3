import Restyle.Text.Case
import Restyle.Script.Grammar
import Restyle.Sheet.Grammar
/-!
The languages of source files: how a file name tells the language, and the syntax trees of scripts.
-/

namespace Restyle

/-- A language of source files. -/
inductive Language where
  | javaScript | jsx | typeScript | tsx | css
deriving DecidableEq, Repr, Inhabited

namespace Language

def name : Language → String
  | javaScript => "JavaScript"
  | jsx => "Jsx"
  | typeScript => "TypeScript"
  | tsx => "Tsx"
  | css => "Css"

def all : List Language := [javaScript, jsx, typeScript, tsx, css]

def ofName? (name : String) : Option Language :=
  all.find? fun l => l.name == name

/-- The language of files with an extension, or the extension in lower case where there is none.
Dots before the extension do not count. -/
def ofExtension (extension : String) : Except String Language :=
  let lowered := String.ofList (Text.lower (extension.toList.dropWhile (· == '.')))
  match lowered with
  | "js" | "mjs" | "cjs" => .ok javaScript
  | "jsx" => .ok jsx
  | "ts" | "mts" | "cts" => .ok typeScript
  | "tsx" => .ok tsx
  | "css" => .ok css
  | other => .error other

/-- What is said of an extension that tells no language. -/
def unsupportedMessage (extension : String) : String :=
  "Unsupported language: " ++ extension

def hasMarkup : Language → Bool
  | javaScript | jsx | tsx => true
  | typeScript | css => false

def parse (l : Language) (source : String) : Syntax.Node :=
  let text := source.toList
  match l with
  | javaScript | jsx => Syntax.parse (Script.grammar ⟨false, true⟩) text
  | typeScript => Syntax.parse (Script.grammar ⟨true, false⟩) text
  | tsx => Syntax.parse (Script.grammar ⟨true, true⟩) text
  | css => Sheet.parse text

end Language

end Restyle
