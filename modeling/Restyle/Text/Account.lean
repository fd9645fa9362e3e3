import Restyle.Text.Case
/-!
Accounts of values: how a value is shown with the names of its parts. A text in it stands in double
quotes, with quotes, backslashes and characters without a visible form escaped.
-/

namespace Restyle.Text

def isVisible (c : Char) : Bool :=
  if c.toNat < 127 then 32 ≤ c.toNat
  else !(inRanges hiddenRanges c.toNat) && !(inRanges extenderRanges c.toNat)

/-- A character as it stands between quotes. -/
def quoteChar (c : Char) : List Char :=
  match c with
  | '\x00' => "\\0".toList
  | '\t' => "\\t".toList
  | '\r' => "\\r".toList
  | '\n' => "\\n".toList
  | '"' => "\\\"".toList
  | '\\' => "\\\\".toList
  | c => if isVisible c then [c] else "\\u".toList ++ ['\x7b'] ++ hexDigits c.toNat ++ ['\x7d']

def quoted (s : String) : String :=
  String.ofList (['"'] ++ s.toList.flatMap quoteChar ++ ['"'])

end Restyle.Text

namespace Restyle

/-- A value by its parts. -/
inductive Account where
  | word (s : String)
  | text (s : String)
  | number (n : Int)
  | list (parts : List Account)
  /-- A named value with parts that have no names. -/
  | tuple (name : String) (parts : List Account)
  /-- A named value with named parts. -/
  | record (name : String) (parts : List (String × Account))
deriving Repr, Inhabited

namespace Account

mutual
/-- An account on one line. -/
def render : Account → String
  | word s => s
  | text s => Text.quoted s
  | number n => toString n
  | list parts => "[" ++ ", ".intercalate (renderAll parts) ++ "]"
  | tuple name parts => name ++ "(" ++ ", ".intercalate (renderAll parts) ++ ")"
  | record name parts => name ++ " \x7b " ++ ", ".intercalate (renderFields parts) ++ " \x7d"

def renderAll : List Account → List String
  | [] => []
  | a :: as => a.render :: renderAll as

def renderFields : List (String × Account) → List String
  | [] => []
  | (name, a) :: rest => (name ++ ": " ++ a.render) :: renderFields rest
end

end Account

end Restyle
