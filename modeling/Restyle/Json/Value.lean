import Restyle.Text
/-!
JSON values and their layout over several lines.
-/

namespace Restyle.Json

/-- A JSON value. Its objects keep the order of their members. -/
inductive Value where
  | null
  | bool (b : Bool)
  | number (n : Nat)
  | text (s : String)
  | list (vs : List Value)
  | object (members : List (String × Value))
deriving Repr, Inhabited

def escapeChar (c : Char) : List Char :=
  match c with
  | '"' => "\\\"".toList
  | '\\' => "\\\\".toList
  | '\x08' => "\\b".toList
  | '\x0c' => "\\f".toList
  | '\n' => "\\n".toList
  | '\r' => "\\r".toList
  | '\t' => "\\t".toList
  | c =>
    if c < ' ' then
      let digits := Text.hexDigits c.toNat
      "\\u".toList ++ List.replicate (4 - digits.length) '0' ++ digits
    else [c]

def quoteText (s : String) : String :=
  String.ofList (['"'] ++ s.toList.flatMap escapeChar ++ ['"'])

def indentation (depth : Nat) : String := String.ofList ('\n' :: List.replicate (2 * depth) ' ')

mutual
/-- A value laid out at a depth: each element of a list and each member of an object has a line of
its own. -/
def Value.layout (depth : Nat) : Value → String
  | .null => "null"
  | .bool b => if b then "true" else "false"
  | .number n => toString n
  | .text s => quoteText s
  | .list [] => "[]"
  | .list (v :: vs) =>
    "[" ++ indentation (depth + 1) ++ v.layout (depth + 1) ++ layoutElements (depth + 1) vs
      ++ indentation depth ++ "]"
  | .object [] => "\x7b\x7d"
  | .object ((k, v) :: members) =>
    "\x7b" ++ indentation (depth + 1) ++ quoteText k ++ ": " ++ v.layout (depth + 1)
      ++ layoutMembers (depth + 1) members ++ indentation depth ++ "\x7d"

/-- The elements that follow the first one. -/
def layoutElements (depth : Nat) : List Value → String
  | [] => ""
  | v :: vs => "," ++ indentation depth ++ v.layout depth ++ layoutElements depth vs

/-- The members that follow the first one. -/
def layoutMembers (depth : Nat) : List (String × Value) → String
  | [] => ""
  | (k, v) :: members =>
    "," ++ indentation depth ++ quoteText k ++ ": " ++ v.layout depth
      ++ layoutMembers depth members
end

def Value.pretty (v : Value) : String := v.layout 0

end Restyle.Json
