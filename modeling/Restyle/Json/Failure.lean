import Restyle.Syntax.Fault
/-!
What can be wrong with a JSON text, and where it is found.
-/

namespace Restyle.Json

/-- What is wrong with a text. -/
inductive Fault where
  | endInValue | endInList | endInObject | endInString
  | expectedColon | expectedListEnd | expectedObjectEnd | expectedWord | expectedValue
  | invalidEscape | invalidNumber | numberOutOfRange | controlCharacter | keyNotString
  | loneSurrogate | endOfHexEscape | trailingComma | trailingCharacters
  /-- A value of another type than the expected one. -/
  | wrongType (found expected : String)
  | duplicateField (name : String)
deriving DecidableEq, Repr, Inhabited

def Fault.message : Fault → String
  | endInValue => "EOF while parsing a value"
  | endInList => "EOF while parsing a list"
  | endInObject => "EOF while parsing an object"
  | endInString => "EOF while parsing a string"
  | expectedColon => "expected \x60:\x60"
  | expectedListEnd => "expected \x60,\x60 or \x60]\x60"
  | expectedObjectEnd => "expected \x60,\x60 or \x60\x7d\x60"
  | expectedWord => "expected ident"
  | expectedValue => "expected value"
  | invalidEscape => "invalid escape"
  | invalidNumber => "invalid number"
  | numberOutOfRange => "number out of range"
  | controlCharacter => "control character (\\u0000-\\u001F) found while parsing a string"
  | keyNotString => "key must be a string"
  | loneSurrogate => "lone leading surrogate in hex escape"
  | endOfHexEscape => "unexpected end of hex escape"
  | trailingComma => "trailing comma"
  | trailingCharacters => "trailing characters"
  | wrongType found expected => s!"invalid type: {found}, expected {expected}"
  | duplicateField name => "duplicate field \x60" ++ name ++ "\x60"

/-- A fault at a byte offset. -/
structure Failure where
  fault : Fault
  offset : Nat
deriving DecidableEq, Repr, Inhabited

/-- What is said of a failure in a text: the fault with its line and the bytes before it there. -/
def Failure.message (source : String) (f : Failure) : String :=
  let (line, column) := Syntax.lineColumn f.offset source.toList
  s!"{f.fault.message} at line {line} column {column - 1}"

end Restyle.Json
