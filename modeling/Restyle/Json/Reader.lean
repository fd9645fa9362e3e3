import Restyle.Json.Failure
/-!
Reading JSON texts from left to right. A value is read as the type that is expected of it, and the
first departure from the expectation is the failure of the whole.
-/

namespace Restyle.Json

/-- A place in a text: the characters ahead and the bytes behind. -/
structure Place where
  rest : List Char
  offset : Nat
deriving DecidableEq, Repr, Inhabited

abbrev Reader (α : Type) := Place → Except Failure (α × Place)

namespace Place

def start (source : String) : Place := ⟨source.toList, 0⟩

/-- The place behind the next character. -/
def next (p : Place) : Place :=
  match p.rest with
  | [] => p
  | c :: cs => ⟨cs, p.offset + c.utf8Size⟩

/-- The place behind a number of characters. -/
def skip (p : Place) (n : Nat) : Place :=
  ⟨p.rest.drop n, p.offset + Text.byteLength (p.rest.take n)⟩

/-- The place behind the blanks. -/
def skipBlanks (p : Place) : Place :=
  p.skip (p.rest.takeWhile fun c => c == ' ' || c == '\n' || c == '\t' || c == '\r').length

def fail {α : Type} (p : Place) (f : Fault) : Except Failure α := .error ⟨f, p.offset⟩

def failAhead {α : Type} (p : Place) (f : Fault) : Except Failure α :=
  .error ⟨f, if p.rest.isEmpty then p.offset else p.offset + 1⟩

end Place

def readWord : List Char → Reader Unit
  | [], p => .ok ((), p)
  | c :: cs, p =>
    match p.rest with
    | [] => p.fail .endInValue
    | d :: _ => if c == d then readWord cs p.next else p.failAhead .expectedWord

def readHex : Reader Nat := fun p =>
  let four := p.rest.take 4
  if four.length == 4 && four.all Text.isHexDigit then
    .ok (four.foldl (fun n c => 16 * n + Text.hexValue c) 0, p.skip 4)
  else if 4 ≤ Text.byteLength four then .error ⟨.invalidEscape, p.offset + 4⟩
  else .error ⟨.endInString, p.offset + Text.byteLength p.rest⟩

/-- Reads one character that has to stand at a place inside an escape. -/
def readEscaped (c : Char) : Reader Unit := fun p =>
  match p.rest with
  | [] => p.fail .endInString
  | d :: _ => if c == d then .ok ((), p.next) else p.failAhead .endOfHexEscape

/-- The character of an escape by its number. Numbers of surrogates come in pairs. -/
def readCodePoint : Reader Char := fun p => do
  let (high, p) ← readHex p
  if 0xDC00 ≤ high && high ≤ 0xDFFF then p.fail .loneSurrogate
  else if high < 0xD800 || 0xDBFF < high then return (Char.ofNat high, p)
  else
    let ((), p) ← readEscaped '\\' p
    let ((), p) ← readEscaped 'u' p
    let (low, p) ← readHex p
    if low < 0xDC00 || 0xDFFF < low then p.fail .loneSurrogate
    else return (Char.ofNat (0x10000 + (high - 0xD800) * 1024 + (low - 0xDC00)), p)

/-- The character that a letter stands for behind a backslash. -/
def shortEscape? : Char → Option Char
  | '"' => some '"'
  | '\\' => some '\\'
  | '/' => some '/'
  | 'b' => some '\x08'
  | 'f' => some '\x0c'
  | 'n' => some '\n'
  | 'r' => some '\r'
  | 't' => some '\t'
  | _ => none

/-- The character of an escape behind its backslash. -/
def readEscape : Reader Char := fun p =>
  match p.rest with
  | [] => p.fail .endInString
  | 'u' :: _ => readCodePoint p.next
  | c :: _ =>
    match shortEscape? c with
    | some e => .ok (e, p.next)
    | none => p.failAhead .invalidEscape

/-- Reads a string behind its opening quote, from the characters so far, last one first. -/
def readChars : Nat → List Char → Reader String
  | 0, _, p => p.fail .endInString
  | fuel + 1, seen, p =>
    match p.rest with
    | [] => p.fail .endInString
    | '"' :: _ => .ok (String.ofList seen.reverse, p.next)
    | '\\' :: _ => do
      let (c, p) ← readEscape p.next
      readChars fuel (c :: seen) p
    | c :: _ => if c < ' ' then p.failAhead .controlCharacter else readChars fuel (c :: seen) p.next

/-- Reads a string behind its opening quote. -/
def readQuoted : Reader String := fun p => readChars (p.rest.length + 1) [] p

/-- Passes over a string behind its opening quote. -/
def passChars : Nat → Reader Unit
  | 0, p => p.fail .endInString
  | fuel + 1, p =>
    match p.rest with
    | [] => p.fail .endInString
    | '"' :: _ => .ok ((), p.next)
    | '\\' :: 'u' :: _ => do
      let (_, p) ← readHex (p.skip 2)
      passChars fuel p
    | '\\' :: _ => do
      let (_, p) ← readEscape p.next
      passChars fuel p
    | c :: _ => if c < ' ' then p.fail .controlCharacter else passChars fuel p.next

/-- Passes over a string behind its opening quote. -/
def passQuoted : Reader Unit := fun p => passChars (p.rest.length + 1) p

/-- Expects the end of a text behind blanks. -/
def readEnd : Reader Unit := fun p =>
  let p := p.skipBlanks
  if p.rest.isEmpty then .ok ((), p) else p.failAhead .trailingCharacters

end Restyle.Json
