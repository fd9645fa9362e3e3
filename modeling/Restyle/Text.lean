/-!
Text addressed by UTF-8 byte offsets: where characters begin, cutting at an offset, and the
blank-delimited words of a text.
-/

namespace Restyle

/-- A half-open byte range of a text. -/
structure Span where
  start : Nat
  stop : Nat
deriving DecidableEq, Repr, Inhabited

namespace Text

/-- The number of bytes that a text takes in UTF-8. -/
def byteLength : List Char → Nat
  | [] => 0
  | c :: cs => c.utf8Size + byteLength cs

/-- Cuts a text at a byte offset; an offset inside a character or past the end has no cut. -/
def splitAtByte? : Nat → List Char → Option (List Char × List Char)
  | 0, cs => some ([], cs)
  | _ + 1, [] => none
  | n + 1, c :: cs =>
    if c.utf8Size ≤ n + 1 then
      match splitAtByte? (n + 1 - c.utf8Size) cs with
      | some (before, after) => some (c :: before, after)
      | none => none
    else none

/-- Whether a character begins at the offset, or the text ends there. -/
def isBoundary (n : Nat) (cs : List Char) : Bool :=
  (splitAtByte? n cs).isSome

/-- The text of a byte range, where the range is one of whole characters. -/
def slice? (s : Span) (cs : List Char) : Option (List Char) := do
  guard (s.start ≤ s.stop)
  let (_, after) ← splitAtByte? s.start cs
  let (inside, _) ← splitAtByte? (s.stop - s.start) after
  return inside

/-- The text of a byte range, empty where the range has none. -/
def slice (s : Span) (cs : List Char) : List Char :=
  (slice? s cs).getD []

/-- The last character boundary at or before an offset. -/
def floorBoundary (cs : List Char) : Nat → Nat
  | 0 => 0
  | n + 1 => if isBoundary (n + 1) cs then n + 1 else floorBoundary cs n

/-- The first character boundary at or after an offset, given that it is at most `fuel` away. -/
def ceilBoundaryWithin (cs : List Char) : Nat → Nat → Nat
  | 0, n => n
  | fuel + 1, n => if isBoundary n cs then n else ceilBoundaryWithin cs fuel (n + 1)

/-- The first character boundary at or after an offset, the end of the text at the latest. -/
def ceilBoundary (cs : List Char) (n : Nat) : Nat :=
  if n ≤ byteLength cs then ceilBoundaryWithin cs 4 n else byteLength cs

/-- The characters with the `White_Space` property. -/
def isBlank (c : Char) : Bool :=
  let n := c.toNat
  (9 ≤ n && n ≤ 13) || n == 32 || n == 0x85 || n == 0xA0 || n == 0x1680
    || (0x2000 ≤ n && n ≤ 0x200A) || n == 0x2028 || n == 0x2029 || n == 0x202F
    || n == 0x205F || n == 0x3000

/-- The ASCII blanks of stylesheets: tab, line feed, form feed, carriage return and space. -/
def isAsciiBlank (c : Char) : Bool :=
  c == ' ' || c == '\t' || c == '\n' || c == '\x0c' || c == '\r'

/-- A text without the blanks before it. -/
def trimLeft (cs : List Char) : List Char := cs.dropWhile isBlank

/-- A text without the characters at its end that satisfy `p`. -/
def dropWhileEnd (p : Char → Bool) (cs : List Char) : List Char :=
  (cs.reverse.dropWhile p).reverse

/-- A text without the blanks after it. -/
def trimRight (cs : List Char) : List Char := dropWhileEnd isBlank cs

/-- A text without the blanks around it. -/
def trim (cs : List Char) : List Char := trimRight (trimLeft cs)

/-- The words of a text read with the word collected so far, last character first. -/
def wordsFrom (word : List Char) : List Char → List (List Char)
  | [] => if word.isEmpty then [] else [word.reverse]
  | c :: cs =>
    if isBlank c then
      if word.isEmpty then wordsFrom [] cs else word.reverse :: wordsFrom [] cs
    else wordsFrom (c :: word) cs

/-- The longest runs of characters that are not blank, in order. -/
def words (cs : List Char) : List (List Char) := wordsFrom [] cs

/-- The words of a text with single spaces between them. -/
def normalizeBlanks (cs : List Char) : List Char :=
  [' '].intercalate (words cs)

/-- The parts of a text between the places where `separator` stands. -/
def splitOnChar (separator : Char) : List Char → List (List Char)
  | [] => [[]]
  | c :: cs =>
    if c == separator then [] :: splitOnChar separator cs
    else match splitOnChar separator cs with
      | part :: parts => (c :: part) :: parts
      | [] => [[c]]

def isHexDigit (c : Char) : Bool :=
  c.isDigit || ('a' ≤ c && c ≤ 'f') || ('A' ≤ c && c ≤ 'F')

def hexValue (c : Char) : Nat :=
  if c.isDigit then c.toNat - '0'.toNat
  else if 'a' ≤ c && c ≤ 'f' then c.toNat - 'a'.toNat + 10
  else c.toNat - 'A'.toNat + 10

/-- The characters of a number in base sixteen, lower case, without leading zeros. -/
def hexDigits (n : Nat) : List Char := Nat.toDigits 16 n

end Text

namespace Span

def text (s : Span) (source : String) : String :=
  String.ofList (Text.slice s source.toList)

def length (s : Span) : Nat := s.stop - s.start

end Span

end Restyle
