/-!
Texts as bytes: encoding in UTF-8, and decoding of bytes that need not be a text.
-/

namespace Restyle.Text.Utf8

def encode (cs : List Char) : List UInt8 := cs.flatMap String.utf8EncodeChar

/-- How a character goes on after its first byte: the number of bytes that follow, and the range of
the first of them. Of bytes that begin no character nothing follows. -/
def following (b : UInt8) : Option (Nat × UInt8 × UInt8) :=
  if b < 0x80 then some (0, 0, 0)
  else if b < 0xC2 then none
  else if b < 0xE0 then some (1, 0x80, 0xBF)
  else if b == 0xE0 then some (2, 0xA0, 0xBF)
  else if b == 0xED then some (2, 0x80, 0x9F)
  else if b < 0xF0 then some (2, 0x80, 0xBF)
  else if b == 0xF0 then some (3, 0x90, 0xBF)
  else if b < 0xF4 then some (3, 0x80, 0xBF)
  else if b == 0xF4 then some (3, 0x80, 0x8F)
  else none

/-- The bits that the first byte of a character gives, when `n` bytes follow. -/
def leadingBits (b : UInt8) : Nat → Nat
  | 0 => b.toNat
  | 1 => b.toNat % 32
  | 2 => b.toNat % 16
  | _ => b.toNat % 8

/-- Reads `n` more bytes of a character, the first of them within a range: the character, or
nothing, and the bytes behind. -/
def continued : Nat → UInt8 → UInt8 → Nat → List UInt8 → Option Char × List UInt8
  | 0, _, _, code, bytes => (some (Char.ofNat code), bytes)
  | _ + 1, _, _, _, [] => (none, [])
  | n + 1, low, high, code, b :: bytes =>
    if low ≤ b && b ≤ high then continued n 0x80 0xBF (code * 64 + b.toNat % 64) bytes
    else (none, b :: bytes)

/-- Reads at most `n` pieces: characters, and stretches of bytes that are none. -/
def piecesWithin : Nat → List UInt8 → List (Option Char)
  | 0, _ => []
  | _ + 1, [] => []
  | n + 1, b :: bytes =>
    match following b with
    | none => none :: piecesWithin n bytes
    | some (count, low, high) =>
      let (piece, rest) := continued count low high (leadingBits b count) bytes
      piece :: piecesWithin n rest

/-- The characters of some bytes. Each longest stretch that begins a character without ending it,
and each byte that begins none, counts as one piece that is no character. -/
def pieces (bytes : List UInt8) : List (Option Char) := piecesWithin bytes.length bytes

/-- The text that bytes encode, where they encode one. -/
def decode? (bytes : List UInt8) : Option (List Char) := (pieces bytes).mapM id

def decodeLossy (bytes : List UInt8) : List Char := (pieces bytes).map (·.getD '\uFFFD')

end Restyle.Text.Utf8
