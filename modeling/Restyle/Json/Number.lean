import Restyle.Decimal.Shortest
import Restyle.Json.Reader
/-!
Numbers in JSON texts: their extent, and their values where they are shown in a failure. A number is
natural or negative as long as it fits 64 bits, else it is a floating-point number made from the
first digits that fit and a power of ten.
-/

namespace Restyle.Json

open Decimal (Binary Layout)

/-- The greatest number of 64 bits. -/
def greatest : Nat := 18446744073709551615

def greatestPower : Nat := 2147483647

/-- A number as it is shown. -/
inductive Number where
  | natural (n : Nat)
  | negative (n : Nat)
  | floating (isNegative : Bool) (b : Binary)
deriving DecidableEq, Repr, Inhabited

/-- Floating-point numbers have a point up to sixteen digits before it and four zeros behind it. -/
def Number.layout : Layout := ⟨16, 4, ".0".toList, 'e'⟩

def Number.description : Number → String
  | natural n => "integer \x60" ++ toString n ++ "\x60"
  | negative n => "integer \x60-" ++ toString n ++ "\x60"
  | floating isNegative b =>
    let digits := if b.mantissa == 0 then "0.0".toList else layout.write (Decimal.shortest b)
    "floating point \x60" ++ (if isNegative then "-" else "") ++ String.ofList digits ++ "\x60"

def digitCount (cs : List Char) : Nat := (cs.takeWhile Char.isDigit).length

def Place.skipDigits (p : Place) : Place := p.skip (digitCount p.rest)

/-- Multiplies by powers of ten up to the largest that is a number, `fuel` times at most. -/
def scale (fuel : Nat) (b : Binary) (exponent : Int) : Option Binary :=
  match fuel with
  | 0 => some b
  | fuel + 1 =>
    let power (n : Nat) : Binary := (Binary.ofNat? (Nat.pow 10 n)).getD ⟨0, 0⟩
    if exponent.natAbs ≤ 308 then
      if 0 ≤ exponent then b.mul? (power exponent.toNat) else b.div? (power (-exponent).toNat)
    else if b.mantissa == 0 then some b
    else if 0 ≤ exponent then none
    else
      match b.div? (power 308) with
      | some b => scale fuel b (exponent + 308)
      | none => none

/-- The floating-point number of a significand and an exponent of ten, which ends at a place. -/
def floating (isNegative : Bool) (significand : Nat) (exponent : Int) : Reader Number := fun p =>
  match (Binary.ofNat? significand).bind fun b => scale 5 b exponent with
  | some b => .ok (.floating isNegative b, p)
  | none => p.fail .numberOutOfRange

/-- Reads digits of an exponent. Beyond the greatest exponent the place is given with nothing. -/
def readPower : Nat → Nat → Place → Option Nat × Place
  | 0, n, p => (some n, p)
  | fuel + 1, n, p =>
    match p.rest with
    | c :: _ =>
      if c.isDigit then
        let more := 10 * n + Text.hexValue c
        if greatestPower < more then (none, p.next) else readPower fuel more p.next
      else (some n, p)
    | [] => (some n, p)

/-- Reads the exponent of a number behind its mark. -/
def readExponent (isNegative : Bool) (significand : Nat) (exponent : Int) : Reader Number :=
  fun p =>
    let (down, p) := match p.rest with
      | '+' :: _ => (false, p.next)
      | '-' :: _ => (true, p.next)
      | _ => (false, p)
    match p.rest with
    | [] => p.fail .endInValue
    | c :: cs =>
      if !c.isDigit then p.failAhead .invalidNumber
      else
        match readPower (cs.length + 1) (Text.hexValue c) p.next with
        | (some n, p) =>
          floating isNegative significand (if down then exponent - n else exponent + n) p
        | (none, p) =>
          if significand != 0 && !down then p.fail .numberOutOfRange
          else floating isNegative 0 0 p.skipDigits

/-- Reads digits behind the point, as long as they fit: the significand, how many digits there were,
and whether one did not fit. -/
def readFraction : Nat → Nat → Nat → Place → Nat × Nat × Bool × Place
  | 0, s, n, p => (s, n, false, p)
  | fuel + 1, s, n, p =>
    match p.rest with
    | c :: _ =>
      if c.isDigit then
        let more := 10 * s + Text.hexValue c
        if greatest < more then (s, n, true, p) else readFraction fuel more (n + 1) p.next
      else (s, n, false, p)
    | [] => (s, n, false, p)

def readAfterDigits (isNegative : Bool) (significand : Nat) (exponent : Int) : Reader Number :=
  fun p =>
    match p.rest with
    | 'e' :: _ | 'E' :: _ => readExponent isNegative significand exponent p.next
    | _ => floating isNegative significand exponent p

/-- Reads the fraction of a number behind its point. -/
def readDecimal (isNegative : Bool) (significand : Nat) (exponent : Int) : Reader Number :=
  fun p =>
    let (s, n, tooLong, p) := readFraction (p.rest.length + 1) significand 0 p
    if tooLong then readAfterDigits isNegative s (exponent - n) p.skipDigits
    else if n == 0 then
      if p.rest.isEmpty then p.fail .endInValue else p.failAhead .invalidNumber
    else readAfterDigits isNegative s (exponent - n) p

/-- Reads a number whose first digits are known, the exponent telling how many did not fit. -/
def readTail (isNegative : Bool) (significand : Nat) (dropped : Nat) : Reader Number := fun p =>
  match p.rest with
  | '.' :: _ => readDecimal isNegative significand dropped p.next
  | 'e' :: _ | 'E' :: _ => readExponent isNegative significand dropped p.next
  | _ =>
    if dropped != 0 then floating isNegative significand dropped p
    else if !isNegative then .ok (.natural significand, p)
    else if significand == 0 || 9223372036854775808 < significand then
      floating true significand 0 p
    else .ok (.negative significand, p)

/-- Reads a number behind its sign. -/
def readNumber (isNegative : Bool) : Reader Number := fun p =>
  match p.rest with
  | [] => p.fail .endInValue
  | '0' :: cs =>
    if cs.head?.any Char.isDigit then p.next.failAhead .invalidNumber
    else readTail isNegative 0 0 p.next
  | c :: _ =>
    if !c.isDigit then p.failAhead .invalidNumber
    else
      let (s, _, tooLong, after) := readFraction (p.rest.length + 1) 0 0 p
      if tooLong then
        let ended := after.skipDigits
        readTail isNegative s (digitCount after.rest) ended
      else readTail isNegative s 0 after

/-- Passes over a number behind its sign. -/
def passNumber : Reader Unit := fun p =>
  let whole : Except Failure Place :=
    match p.rest with
    | [] => p.fail .invalidNumber
    | '0' :: cs =>
      if cs.head?.any Char.isDigit then p.next.failAhead .invalidNumber else .ok p.next
    | c :: _ => if c.isDigit then .ok p.skipDigits else p.failAhead .invalidNumber
  let power (p : Place) : Except Failure Place :=
    let p := match p.rest with
      | '+' :: _ | '-' :: _ => p.next
      | _ => p
    match p.rest with
    | [] => p.fail .invalidNumber
    | c :: _ => if c.isDigit then .ok p.skipDigits else p.failAhead .invalidNumber
  let afterPoint (p : Place) : Except Failure Place :=
    match p.rest with
    | 'e' :: _ | 'E' :: _ => power p.next
    | _ => .ok p
  do
    let p ← whole
    match p.rest with
    | '.' :: _ =>
      let p := p.next
      if digitCount p.rest == 0 then p.failAhead .invalidNumber
      else return ((), ← afterPoint p.skipDigits)
    | _ => return ((), ← afterPoint p)

end Restyle.Json
