import Restyle.Decimal.Binary
/-!
The shortest decimal of a binary number: the fewest digits that round to it, and of those the
nearest.
-/

namespace Restyle.Decimal

/-- The number `digits · 10 ^ exponent`. -/
structure Scientific where
  digits : Nat
  exponent : Int
deriving DecidableEq, Repr, Inhabited

def tenfold (num den : Nat) (exponent : Int) : Nat × Nat :=
  if 0 ≤ exponent then (num, den * Nat.pow 10 exponent.toNat) else (num * Nat.pow 10 (-exponent).toNat, den)

/-- Whether a decimal rounds to a binary number: it lies within half a unit in the last place. Below
a power of two the units are half as large. -/
def roundsTo (b : Binary) (s : Scientific) : Bool :=
  let (n, d) := tenfold s.digits 1 (-s.exponent)
  let isPower := b.mantissa == Nat.pow 2 (Binary.precision - 1) && b.exponent != Binary.leastExponent
  let (ln, ld) := Binary.quotient ⟨4 * b.mantissa - (if isPower then 1 else 2), b.exponent - 2⟩
  let (un, ud) := Binary.quotient ⟨4 * b.mantissa + 2, b.exponent - 2⟩
  if b.mantissa % 2 == 0 then ln * d ≤ n * ld && n * ud ≤ un * d
  else ln * d < n * ld && n * ud < un * d

/-- The decimal on the grid of a power of ten that rounds to a binary number and is nearest to it. -/
def onGrid? (b : Binary) (exponent : Int) : Option Scientific :=
  let (num, den) := b.quotient
  let (n, d) := tenfold num den exponent
  let low := n / d
  let below := roundsTo b ⟨low, exponent⟩
  let above := roundsTo b ⟨low + 1, exponent⟩
  let near := Binary.nearest n d
  if below && above then some ⟨near, exponent⟩
  else if below then some ⟨low, exponent⟩
  else if above then some ⟨low + 1, exponent⟩
  else none

/-- The first decimal found on grids that become finer. -/
def firstOnGrids (b : Binary) : Nat → Int → Scientific
  | 0, exponent => ⟨0, exponent⟩
  | n + 1, exponent =>
    match onGrid? b exponent with
    | some s => s
    | none => firstOnGrids b n (exponent - 1)

/-- A decimal without zeros at its end, given that it has at most `n` of them. -/
def dropZeros : Nat → Scientific → Scientific
  | 0, s => s
  | n + 1, s =>
    if s.digits != 0 && s.digits % 10 == 0 then dropZeros n ⟨s.digits / 10, s.exponent + 1⟩ else s

/-- The shortest decimal of a binary number that is not zero. -/
def shortest (b : Binary) : Scientific :=
  let top : Int := (b.mantissa.log2 + 1 + b.exponent) * 30103 / 100000 + 1
  dropZeros 20 (firstOnGrids b 20 top)

/-- How decimals are laid out: those below `10 ^ positionalEnd` and from `10 ^ -(leadingZeros + 1)`
on are written with a point, others with an exponent. -/
structure Layout where
  positionalEnd : Int
  leadingZeros : Int
  wholeSuffix : List Char
  exponentMark : Char

def digitsOf (n : Nat) : List Char := Nat.toDigits 10 n

def Layout.write (l : Layout) (s : Scientific) : List Char :=
  let ds := digitsOf s.digits
  let point : Int := ds.length + s.exponent
  if 0 ≤ s.exponent && point ≤ l.positionalEnd then
    ds ++ List.replicate s.exponent.toNat '0' ++ l.wholeSuffix
  else if 0 < point && point ≤ l.positionalEnd then
    ds.take point.toNat ++ '.' :: ds.drop point.toNat
  else if -l.leadingZeros ≤ point && point ≤ 0 then
    '0' :: '.' :: List.replicate (-point).toNat '0' ++ ds
  else
    let power := point - 1
    (match ds with
      | d :: e :: more => d :: '.' :: e :: more
      | ds => ds) ++ l.exponentMark :: (toString power).toList

end Restyle.Decimal
