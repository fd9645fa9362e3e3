/-!
Binary numbers of 53 significant bits, and the rounding of quotients to them. Of two numbers that are
equally near the even one is taken; a quotient beyond the largest number has none.
-/

namespace Restyle.Decimal

/-- The number `mantissa · 2 ^ exponent`. -/
structure Binary where
  mantissa : Nat
  exponent : Int
deriving DecidableEq, Repr, Inhabited

namespace Binary

def precision : Nat := 53

def leastExponent : Int := -1074

def greatestExponent : Int := 971

def scaled (num den : Nat) (exponent : Int) : Nat × Nat :=
  if 0 ≤ exponent then (num, den * Nat.pow 2 exponent.toNat) else (num * Nat.pow 2 (-exponent).toNat, den)

/-- The nearest natural number to a quotient, the even one of two. -/
def nearest (num den : Nat) : Nat :=
  let q := num / den
  let r := num % den
  if 2 * r < den then q
  else if den < 2 * r then q + 1
  else if q % 2 == 0 then q else q + 1

/-- The nearest binary number to a quotient. -/
def ofQuotient? (num den : Nat) : Option Binary :=
  if num == 0 then some ⟨0, leastExponent⟩
  else
    let guess : Int := (num.log2 : Int) - den.log2 - (precision - 1)
    let (n, d) := scaled num den guess
    let exponent := max leastExponent (if n / d < Nat.pow 2 (precision - 1) then guess - 1 else guess)
    let (n, d) := scaled num den exponent
    let m := nearest n d
    let (m, exponent) := if m == Nat.pow 2 precision then (m / 2, exponent + 1) else (m, exponent)
    if greatestExponent < exponent then none else some ⟨m, exponent⟩

def quotient (b : Binary) : Nat × Nat :=
  if 0 ≤ b.exponent then (b.mantissa * Nat.pow 2 b.exponent.toNat, 1)
  else (b.mantissa, Nat.pow 2 (-b.exponent).toNat)

/-- The nearest number to a natural number. -/
def ofNat? (n : Nat) : Option Binary := ofQuotient? n 1

/-- The nearest number to a product. -/
def mul? (a b : Binary) : Option Binary :=
  let (n, d) := a.quotient
  let (k, l) := b.quotient
  ofQuotient? (n * k) (d * l)

/-- The nearest number to a quotient of two numbers. -/
def div? (a b : Binary) : Option Binary :=
  let (n, d) := a.quotient
  let (k, l) := b.quotient
  ofQuotient? (n * l) (d * k)

end Binary

end Restyle.Decimal
