/-!
# Binary floating-point numbers of 64 bits

Finite numbers as an exact sign, mantissa and power of two, with operations that compute the exact
result and round it once: to the nearest number, a tie to the even mantissa.  A result too large for
the format is none; there are no infinities and no undefined numbers.
-/

set_option autoImplicit false

namespace GigBoard

/-- The number `mantissa · 2 ^ exponent`, with its sign.  Rounding gives every number one form: a
mantissa of 53 bits, or a smaller one with the least exponent. -/
structure Binary64 where
  negative : Bool
  mantissa : Nat
  exponent : Int
  deriving DecidableEq, Repr

namespace Binary64

def leastExponent : Int := -1074

def greatestExponent : Int := 971

def zero : Binary64 := ⟨false, 0, leastExponent⟩

instance : Inhabited Binary64 := ⟨zero⟩

def negate (x : Binary64) : Binary64 := { x with negative := !x.negative }

def isPositive (x : Binary64) : Bool := !x.negative && x.mantissa != 0

/-- The nearest whole number to a quotient, the even one of two. -/
def roundQuotient (num den : Nat) : Nat :=
  let q := num / den
  let r := num % den
  if 2 * r < den then q else if den < 2 * r then q + 1 else q + q % 2

/-- The quotient `num / (den · 2 ^ e)` as a fraction of natural numbers. -/
def scaled (num den : Nat) (e : Int) : Nat × Nat :=
  if 0 ≤ e then (num, den * Nat.pow 2 e.toNat) else (num * Nat.pow 2 (-e).toNat, den)

/-- The exponent that leaves 53 bits of the quotient in front of the point, as far as the format
reaches down. -/
def exponentOf (num den : Nat) : Int :=
  let guess : Int := Nat.log2 num - Nat.log2 den - 52
  let (n, d) := scaled num den guess
  max (if n < d * Nat.pow 2 52 then guess - 1 else guess) leastExponent

/-- The number nearest to a quotient of natural numbers; none if it is too large. -/
def ofRatio (num den : Nat) : Option Binary64 :=
  if num = 0 then some zero
  else
    let e := exponentOf num den
    let (n, d) := scaled num den e
    let m := roundQuotient n d
    let (m, e) := if m = Nat.pow 2 53 then (Nat.pow 2 52, e + 1) else (m, e)
    if greatestExponent < e then none else some ⟨false, m, e⟩

def ofNat (n : Nat) : Option Binary64 := ofRatio n 1

def fraction (x : Binary64) : Nat × Nat :=
  if 0 ≤ x.exponent then (x.mantissa * Nat.pow 2 x.exponent.toNat, 1)
  else (x.mantissa, Nat.pow 2 (-x.exponent).toNat)

def mul (x y : Binary64) : Option Binary64 :=
  let (a, b) := x.fraction
  let (c, d) := y.fraction
  (ofRatio (a * c) (b * d)).map fun z => { z with negative := x.negative != y.negative }

def div (x y : Binary64) : Option Binary64 :=
  let (a, b) := x.fraction
  let (c, d) := y.fraction
  (ofRatio (a * d) (b * c)).map fun z => { z with negative := x.negative != y.negative }

def roundToNat (x : Binary64) : Nat :=
  let (a, b) := x.fraction
  (2 * a + b) / (2 * b)

def powerOfTen (k : Nat) : Binary64 := (ofNat (Nat.pow 10 k)).getD zero

/-- The greatest power of ten that the format holds, by its exponent. -/
def greatestTen : Nat := 308

/-- Divides by `10 ^ greatestTen` the given number of times, each time rounded; zero stays zero. -/
def divideSteps (x : Binary64) : Nat → Option Binary64
  | 0 => some x
  | n + 1 =>
    if x.mantissa = 0 then some x
    else
      match x.div (powerOfTen greatestTen) with
      | none => none
      | some y => divideSteps y n

/-- Divides by a power of ten: in whole steps of `10 ^ greatestTen`, and last by what is left. -/
def shrinkByTen (x : Binary64) (k : Nat) : Option Binary64 :=
  let steps := (k - 1) / greatestTen
  match divideSteps x steps with
  | none => none
  | some y => if y.mantissa = 0 then some y else y.div (powerOfTen (k - steps * greatestTen))

/-- Multiplies by a power of ten, with one rounding unless the power is below every number. -/
def scaleByTen (x : Binary64) (e : Int) : Option Binary64 :=
  if x.mantissa = 0 then some x
  else if 0 ≤ e then
    if e ≤ greatestTen then x.mul (powerOfTen e.toNat) else none
  else shrinkByTen x e.natAbs

end Binary64

end GigBoard
