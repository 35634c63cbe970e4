import GigBoard.Number.Binary64

/-!
# Shortest decimal digits

Every number of the format is the nearest one to a whole interval of reals.  Its shortest decimal
form is the multiple of the largest power of ten that lies in that interval, and of two such
multiples the nearer one, or the even one if both are as near.  The interval's ends belong to it if
the mantissa is even.
-/

set_option autoImplicit false

namespace GigBoard.Binary64

structure Decimal where
  digits : Nat
  power : Int
  deriving DecidableEq, Repr

/-- The interval of reals around a number above zero, and the number itself, measured in units of
`10 ^ power` and multiplied by a common denominator. -/
structure Surroundings where
  below : Nat
  value : Nat
  above : Nat
  unit : Nat

/-- How a number above zero and the ends of its interval lie on the grid of `10 ^ power`. -/
def surroundings (x : Binary64) (power : Int) : Surroundings :=
  let quarter := x.exponent - 2
  let up := Nat.pow 2 quarter.toNat * Nat.pow 10 (-power).toNat
  let narrow := x.mantissa = Nat.pow 2 52 ∧ leastExponent < x.exponent
  { below := (4 * x.mantissa - if narrow then 1 else 2) * up
    value := 4 * x.mantissa * up
    above := (4 * x.mantissa + 2) * up
    unit := Nat.pow 2 (-quarter).toNat * Nat.pow 10 power.toNat }

def Surroundings.holds (s : Surroundings) (even : Bool) (point : Nat) : Bool :=
  let p := point * s.unit
  if even then s.below ≤ p && p ≤ s.above else s.below < p && p < s.above

/-- The point of the grid in the interval that is nearest to the number, if there is one. -/
def onGrid? (x : Binary64) (power : Int) : Option Decimal :=
  let s := surroundings x power
  let even := x.mantissa % 2 == 0
  let low := s.value / s.unit
  let past := 2 * (s.value % s.unit)
  let nearLow := past < s.unit || (past = s.unit && low % 2 = 0)
  match s.holds even low && low != 0, s.holds even (low + 1) with
  | true, true => some ⟨if nearLow then low else low + 1, power⟩
  | true, false => some ⟨low, power⟩
  | false, true => some ⟨low + 1, power⟩
  | false, false => none

/-- The first hit on the grids of `10 ^ power` and the finer ones after it. -/
def searchGrids (x : Binary64) (power : Int) : Nat → Option Decimal
  | 0 => none
  | n + 1 =>
    match onGrid? x power with
    | some d => some d
    | none => searchGrids x (power - 1) n

/-- A power of ten above every number with the given binary magnitude, close enough that the shortest
form lies on one of the next twenty-two grids. -/
def coarsestPower (x : Binary64) : Int :=
  (Nat.log2 x.mantissa + x.exponent) * 30103 / 100000 + 2

def shortest (x : Binary64) : Decimal :=
  if x.mantissa = 0 then ⟨0, 0⟩
  else (searchGrids x x.coarsestPower 22).getD ⟨0, 0⟩

end GigBoard.Binary64
