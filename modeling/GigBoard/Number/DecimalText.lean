import GigBoard.Number.Shortest

/-!
# Numbers in decimal digits

How a shortest decimal form is written: positional while the exponent of its first digit lies in a
range, in scientific notation outside it.  A positional number always has a fraction.
-/

set_option autoImplicit false

namespace GigBoard

/-- The exponents of the first digit for which a number is written positionally. -/
structure DecimalStyle where
  leastPlain : Int
  greatestPlain : Int

namespace DecimalStyle

def naturalDigits (n : Nat) : List Char := Nat.toDigits 10 n

def integerText (n : Int) : List Char :=
  match n with
  | .ofNat n => naturalDigits n
  | .negSucc n => '-' :: naturalDigits (n + 1)

/-- Digits with the point after the given number of them, zeros filling any gap. -/
def positional (digits : List Char) (point : Int) : List Char :=
  if point ≤ 0 then '0' :: '.' :: (List.replicate (-point).toNat '0' ++ digits)
  else
    let whole := digits.take point.toNat
    let zeros := List.replicate (point.toNat - digits.length) '0'
    let fraction := digits.drop point.toNat
    whole ++ zeros ++ '.' :: (if fraction.isEmpty then ['0'] else fraction)

/-- Digits with the point after the first of them, and a signed exponent. -/
def scientific (digits : List Char) (exponent : Int) : List Char :=
  let fraction := digits.drop 1
  digits.take 1 ++ (if fraction.isEmpty then [] else '.' :: fraction) ++
    'e' :: (if exponent < 0 then '-' else '+') :: naturalDigits exponent.natAbs

def text (style : DecimalStyle) (x : Binary64) : List Char :=
  let decimal := x.shortest
  let digits := naturalDigits decimal.digits
  let exponent := digits.length + decimal.power - 1
  let magnitude :=
    if style.leastPlain ≤ exponent ∧ exponent ≤ style.greatestPlain then
      positional digits (exponent + 1)
    else scientific digits exponent
  if x.negative then '-' :: magnitude else magnitude

end DecimalStyle

end GigBoard
