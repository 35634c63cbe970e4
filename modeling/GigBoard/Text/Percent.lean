import GigBoard.Text.Hex
import GigBoard.Text.Utf8

/-!
# Percent escapes

An octet may be written as `%` and two hexadecimal digits.  Reading keeps a `%` that no two digits
follow; writing escapes the octets of a chosen class.
-/

set_option autoImplicit false

namespace GigBoard.Text.Percent

def hex? (b : UInt8) : Option Nat := Hex.value? (Char.ofNat b.toNat)

def decode : List UInt8 → List UInt8
  | [] => []
  | [a] => [a]
  | [a, b] => [a, b]
  | a :: b :: c :: rest =>
    if a = 37 then
      match hex? b, hex? c with
      | some h, some l => (16 * h + l).toUInt8 :: decode rest
      | _, _ => a :: decode (b :: c :: rest)
    else a :: decode (b :: c :: rest)

def upperDigit (n : Nat) : Char :=
  if n < 10 then Char.ofNat (48 + n) else Char.ofNat (55 + n)

def escape (b : UInt8) : List Char :=
  ['%', upperDigit (b.toNat / 16), upperDigit (b.toNat % 16)]

/-- A character with each of its octets escaped if it belongs to the class or is not ASCII. -/
def encodeChar (escaped : Char → Bool) (c : Char) : List Char :=
  if c.toNat < 0x80 && !escaped c then [c] else (Utf8.encodeChar c).flatMap escape

def encode (escaped : Char → Bool) (cs : List Char) : List Char :=
  cs.flatMap (encodeChar escaped)

end GigBoard.Text.Percent
