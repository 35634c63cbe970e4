import GigBoard.Text.Hex

/-!
# Identifiers

Universally unique identifiers: numbers of 128 bits.  They are written as thirty-two lower-case
hexadecimal digits in five groups, and read in that form with digits of either case, without the
hyphens, in braces, or as a name of the `urn:uuid:` space.
-/

set_option autoImplicit false

namespace GigBoard

structure Uuid where
  value : Nat
  value_lt : value < Nat.pow 2 128
  deriving DecidableEq

namespace Uuid

/-- Identifiers are ordered as their octets are, the first octet first. -/
instance : LE Uuid := ⟨fun a b => a.value ≤ b.value⟩

instance (a b : Uuid) : Decidable (a ≤ b) := inferInstanceAs (Decidable (a.value ≤ b.value))

/-- The identifier of the last 128 bits of a number. -/
def ofNat (n : Nat) : Uuid := ⟨n % Nat.pow 2 128, Nat.mod_lt _ (by decide)⟩

instance : Inhabited Uuid := ⟨ofNat 0⟩

def grouped (ds : List Char) : List Char :=
  ds.take 8 ++ '-' :: ((ds.drop 8).take 4 ++ '-' :: ((ds.drop 12).take 4 ++ '-' ::
    ((ds.drop 16).take 4 ++ '-' :: ds.drop 20)))

def chars (id : Uuid) : List Char := grouped (Text.Hex.digits 32 id.value)

def text (id : Uuid) : String := String.ofList id.chars

def ofDigits? (ds : List Char) : Option Uuid :=
  if ds.length = 32 then (Text.Hex.toNat? ds).map ofNat else none

def ofGrouped? (cs : List Char) : Option Uuid :=
  let ds := cs.take 8 ++ (cs.drop 9).take 4 ++ (cs.drop 14).take 4 ++ (cs.drop 19).take 4 ++ cs.drop 24
  if cs = grouped ds then ofDigits? ds else none

def ofChars? (cs : List Char) : Option Uuid :=
  if cs.length = 32 then ofDigits? cs
  else if cs.length = 36 then ofGrouped? cs
  else if cs.length = 38 ∧ cs.head? = some '{' ∧ cs.getLast? = some '}' then
    ofGrouped? (cs.drop 1).dropLast
  else if cs.length = 45 ∧ cs.take 9 = "urn:uuid:".toList then ofGrouped? (cs.drop 9)
  else none

def ofString? (s : String) : Option Uuid := ofChars? s.toList

end Uuid

end GigBoard
