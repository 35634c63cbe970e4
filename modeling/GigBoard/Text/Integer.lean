/-!
# Bounded decimal integers

Whole numbers written in ASCII digits with an optional sign, read into a range.  A minus sign is a
sign only where the range reaches below zero; elsewhere it is a character like any other.
-/

set_option autoImplicit false

namespace GigBoard.Text

inductive IntegerFault where
  | empty
  | invalidDigit
  | tooLarge
  | tooSmall
  deriving DecidableEq, Repr

def IntegerFault.message : IntegerFault → String
  | .empty => "cannot parse integer from empty string"
  | .invalidDigit => "invalid digit found in string"
  | .tooLarge => "number too large to fit in target type"
  | .tooSmall => "number too small to fit in target type"

structure IntegerRange where
  low : Int
  high : Int
  deriving DecidableEq, Repr

namespace IntegerRange

def int64 : IntegerRange := ⟨-9223372036854775808, 9223372036854775807⟩

def int32 : IntegerRange := ⟨-2147483648, 2147483647⟩

def uint32 : IntegerRange := ⟨0, 4294967295⟩

def uint16 : IntegerRange := ⟨0, 65535⟩

def contains (range : IntegerRange) (n : Int) : Bool := range.low ≤ n && n ≤ range.high

end IntegerRange

def digit? (c : Char) : Option Nat :=
  if 48 ≤ c.toNat ∧ c.toNat ≤ 57 then some (c.toNat - 48) else none

/-- Continues a magnitude by a run of digits, each of which must keep it within the limit. -/
def readMagnitude (limit : Nat) (beyond : IntegerFault) :
    Nat → List Char → Except IntegerFault Nat
  | n, [] => .ok n
  | n, c :: cs =>
    match digit? c with
    | none => .error .invalidDigit
    | some d =>
      if 10 * n + d ≤ limit then readMagnitude limit beyond (10 * n + d) cs else .error beyond

def readNatural (range : IntegerRange) (cs : List Char) : Except IntegerFault Int :=
  match cs with
  | [] => .error .invalidDigit
  | cs => (readMagnitude range.high.toNat .tooLarge 0 cs).map Int.ofNat

/-- Reads a whole number of the range: an optional sign and at least one digit. -/
def readInteger (range : IntegerRange) (cs : List Char) : Except IntegerFault Int :=
  match cs with
  | [] => .error .empty
  | '+' :: rest => readNatural range rest
  | '-' :: rest =>
    if range.low < 0 then
      match rest with
      | [] => .error .invalidDigit
      | rest => (readMagnitude (-range.low).toNat .tooSmall 0 rest).map fun n => -(n : Int)
    else .error .invalidDigit
  | cs => readNatural range cs

def integer? (range : IntegerRange) (s : String) : Option Int :=
  (readInteger range s.toList).toOption

end GigBoard.Text
