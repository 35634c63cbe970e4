import GigBoard.Text.Hex

/-!
# Points in time

Microseconds since the beginning of 1970 in UTC, on the Gregorian calendar without end in either
direction, written by RFC 3339 with as many fraction digits as are needed: none, three or six.
-/

set_option autoImplicit false

namespace GigBoard

/-- A point in time in microseconds since the beginning of 1970 in UTC. -/
structure Timestamp where
  micros : Int
  deriving DecidableEq, Repr

namespace Timestamp

instance : LT Timestamp := ⟨fun a b => a.micros < b.micros⟩

instance (a b : Timestamp) : Decidable (a < b) := inferInstanceAs (Decidable (a.micros < b.micros))

instance : LE Timestamp := ⟨fun a b => a.micros ≤ b.micros⟩

instance (a b : Timestamp) : Decidable (a ≤ b) := inferInstanceAs (Decidable (a.micros ≤ b.micros))

instance : Inhabited Timestamp := ⟨⟨0⟩⟩

structure Date where
  year : Int
  month : Nat
  day : Nat
  deriving DecidableEq, Repr

/-- The date of the day that lies the given number of days after the first of 1970.  Years are
counted from March, so that the leap day is the last of its year. -/
def Date.ofDays (days : Int) : Date :=
  let shifted := days + 719468
  let era := shifted / 146097
  let dayOfEra := (shifted % 146097).toNat
  let yearOfEra := (dayOfEra - dayOfEra / 1460 + dayOfEra / 36524 - dayOfEra / 146096) / 365
  let dayOfYear := dayOfEra - (365 * yearOfEra + yearOfEra / 4 - yearOfEra / 100)
  let marchMonth := (5 * dayOfYear + 2) / 153
  let day := dayOfYear - (153 * marchMonth + 2) / 5 + 1
  let month := if marchMonth < 10 then marchMonth + 3 else marchMonth - 9
  let year : Int := yearOfEra + era * 400
  ⟨if month ≤ 2 then year + 1 else year, month, day⟩

def decimal : Nat → Nat → List Char
  | 0, _ => []
  | width + 1, n => decimal width (n / 10) ++ [Char.ofNat (48 + n % 10)]

/-- A year in four digits, with a sign if it is not one of the years 0 to 9999. -/
def yearText (year : Int) : List Char :=
  let digits := Nat.toDigits 10 year.natAbs
  let filled := List.replicate (4 - digits.length) '0' ++ digits
  if year < 0 then '-' :: filled else if 9999 < year then '+' :: filled else filled

/-- The microseconds of a second as a fraction in no, three or six digits. -/
def fractionText (micros : Nat) : List Char :=
  if micros = 0 then []
  else if micros % 1000 = 0 then '.' :: decimal 3 (micros / 1000)
  else '.' :: decimal 6 micros

def seconds (t : Timestamp) : Int := t.micros / 1000000

def year (t : Timestamp) : Int := (Date.ofDays (t.seconds / 86400)).year

/-- The years that a point in time may lie in when it is read from the store or computed. -/
def isRepresentable (t : Timestamp) : Bool :=
  -8334601228800000000 ≤ t.micros && t.micros ≤ 8210266876799999999

def chars (t : Timestamp) : List Char :=
  let date := Date.ofDays (t.seconds / 86400)
  let second := (t.seconds % 86400).toNat
  yearText date.year ++ '-' :: decimal 2 date.month ++ '-' :: decimal 2 date.day ++
    'T' :: decimal 2 (second / 3600) ++ ':' :: decimal 2 (second / 60 % 60) ++
    ':' :: decimal 2 (second % 60) ++ fractionText (t.micros % 1000000).toNat ++
    "+00:00".toList

def text (t : Timestamp) : String := String.ofList t.chars

end Timestamp

end GigBoard
