/-!
# UTF-8

Characters as octets and back.  `pieces` cuts any run of octets into characters and broken pieces,
where a broken piece is the longest start of a character that the next octet cannot continue; reading
strictly refuses a run with a broken piece, reading leniently writes U+FFFD for each.
-/

set_option autoImplicit false

namespace GigBoard.Text.Utf8

def encodeChar (c : Char) : List UInt8 :=
  let n := c.toNat
  if n < 0x80 then [n.toUInt8]
  else if n < 0x800 then [(0xC0 + n / 64).toUInt8, (0x80 + n % 64).toUInt8]
  else if n < 0x10000 then
    [(0xE0 + n / 4096).toUInt8, (0x80 + n / 64 % 64).toUInt8, (0x80 + n % 64).toUInt8]
  else
    [(0xF0 + n / 262144).toUInt8, (0x80 + n / 4096 % 64).toUInt8, (0x80 + n / 64 % 64).toUInt8,
      (0x80 + n % 64).toUInt8]

def encode (cs : List Char) : List UInt8 := cs.flatMap encodeChar

def ofString (s : String) : List UInt8 := encode s.toList

/-- What the first octet of a longer character announces: how many octets follow, the bits that it
carries itself, and the range of the octet right after it. -/
structure Lead where
  following : Nat
  bits : Nat
  low : Nat
  high : Nat

def lead (b : Nat) : Option Lead :=
  if 0xC2 ≤ b ∧ b ≤ 0xDF then some ⟨1, b - 0xC0, 0x80, 0xBF⟩
  else if b = 0xE0 then some ⟨2, 0, 0xA0, 0xBF⟩
  else if b = 0xED then some ⟨2, 0xD, 0x80, 0x9F⟩
  else if 0xE1 ≤ b ∧ b ≤ 0xEF then some ⟨2, b - 0xE0, 0x80, 0xBF⟩
  else if b = 0xF0 then some ⟨3, 0, 0x90, 0xBF⟩
  else if b = 0xF4 then some ⟨3, 4, 0x80, 0x8F⟩
  else if 0xF1 ≤ b ∧ b ≤ 0xF3 then some ⟨3, b - 0xF0, 0x80, 0xBF⟩
  else none

/-- Takes the octets that follow a lead, as long as each lies in its range, and returns the code
point if all were there. -/
def follow : Nat → Nat → Nat → Nat → List UInt8 → Option Nat × List UInt8
  | 0, _, _, code, rest => (some code, rest)
  | _ + 1, _, _, _, [] => (none, [])
  | k + 1, low, high, code, b :: rest =>
    if low ≤ b.toNat ∧ b.toNat ≤ high then
      follow k 0x80 0xBF (code * 64 + (b.toNat - 0x80)) rest
    else (none, b :: rest)

/-- Following octets are only ever taken away from the front. -/
theorem follow_length_le (k low high code : Nat) (bs : List UInt8) :
    (follow k low high code bs).2.length ≤ bs.length := by
  induction bs generalizing k low high code with
  | nil => cases k <;> simp [follow]
  | cons b rest ih =>
    cases k with
    | zero => simp [follow]
    | succ k =>
      simp only [follow]
      split
      · exact Nat.le_succ_of_le (ih ..)
      · exact Nat.le_refl _

/-- The first character of a run that begins with `b`, `none` where it is broken, and the octets
after it. -/
def next (b : UInt8) (rest : List UInt8) : Option Char × List UInt8 :=
  if b.toNat < 0x80 then (some (Char.ofNat b.toNat), rest)
  else
    match lead b.toNat with
    | none => (none, rest)
    | some l =>
      let (code, rest') := follow l.following l.low l.high l.bits rest
      (code.map Char.ofNat, rest')

/-- One piece takes at least its first octet. -/
theorem next_length_le (b : UInt8) (rest : List UInt8) : (next b rest).2.length ≤ rest.length := by
  unfold next
  split
  · exact Nat.le_refl _
  · split
    · exact Nat.le_refl _
    · exact follow_length_le ..

/-- The pieces of a run in reverse order, in front of those already found. -/
def piecesInto (acc : List (Option Char)) : List UInt8 → List (Option Char)
  | [] => acc
  | b :: rest => piecesInto ((next b rest).1 :: acc) (next b rest).2
termination_by bs => bs.length
decreasing_by exact Nat.lt_succ_of_le (next_length_le b rest)

def pieces (bs : List UInt8) : List (Option Char) := (piecesInto [] bs).reverse

def decode? (bs : List UInt8) : Option (List Char) :=
  let ps := pieces bs
  if ps.all Option.isSome then some (ps.filterMap id) else none

def toString? (bs : List UInt8) : Option String := (decode? bs).map String.ofList

/-- The characters of any run of octets, with U+FFFD in the place of each broken piece. -/
def decodeLossy (bs : List UInt8) : List Char :=
  (pieces bs).map (·.getD (Char.ofNat 0xFFFD))

end GigBoard.Text.Utf8
