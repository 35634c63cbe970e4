/-!
# Host labels outside ASCII

Punycode by RFC 3492: a label is written as its ASCII characters followed by a hyphen and a run of
base-36 digits that says where the other characters go.
-/

set_option autoImplicit false

namespace GigBoard.Url.Punycode

def digit (d : Nat) : Char := if d < 26 then Char.ofNat (97 + d) else Char.ofNat (22 + d)

def threshold (position bias : Nat) : Nat := max 1 (min 26 (position - bias))

/-- Reduces a difference until it is small, counting the steps in base-36 positions. -/
def shrink : Nat → Nat → Nat → Nat × Nat
  | 0, delta, k => (delta, k)
  | fuel + 1, delta, k => if 455 < delta then shrink fuel (delta / 35) (k + 36) else (delta, k)

def adapt (delta count : Nat) (first : Bool) : Nat :=
  let delta := if first then delta / 700 else delta / 2
  let (delta, k) := shrink delta (delta + delta / count) 0
  k + 36 * delta / (delta + 38)

/-- The digits of a difference, the least significant first; `fuel` bounds their number. -/
def digits : Nat → Nat → Nat → Nat → List Char
  | 0, _, _, _ => []
  | fuel + 1, bias, position, q =>
    let t := threshold position bias
    if q < t then [digit q]
    else digit (t + (q - t) % (36 - t)) :: digits fuel bias (position + 36) ((q - t) / (36 - t))

structure State where
  delta : Nat
  bias : Nat
  handled : Nat
  output : List Char

/-- Passes one character of the label while the characters equal to `n` are placed. -/
def State.pass (basic n : Nat) (s : State) (c : Char) : State :=
  if c.toNat < n then { s with delta := s.delta + 1 }
  else if c.toNat = n then
    { delta := 0
      bias := adapt s.delta (s.handled + 1) (s.handled = basic)
      handled := s.handled + 1
      output := s.output ++ digits (s.delta + 1) s.bias 36 s.delta }
  else s

/-- Places the characters outside ASCII in ascending order; `next` is the least code point that may
still be missing, and `fuel` bounds the number of different characters. -/
def place (label : List Char) (basic : Nat) : Nat → Nat → State → State
  | 0, _, s => s
  | fuel + 1, next, s =>
    match (label.map Char.toNat).filter (next ≤ ·) |>.min? with
    | none => s
    | some n =>
      let s := { s with delta := s.delta + (n - next) * (s.handled + 1) }
      let s := label.foldl (State.pass basic n) s
      place label basic fuel (n + 1) { s with delta := s.delta + 1 }

def encode (label : List Char) : List Char :=
  let ascii := label.filter (·.toNat < 128)
  if ascii.length = label.length then label
  else
    let start := ascii ++ if ascii.isEmpty then [] else ['-']
    "xn--".toList ++
      (place label ascii.length label.length 128 ⟨0, 72, ascii.length, start⟩).output

end GigBoard.Url.Punycode
