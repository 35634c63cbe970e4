import GigBoard.Text.Hex
import GigBoard.Text.Split

/-!
# Internet addresses in URLs

An address of 32 bits is written as four numbers between points.  It may be read in fewer parts, the
last of which fills what is left, and each part may be decimal, octal after `0` or hexadecimal after
`0x`.  An address of 128 bits is written as eight groups of hexadecimal digits between colons, the
longest run of zero groups, if it has more than one, left out.
-/

set_option autoImplicit false

namespace GigBoard.Url

/-! ## Addresses of 32 bits -/

/-- The digits of a base as a number; none if one of them is no digit of it. -/
def digitsOfBase? (base : Nat) (cs : List Char) : Option Nat :=
  cs.foldl (fun n c => n.bind fun n =>
    (Text.Hex.value? c).bind fun d => if d < base then some (n * base + d) else none) (some 0)

def ipv4Part? (cs : List Char) : Option Nat :=
  match cs with
  | [] => none
  | '0' :: x :: rest =>
    if x = 'x' ∨ x = 'X' then digitsOfBase? 16 rest else digitsOfBase? 8 (x :: rest)
  | cs => digitsOfBase? 10 cs

/-- The parts of a host name; a point at its end is left out. -/
def hostParts (cs : List Char) : List (List Char) :=
  let parts := Text.splitAt '.' cs
  if 1 < parts.length ∧ parts.getLast? = some [] then parts.dropLast else parts

/-- Whether a host name ends in a number, so that it must be an address. -/
def endsInNumber (cs : List Char) : Bool :=
  match (hostParts cs).getLast? with
  | none => false
  | some [] => false
  | some part => part.all (fun c => c.isDigit) || (ipv4Part? part).isSome

/-- Joins the parts of an address; the last fills the octets that the others leave. -/
def joinParts? : Nat → List Nat → Option Nat
  | _, [] => none
  | octets, [last] => if last < Nat.pow 256 octets then some last else none
  | octets, part :: parts =>
    if part < 256 then
      (joinParts? (octets - 1) parts).map fun rest => part * Nat.pow 256 (octets - 1) + rest
    else none

def ipv4? (cs : List Char) : Option Nat :=
  let parts := hostParts cs
  if 4 < parts.length then none else (parts.mapM ipv4Part?).bind (joinParts? 4)

def ipv4Chars (address : Nat) : List Char :=
  List.intercalate ['.'] ([3, 2, 1, 0].map fun i => Nat.toDigits 10 (address / Nat.pow 256 i % 256))

/-! ## Addresses of 128 bits -/

def group? (cs : List Char) : Option Nat :=
  if 1 ≤ cs.length ∧ cs.length ≤ 4 then Text.Hex.toNat? cs else none

def decimalOctet? (cs : List Char) : Option Nat :=
  if cs.length = 0 ∨ 3 < cs.length ∨ (cs.head? = some '0' ∧ 1 < cs.length) then none
  else (digitsOfBase? 10 cs).bind fun n => if n < 256 then some n else none

def dottedGroups? (cs : List Char) : Option (List Nat) :=
  match (Text.splitAt '.' cs).mapM decimalOctet? with
  | some [a, b, c, d] => some [a * 256 + b, c * 256 + d]
  | _ => none

/-- The groups between colons; at the end of an address the last may be dotted. -/
def groups? (atEnd : Bool) : List (List Char) → Option (List Nat)
  | [] => some []
  | [last] =>
    if atEnd && last.contains '.' then dottedGroups? last else (group? last).map ([·])
  | g :: gs => (group? g).bind fun n => (groups? atEnd gs).map (n :: ·)

/-- The groups of one side of a gap, which may have none. -/
def side? (atEnd : Bool) (cs : List Char) : Option (List Nat) :=
  match cs with
  | [] => some []
  | cs => groups? atEnd (Text.splitAt ':' cs)

def cutGap : List Char → Option (List Char × List Char)
  | ':' :: ':' :: rest => some ([], rest)
  | c :: cs => (cutGap cs).map fun (front, back) => (c :: front, back)
  | [] => none

def ipv6? (cs : List Char) : Option (List Nat) :=
  match cutGap cs with
  | none => (side? true cs).bind fun gs => if gs.length = 8 then some gs else none
  | some (front, back) =>
    match side? false front, side? true back with
    | some before, some after =>
      let known := before.length + after.length
      if known ≤ 7 then some (before ++ List.replicate (8 - known) 0 ++ after) else none
    | _, _ => none

def zeroRun (gs : List Nat) : Nat := (gs.takeWhile (· = 0)).length

def longestZeroRun : List Nat → Nat
  | [] => 0
  | g :: gs => max (zeroRun (g :: gs)) (longestZeroRun gs)

def groupChars (n : Nat) : List Char := Nat.toDigits 16 n

/-- The groups in front of the first run of zeros of the given length, and those behind it. -/
def cutZeros (run : Nat) : List Nat → List Nat × List Nat
  | [] => ([], [])
  | g :: gs =>
    if zeroRun (g :: gs) = run then ([], (g :: gs).drop run)
    else
      let (front, back) := cutZeros run gs
      (g :: front, back)

def ipv6Chars (gs : List Nat) : List Char :=
  let colons (part : List Nat) := List.intercalate [':'] (part.map groupChars)
  let run := longestZeroRun gs
  if run < 2 then colons gs
  else
    let (front, back) := cutZeros run gs
    colons front ++ ':' :: ':' :: colons back

end GigBoard.Url
