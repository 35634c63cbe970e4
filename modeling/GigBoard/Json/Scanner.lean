import GigBoard.Json
import GigBoard.Text.Utf8

/-!
# Scanning JSON text

The tokens of JSON text as octets: blanks, the three words, strings and numbers, and the skipping of
whole values nobody asked for.  Each scanner returns what it read and the octets behind it, or says
that the text is malformed.

A number keeps the digits that fit into 64 bits; later digits only move the decimal point.  It is
whole if it has neither fraction nor exponent and fits, and real otherwise.
-/

set_option autoImplicit false

namespace GigBoard.Json

/-- Why JSON text is refused: it is not JSON, or it is but does not have the expected form. -/
inductive Fault where
  | malformed
  | mismatched
  deriving DecidableEq, Repr

/-- What reading gives: a result with the octets that are left, or the first fault met. -/
abbrev Read (α : Type) := Except Fault (α × List UInt8)

def octet (c : Char) : UInt8 := c.toNat.toUInt8

def isSpace (b : UInt8) : Bool := b = 32 || b = 10 || b = 9 || b = 13

def skipSpace (bs : List UInt8) : List UInt8 := bs.dropWhile isSpace

def isDigit (b : UInt8) : Bool := 48 ≤ b && b ≤ 57

def digitValue (b : UInt8) : Nat := b.toNat - 48

def expectWord (word : List UInt8) (bs : List UInt8) : Except Fault (List UInt8) :=
  if word.isPrefixOf bs then .ok (bs.drop word.length) else .error .malformed

/-! ## Strings -/

def hex4? (a b c d : UInt8) : Option Nat :=
  Text.Hex.toNat? ([a, b, c, d].map fun x => Char.ofNat x.toNat)

def shortEscape? (b : UInt8) : Option UInt8 :=
  if b = octet '"' then some b
  else if b = octet '\\' then some b
  else if b = octet '/' then some b
  else if b = octet 'b' then some 8
  else if b = octet 'f' then some 12
  else if b = octet 'n' then some 10
  else if b = octet 'r' then some 13
  else if b = octet 't' then some 9
  else none

/-- The character of a four-digit escape, and the octets behind it.  Halves of a character beyond
the first plane stand for it only together, in order. -/
def unicodeEscape? (bs : List UInt8) : Option (List UInt8 × List UInt8) :=
  match bs with
  | a :: b :: c :: d :: rest =>
    match hex4? a b c d with
    | none => none
    | some n =>
      if 0xDC00 ≤ n ∧ n ≤ 0xDFFF then none
      else if 0xD800 ≤ n ∧ n ≤ 0xDBFF then
        match rest with
        | s :: u :: e :: f :: g :: h :: rest' =>
          if s = octet '\\' ∧ u = octet 'u' then
            match hex4? e f g h with
            | none => none
            | some m =>
              if 0xDC00 ≤ m ∧ m ≤ 0xDFFF then
                some (Text.Utf8.encodeChar
                  (Char.ofNat (0x10000 + (n - 0xD800) * 1024 + (m - 0xDC00))), rest')
              else none
          else none
        | _ => none
      else some (Text.Utf8.encodeChar (Char.ofNat n), rest)
  | _ => none

def escape? (bs : List UInt8) : Option (List UInt8 × List UInt8) :=
  match bs with
  | [] => none
  | b :: rest =>
    if b = octet 'u' then unicodeEscape? rest
    else (shortEscape? b).map fun o => ([o], rest)

/-- An escape of four digits takes octets away. -/
theorem unicodeEscape?_length {bs octets rest : List UInt8}
    (h : unicodeEscape? bs = some (octets, rest)) : rest.length < bs.length := by
  unfold unicodeEscape? at h
  repeat' split at h
  all_goals simp only [reduceCtorEq, Option.some.injEq, Prod.mk.injEq] at h
  all_goals
    obtain ⟨_, rfl⟩ := h
    simp only [List.length_cons]
    omega

/-- An escape takes octets away. -/
theorem escape?_length {bs octets rest : List UInt8}
    (h : escape? bs = some (octets, rest)) : rest.length < bs.length := by
  unfold escape? at h
  split at h
  · exact absurd h (by simp)
  · split at h
    · exact Nat.lt_succ_of_lt (unicodeEscape?_length h)
    · simp only [Option.map_eq_some_iff, Prod.mk.injEq] at h
      obtain ⟨_, _, _, rfl⟩ := h
      simp

/-- The octets of a string up to its closing quote, in front of those already found. -/
def stringOctets (acc : List UInt8) (bs : List UInt8) : Read (List UInt8) :=
  match bs with
  | [] => .error .malformed
  | b :: rest =>
    if b = octet '"' then .ok (acc.reverse, rest)
    else if b = octet '\\' then
      match _h : escape? rest with
      | none => .error .malformed
      | some (octets, rest') => stringOctets (octets.reverse ++ acc) rest'
    else if b < 32 then .error .malformed
    else stringOctets (b :: acc) rest
termination_by bs.length
decreasing_by
  · exact Nat.lt_succ_of_lt (escape?_length _h)
  · exact Nat.lt_succ_self _

def scanString (bs : List UInt8) : Read String :=
  match stringOctets [] bs with
  | .error f => .error f
  | .ok (octets, rest) =>
    match Text.Utf8.toString? octets with
    | none => .error .malformed
    | some s => .ok (s, rest)

/-- The octets behind a string that nobody asked for, from behind its opening quote.  Its escapes
must be well formed; what they and the other octets stand for does not matter. -/
def skipString : List UInt8 → Except Fault (List UInt8)
  | [] => .error .malformed
  | b :: rest =>
    if b = octet '"' then .ok rest
    else if b = octet '\\' then
      match rest with
      | [] => .error .malformed
      | e :: rest' =>
        if (shortEscape? e).isSome then skipString rest'
        else if e = octet 'u' then
          match rest' with
          | x :: y :: z :: w :: rest'' =>
            if (hex4? x y z w).isSome then skipString rest'' else .error .malformed
          | _ => .error .malformed
        else .error .malformed
    else if b < 32 then .error .malformed
    else skipString rest

/-! ## Numbers -/

/-- A number as it was written: whole and not below zero, whole and below zero, or real. -/
inductive Number where
  | natural (n : Nat)
  | negative (n : Nat)
  | real (x : Binary64)
  deriving DecidableEq, Repr

def Number.toJson : Number → Json
  | .natural n => .integer n
  | .negative n => .integer (-(n : Int))
  | .real x => .real x

/-- The digits of a whole part kept so far, how many were left out, and the octets behind. -/
structure Digits where
  kept : Nat
  left : Nat
  rest : List UInt8

def fits (kept : Nat) (b : UInt8) : Bool := 10 * kept + digitValue b < Nat.pow 2 64

def dropDigits (count : Nat) : List UInt8 → Nat × List UInt8
  | [] => (count, [])
  | b :: rest => if isDigit b then dropDigits (count + 1) rest else (count, b :: rest)

/-- Keeps the digits of a whole part until one does not fit; it and those behind are left out. -/
def wholeDigits (kept : Nat) : List UInt8 → Digits
  | [] => ⟨kept, 0, []⟩
  | b :: rest =>
    if isDigit b then
      if fits kept b then wholeDigits (10 * kept + digitValue b) rest
      else
        let (count, rest') := dropDigits 0 (b :: rest)
        ⟨kept, count, rest'⟩
    else ⟨kept, 0, b :: rest⟩

/-- Keeps the digits of a fraction until one does not fit; `left` counts the kept ones. -/
def fractionDigits (kept places : Nat) : List UInt8 → Digits
  | [] => ⟨kept, places, []⟩
  | b :: rest =>
    if isDigit b then
      if fits kept b then fractionDigits (10 * kept + digitValue b) (places + 1) rest
      else ⟨kept, places, (dropDigits 0 (b :: rest)).2⟩
    else ⟨kept, places, b :: rest⟩

def realOf (positive : Bool) (kept : Nat) (exponent : Int) : Option Binary64 :=
  ((Binary64.ofNat kept).bind (·.scaleByTen exponent)).map fun x =>
    if positive then x else x.negate

def greatestExponent : Nat := 2147483647

/-- The digits of an exponent, none if they go beyond the greatest, and the octets behind them. -/
def exponentDigits (n : Nat) : List UInt8 → Option Nat × List UInt8
  | [] => (some n, [])
  | b :: rest =>
    if isDigit b then
      if 10 * n + digitValue b ≤ greatestExponent then
        exponentDigits (10 * n + digitValue b) rest
      else (none, (dropDigits 0 (b :: rest)).2)
    else (some n, b :: rest)

/-- Reads an exponent behind its letter and builds the number.  An exponent beyond all bounds makes
a significand other than zero too large or vanish. -/
def scanExponent (positive : Bool) (kept : Nat) (shift : Int) (bs : List UInt8) : Read Number :=
  let (up, bs) :=
    match bs with
    | b :: rest =>
      if b = octet '+' then (true, rest) else if b = octet '-' then (false, rest) else (true, bs)
    | [] => (true, bs)
  match bs with
  | [] => .error .malformed
  | b :: _ =>
    if isDigit b then
      let (exponent, rest) := exponentDigits 0 bs
      let value :=
        match exponent with
        | some e => realOf positive kept (shift + if up then (e : Int) else -(e : Int))
        | none => if kept != 0 && up then none else realOf positive 0 0
      match value with
      | none => .error .malformed
      | some x => .ok (.real x, rest)
    else .error .malformed

def isExponentMark (b : UInt8) : Bool := b = octet 'e' || b = octet 'E'

def scanScale (positive : Bool) (kept : Nat) (shift : Int) (bs : List UInt8) : Read Number :=
  let plain : Read Number :=
    match realOf positive kept shift with
    | none => .error .malformed
    | some x => .ok (.real x, bs)
  match bs with
  | b :: rest => if isExponentMark b then scanExponent positive kept shift rest else plain
  | [] => plain

def scanFraction (positive : Bool) (kept : Nat) (shift : Int) (bs : List UInt8) : Read Number :=
  match bs with
  | [] => .error .malformed
  | b :: _ =>
    if isDigit b then
      let ds := fractionDigits kept 0 bs
      scanScale positive ds.kept (shift - ds.left) ds.rest
    else .error .malformed

def wholeNumber (positive : Bool) (n : Nat) : Read Number → Read Number := fun real =>
  if positive then real.map fun (_, rest) => (.natural n, rest)
  else if n = 0 ∨ Nat.pow 2 63 < n then real
  else real.map fun (_, rest) => (.negative n, rest)

def scanNumber (positive : Bool) (bs : List UInt8) : Read Number :=
  match bs with
  | [] => .error .malformed
  | b :: rest =>
    if !isDigit b then .error .malformed
    else if b = octet '0' && (rest.head?.map isDigit).getD false then .error .malformed
    else
      let ds := wholeDigits 0 bs
      match ds.rest with
      | [] =>
        let real := scanScale positive ds.kept ds.left []
        if ds.left = 0 then wholeNumber positive ds.kept real else real
      | c :: rest' =>
        if c = octet '.' then scanFraction positive ds.kept ds.left rest'
        else
          let real := scanScale positive ds.kept ds.left (c :: rest')
          if ds.left = 0 && !isExponentMark c then wholeNumber positive ds.kept real else real

def dropDigitRun (bs : List UInt8) : List UInt8 := bs.dropWhile isDigit

def skipDigits (bs : List UInt8) : Except Fault (List UInt8) :=
  match bs with
  | b :: _ => if isDigit b then .ok (dropDigitRun bs) else .error .malformed
  | [] => .error .malformed

def skipExponent (bs : List UInt8) : Except Fault (List UInt8) :=
  match bs with
  | b :: rest =>
    if isExponentMark b then
      match rest with
      | s :: rest' => if s = octet '+' ∨ s = octet '-' then skipDigits rest' else skipDigits rest
      | [] => .error .malformed
    else .ok bs
  | [] => .ok []

/-- The octets behind a number that nobody asked for, from behind its sign; its size does not
matter. -/
def skipNumber (bs : List UInt8) : Except Fault (List UInt8) :=
  match bs with
  | [] => .error .malformed
  | b :: rest =>
    if !isDigit b then .error .malformed
    else if b = octet '0' && (rest.head?.map isDigit).getD false then .error .malformed
    else
      match dropDigitRun bs with
      | c :: rest' =>
        if c = octet '.' then (skipDigits rest').bind skipExponent else skipExponent (c :: rest')
      | [] => .ok []

/-! ## Skipping values -/

inductive Frame where
  | array
  | object
  deriving DecidableEq, Repr

def Frame.closing : Frame → UInt8
  | .array => octet ']'
  | .object => 0x7d

def skipName (bs : List UInt8) : Except Fault (List UInt8) :=
  match skipSpace bs with
  | b :: rest =>
    if b = octet '"' then
      match skipString rest with
      | .error f => .error f
      | .ok rest' =>
        match skipSpace rest' with
        | c :: rest'' => if c = octet ':' then .ok rest'' else .error .malformed
        | [] => .error .malformed
    else .error .malformed
  | [] => .error .malformed

/-- Skips a value that is neither array nor object, and says which of the two begins otherwise. -/
def skipScalar (b : UInt8) (rest : List UInt8) : Except Fault (Option Frame × List UInt8) :=
  if b = octet 'n' then (expectWord ("ull".toList.map octet) rest).map (none, ·)
  else if b = octet 't' then (expectWord ("rue".toList.map octet) rest).map (none, ·)
  else if b = octet 'f' then (expectWord ("alse".toList.map octet) rest).map (none, ·)
  else if b = octet '-' then (skipNumber rest).map (none, ·)
  else if isDigit b then (skipNumber (b :: rest)).map (none, ·)
  else if b = octet '"' then (skipString rest).map (none, ·)
  else if b = octet '[' then .ok (some .array, rest)
  else if b = 0x7b then .ok (some .object, rest)
  else .error .malformed

/-- Skips the rest of the open arrays and objects, the innermost first; `fresh` says that the
innermost has just begun.  The first list bounds the number of steps: it has an octet for each token
that may follow. -/
def skipOpen : List UInt8 → Bool → List Frame → List UInt8 → Except Fault (List UInt8)
  | _, _, [], bs => .ok bs
  | [], _, _ :: _, _ => .error .malformed
  | _ :: bound, fresh, frame :: outer, bs =>
    match skipSpace bs with
    | [] => .error .malformed
    | b :: rest =>
      if b = frame.closing then skipOpen bound false outer rest
      else
        let valueAt : Except Fault (List UInt8) :=
          if fresh then .ok (b :: rest)
          else if b = octet ',' then .ok rest
          else .error .malformed
        match valueAt with
        | .error f => .error f
        | .ok bs₁ =>
          match (if frame = .object then skipName bs₁ else .ok bs₁) with
          | .error f => .error f
          | .ok bs₂ =>
            match skipSpace bs₂ with
            | [] => .error .malformed
            | c :: rest' =>
              match skipScalar c rest' with
              | .error f => .error f
              | .ok (none, bs₃) => skipOpen bound false (frame :: outer) bs₃
              | .ok (some inner, bs₃) => skipOpen bound true (inner :: frame :: outer) bs₃

def skipValue (bs : List UInt8) : Except Fault (List UInt8) :=
  match skipSpace bs with
  | [] => .error .malformed
  | b :: rest =>
    match skipScalar b rest with
    | .error f => .error f
    | .ok (none, rest') => .ok rest'
    | .ok (some frame, rest') => skipOpen (b :: rest') true [frame] rest'

end GigBoard.Json
