import GigBoard.Json.Scanner
import GigBoard.Text.Integer
import GigBoard.Uuid

/-!
# Decoding JSON text

A decoder reads a value of one kind at the front of some octets.  Reading goes from left to right and
the first problem decides: text that is not JSON is malformed, JSON of another form is mismatched.

A record is written as an object, or as an array of all its members in their order.  Members of an
object that the record does not have are skipped; a member that it has may stand there only once.
-/

set_option autoImplicit false

namespace GigBoard.Json

/-- Reads a value of one kind at the front of some octets. -/
abbrev Decoder (α : Type) := List UInt8 → Read α

/-! ## Arrays and objects step by step -/

/-- Whether another element of an array follows: the octets where it begins, or those behind the
closing bracket. -/
def nextElement (first : Bool) (bs : List UInt8) : Except Fault (Bool × List UInt8) :=
  match skipSpace bs with
  | [] => .error .malformed
  | b :: rest =>
    if b = octet ']' then .ok (false, rest)
    else if first then .ok (true, b :: rest)
    else if b = octet ',' then
      match skipSpace rest with
      | [] => .error .malformed
      | c :: rest' => if c = octet ']' then .error .malformed else .ok (true, c :: rest')
    else .error .malformed

def closeArray (bs : List UInt8) : Except Fault (List UInt8) :=
  match skipSpace bs with
  | [] => .error .malformed
  | b :: rest => if b = octet ']' then .ok rest else .error .malformed

def memberName (bs : List UInt8) : Read (Option String) :=
  match bs with
  | [] => .error .malformed
  | b :: rest =>
    if b = octet '"' then
      match scanString rest with
      | .error f => .error f
      | .ok (name, rest') => .ok (some name, rest')
    else .error .malformed

/-- The name of the next member of an object and the octets behind it, or no name and the octets
behind the closing brace. -/
def nextMember (first : Bool) (bs : List UInt8) : Read (Option String) :=
  match skipSpace bs with
  | [] => .error .malformed
  | b :: rest =>
    if b = 0x7d then .ok (none, rest)
    else if first then memberName (b :: rest)
    else if b = octet ',' then memberName (skipSpace rest)
    else .error .malformed

def afterColon (bs : List UInt8) : Except Fault (List UInt8) :=
  match skipSpace bs with
  | [] => .error .malformed
  | b :: rest => if b = octet ':' then .ok rest else .error .malformed

namespace Decoder

/-! ## Single values -/

/-- The fault of a value of another kind than the expected one.  A word, a number or a string must
at least be well formed. -/
def refuse {α : Type} : Decoder α := fun bs =>
  match bs with
  | [] => .error .malformed
  | b :: rest =>
    let wellFormed : Except Fault Unit :=
      if b = octet 'n' then (expectWord ("ull".toList.map octet) rest).map fun _ => ()
      else if b = octet 't' then (expectWord ("rue".toList.map octet) rest).map fun _ => ()
      else if b = octet 'f' then (expectWord ("alse".toList.map octet) rest).map fun _ => ()
      else if b = octet '-' then (scanNumber false rest).map fun _ => ()
      else if isDigit b then (scanNumber true (b :: rest)).map fun _ => ()
      else if b = octet '"' then (scanString rest).map fun _ => ()
      else if b = octet '[' ∨ b = 0x7b then .ok ()
      else .error .malformed
    match wellFormed with
    | .error f => .error f
    | .ok () => .error .mismatched

def text : Decoder String := fun bs =>
  match skipSpace bs with
  | [] => .error .malformed
  | b :: rest => if b = octet '"' then scanString rest else refuse (b :: rest)

def number : Decoder Number := fun bs =>
  match skipSpace bs with
  | [] => .error .malformed
  | b :: rest =>
    if b = octet '-' then scanNumber false rest
    else if isDigit b then scanNumber true (b :: rest)
    else refuse (b :: rest)

def refine {α β : Type} (decoder : Decoder α) (make : α → Option β) : Decoder β := fun bs =>
  match decoder bs with
  | .error f => .error f
  | .ok (a, rest) =>
    match make a with
    | none => .error .mismatched
    | some b => .ok (b, rest)

/-- A number as a real number, rounded if it is a large whole one. -/
def realOfNumber : Number → Option Binary64
  | .natural n => Binary64.ofNat n
  | .negative n => (Binary64.ofNat n).map Binary64.negate
  | .real x => some x

def real : Decoder Binary64 := number.refine realOfNumber

def integerOfNumber (range : Text.IntegerRange) : Number → Option Int
  | .natural n => if range.contains n then some n else none
  | .negative n => if range.contains (-(n : Int)) then some (-(n : Int)) else none
  | .real _ => none

def integer (range : Text.IntegerRange) : Decoder Int := number.refine (integerOfNumber range)

def uuid : Decoder Uuid := text.refine Uuid.ofString?

/-- Reads null as none, and anything else by another decoder. -/
def nullable {α : Type} (decoder : Decoder α) : Decoder (Option α) := fun bs =>
  let present : Read (Option α) :=
    match decoder bs with
    | .error f => .error f
    | .ok (a, rest) => .ok (some a, rest)
  match skipSpace bs with
  | [] => present
  | b :: rest =>
    if b = octet 'n' then (expectWord ("ull".toList.map octet) rest).map (none, ·) else present

/-- Reads one of some names, given as a string or as the only member of an object, with the value
null. -/
def variant {α : Type} (ofName : String → Option α) : Decoder α := fun bs =>
  match skipSpace bs with
  | [] => .error .malformed
  | b :: rest =>
    if b = octet '"' then text.refine ofName (b :: rest)
    else if b = 0x7b then
      match text.refine ofName rest with
      | .error f => .error f
      | .ok (a, rest₁) =>
        match afterColon rest₁ with
        | .error f => .error f
        | .ok rest₂ =>
          match skipSpace rest₂ with
          | [] => .error .malformed
          | c :: rest₃ =>
            if c = octet 'n' then
              match expectWord ("ull".toList.map octet) rest₃ with
              | .error f => .error f
              | .ok rest₄ =>
                match skipSpace rest₄ with
                | [] => .error .malformed
                | d :: rest₅ => if d = 0x7d then .ok (a, rest₅) else .error .malformed
            else refuse (c :: rest₃)
    else .error .malformed

/-! ## Arrays -/

/-- The rest of an array, in front of the elements already read.  The first list bounds the number of
steps: it has an octet for each element that may follow and one for the closing bracket. -/
def elements {α : Type} (item : Decoder α) : List UInt8 → Bool → List α → Decoder (List α)
  | [], _, _, _ => .error .malformed
  | _ :: bound, first, acc, bs =>
    match nextElement first bs with
    | .error f => .error f
    | .ok (false, rest) => .ok (acc.reverse, rest)
    | .ok (true, rest) =>
      match item rest with
      | .error f => .error f
      | .ok (a, rest') => elements item bound false (a :: acc) rest'

def array {α : Type} (item : Decoder α) : Decoder (List α) := fun bs =>
  match skipSpace bs with
  | [] => .error .malformed
  | b :: rest =>
    if b = octet '[' then elements item (b :: rest) true [] rest else refuse (b :: rest)

/-! ## Records -/

/-- A member of a record of type `σ`: its name, whether it may be missing at the end of an array,
and how its value is read into the record. -/
structure Member (σ : Type) where
  name : String
  omissible : Bool
  read : σ → Decoder σ

/-- Reads the members of an object into a record; `seen` holds the names met so far.  The first list
bounds the number of steps: it has an octet for each member that may follow and one for the closing
brace. -/
def members {σ : Type} (known : List (Member σ)) : List UInt8 → Bool → List String → σ → Decoder σ
  | [], _, _, _, _ => .error .malformed
  | _ :: bound, first, seen, record, bs =>
    match nextMember first bs with
    | .error f => .error f
    | .ok (none, rest) => .ok (record, rest)
    | .ok (some name, rest) =>
      match known.find? (·.name = name) with
      | none =>
        match (afterColon rest).bind skipValue with
        | .error f => .error f
        | .ok rest' => members known bound false seen record rest'
      | some member =>
        if name ∈ seen then .error .mismatched
        else
          match (afterColon rest).bind (member.read record) with
          | .error f => .error f
          | .ok (record', rest') => members known bound false (name :: seen) record' rest'

def positions {σ : Type} : List (Member σ) → Bool → σ → Decoder σ
  | [], _, record, bs => (closeArray bs).map (record, ·)
  | member :: known, first, record, bs =>
    match nextElement first bs with
    | .error f => .error f
    | .ok (false, _) =>
      if member.omissible then positions known first record bs else .error .mismatched
    | .ok (true, rest) =>
      match member.read record rest with
      | .error f => .error f
      | .ok (record', rest') => positions known false record' rest'

/-- Reads a record with the given members, starting from a record without values. -/
def record {σ : Type} (start : σ) (known : List (Member σ)) : Decoder σ := fun bs =>
  match skipSpace bs with
  | [] => .error .malformed
  | b :: rest =>
    if b = 0x7b then members known (b :: rest) true [] start rest
    else if b = octet '[' then positions known true start rest
    else refuse (b :: rest)

def Member.of {σ α : Type} (name : String) (decoder : Decoder α) (put : σ → α → σ) : Member σ where
  name := name
  omissible := false
  read record bs :=
    match decoder bs with
    | .error f => .error f
    | .ok (a, rest) => .ok (put record a, rest)

/-! ## Texts -/

/-- The value at the front of a text; what follows it does not matter. -/
def leading {α : Type} (decoder : Decoder α) (bs : List UInt8) : Except Fault α :=
  (decoder bs).map (·.1)

def whole {α : Type} (decoder : Decoder α) (bs : List UInt8) : Except Fault α :=
  match decoder bs with
  | .error f => .error f
  | .ok (a, rest) => if (skipSpace rest).isEmpty then .ok a else .error .malformed

end Decoder

end GigBoard.Json
