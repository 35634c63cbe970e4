import GigBoard.Json.Reader

/-!
# Claims of a token

What a token says: who its bearer is, who issued it for whom, and between which seconds since the
beginning of 1970 it holds.  Claims are written as a JSON object and read from one in which each is
present once and of its type.
-/

set_option autoImplicit false

namespace GigBoard.Token

structure Claims where
  subject : Uuid
  wallet : String
  role : String
  issuer : String
  audience : String
  issuedAt : Nat
  expiresAt : Nat
  deriving DecidableEq

namespace Claims

def toJson (c : Claims) : Json :=
  .object [("sub", .string c.subject.text), ("wallet", .string c.wallet), ("role", .string c.role),
    ("iss", .string c.issuer), ("aud", .string c.audience), ("iat", .integer c.issuedAt),
    ("exp", .integer c.expiresAt)]

/-- Claims as far as they are read. -/
structure Draft where
  subject : Option Uuid
  wallet : Option String
  role : Option String
  issuer : Option String
  audience : Option String
  issuedAt : Option Nat
  expiresAt : Option Nat

def Draft.finish? (d : Draft) : Option Claims := do
  return ⟨← d.subject, ← d.wallet, ← d.role, ← d.issuer, ← d.audience, ← d.issuedAt, ← d.expiresAt⟩

def seconds : Json.Decoder Nat :=
  (Json.Decoder.integer ⟨0, 18446744073709551615⟩).refine fun n => some n.toNat

/-- Reads the time before which a token is not to be used, which does not count: a value of any kind,
but no array or object with something in it. -/
def ignoredStart : Json.Decoder Unit := fun bs =>
  match Json.skipSpace bs with
  | [] => .error .malformed
  | b :: rest =>
    if b = Json.octet '[' ∨ b = 0x7b then
      match Json.skipSpace rest with
      | [] => .error .malformed
      | c :: rest' =>
        if c = (if b = 0x7b then 0x7d else Json.octet ']') then .ok ((), rest')
        else .error .malformed
    else if b = Json.octet '"' then (Json.scanString rest).map fun r => ((), r.2)
    else (Json.skipValue (b :: rest)).map ((), ·)

def known : List (Json.Decoder.Member Draft) := [
  .of "sub" Json.Decoder.uuid fun d v => { d with subject := some v },
  .of "wallet" Json.Decoder.text fun d v => { d with wallet := some v },
  .of "role" Json.Decoder.text fun d v => { d with role := some v },
  .of "iss" Json.Decoder.text fun d v => { d with issuer := some v },
  .of "aud" Json.Decoder.text fun d v => { d with audience := some v },
  .of "iat" seconds fun d v => { d with issuedAt := some v },
  .of "exp" seconds fun d v => { d with expiresAt := some v },
  .of "nbf" ignoredStart fun d _ => d]

def decoder : Json.Decoder Claims := fun bs =>
  match Json.skipSpace bs with
  | [] => .error .malformed
  | b :: rest =>
    if b = 0x7b then
      (Json.Decoder.members known (b :: rest) true []
        ⟨none, none, none, none, none, none, none⟩ : Json.Decoder Draft).refine Draft.finish? rest
    else .error .mismatched

end Claims

end GigBoard.Token
