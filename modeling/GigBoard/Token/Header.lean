import GigBoard.Json.Reader

/-!
# Headers of tokens

The header of a token names the algorithm of its signature and may say more, which must then be of
the right form.
-/

set_option autoImplicit false

namespace GigBoard.Token

inductive Algorithm where
  | hs256 | hs384 | hs512 | es256 | es384 | rs256 | rs384 | rs512 | ps256 | ps384 | ps512 | edDsa
  deriving DecidableEq, Repr

def Algorithm.ofName? (s : String) : Option Algorithm :=
  ([("HS256", .hs256), ("HS384", .hs384), ("HS512", .hs512), ("ES256", .es256), ("ES384", .es384),
    ("RS256", .rs256), ("RS384", .rs384), ("RS512", .rs512), ("PS256", .ps256), ("PS384", .ps384),
    ("PS512", .ps512), ("EdDSA", .edDsa)].find? (·.1 = s)).map (·.2)

def headerJson : Json := .object [("typ", .string "JWT"), ("alg", .string "HS256")]

namespace Header

def hasText (j : Json) (name : String) : Bool :=
  match j.member? name with
  | some (.string _) => true
  | _ => false

def hasOneOf (j : Json) (name : String) (texts : List String) : Bool :=
  match j.member? name with
  | some (.string s) => texts.contains s
  | _ => false

def mayHaveText (j : Json) (name : String) : Bool :=
  match j.member? name with
  | none => true
  | some .null => true
  | some (.string _) => true
  | some _ => false

def mayHaveTexts (j : Json) (name : String) : Bool :=
  match j.member? name with
  | none => true
  | some .null => true
  | some (.array es) =>
    es.all fun e =>
      match e with
      | .string _ => true
      | _ => false
  | some _ => false

def curves : List String := ["P-256", "P-384", "P-521", "Ed25519"]

/-- Whether a value describes a key: its kind with the numbers that belong to it. -/
def isKey (j : Json) : Bool :=
  ((hasOneOf j "kty" ["EC"] && hasOneOf j "crv" curves && hasText j "x" && hasText j "y") ||
    (hasOneOf j "kty" ["RSA"] && hasText j "n" && hasText j "e") ||
    (hasOneOf j "kty" ["oct"] && hasText j "k") ||
    (hasOneOf j "kty" ["OKP"] && hasOneOf j "crv" curves && hasText j "x")) &&
    ["use", "alg", "kid", "x5u", "x5t", "x5t#S256"].all (mayHaveText j) &&
    ["key_ops", "x5c"].all (mayHaveTexts j)

def key : Json.Decoder Unit := Json.Decoder.json.refine fun j => if isKey j then some () else none

/-- A member that must be of the right form where it is given, and is not used. -/
def unused {α : Type} (name : String) (decoder : Json.Decoder α) :
    Json.Decoder.Member (Option Algorithm) :=
  .of name decoder.nullable fun found _ => found

def known : List (Json.Decoder.Member (Option Algorithm)) := [
  unused "typ" Json.Decoder.text,
  .of "alg" (Json.Decoder.variant Algorithm.ofName?) fun _ found => some found,
  unused "cty" Json.Decoder.text,
  unused "jku" Json.Decoder.text,
  unused "jwk" key,
  unused "kid" Json.Decoder.text,
  unused "x5u" Json.Decoder.text,
  unused "x5c" (Json.Decoder.array Json.Decoder.text),
  unused "x5t" Json.Decoder.text,
  unused "x5t#S256" Json.Decoder.text]

def decoder : Json.Decoder Algorithm := (Json.Decoder.record none known).refine id

end Header

end GigBoard.Token
