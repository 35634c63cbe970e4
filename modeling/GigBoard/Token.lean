import GigBoard.Digest.Hmac
import GigBoard.Settings
import GigBoard.Text.Base64Url
import GigBoard.Timestamp
import GigBoard.Token.Claims
import GigBoard.Token.Header

/-!
# Bearer tokens

A token is a signed statement of claims in three parts between points: a header, the claims, and the
keyed hash of the two, each in base64url.  `Service.mint` writes tokens and `Service.verify` accepts
those with a right signature that are in time and come from the right issuer for the right audience.
-/

set_option autoImplicit false

namespace GigBoard.Token

/-! ## Lifetimes -/

inductive LifetimeFault where
  | tooLong
  | beyondCalendar
  deriving DecidableEq, Repr

def LifetimeFault.message : LifetimeFault → String
  | .tooLong => "TimeDelta::minutes out of bounds"
  | .beyondCalendar => "`DateTime + TimeDelta` overflowed"

def longestLifetime : Int := 9223372036854775

def lifetimeOfMinutes (minutes : Int) : Except LifetimeFault Int :=
  if -longestLifetime ≤ 60 * minutes ∧ 60 * minutes ≤ longestLifetime then .ok (60 * minutes)
  else .error .tooLong

/-- A number of seconds as an unsigned number of 64 bits; one below zero wraps around. -/
def wrapped (seconds : Int) : Nat := (seconds % 18446744073709551616).toNat

/-! ## The service -/

structure Service where
  secret : String
  issuer : String
  audience : String
  lifetime : Int
  deriving DecidableEq, Repr

structure Identity where
  userId : Uuid
  walletAddress : String
  role : String
  deriving DecidableEq

inductive Fault where
  | invalidToken
  | base64
  | json
  | invalidAlgorithm
  | invalidSignature
  | expiredSignature
  | invalidIssuer
  | invalidAudience
  deriving DecidableEq, Repr

def Fault.name : Fault → String
  | .invalidToken => "InvalidToken"
  | .base64 => "Base64"
  | .json => "Json"
  | .invalidAlgorithm => "InvalidAlgorithm"
  | .invalidSignature => "InvalidSignature"
  | .expiredSignature => "ExpiredSignature"
  | .invalidIssuer => "InvalidIssuer"
  | .invalidAudience => "InvalidAudience"

/-- How many seconds a token is accepted beyond its expiry. -/
def leeway : Nat := 60

def Claims.identity (c : Claims) : Identity := ⟨c.subject, c.wallet, c.role⟩

def decodePart {α : Type} (decoder : Json.Decoder α) (part : List Char) : Except Fault α :=
  match Text.Base64Url.decode? part with
  | none => .error .base64
  | some octets => (decoder.whole octets).mapError fun _ => .json

def encodePart (j : Json) : List Char := Text.Base64Url.encode (Text.Utf8.encode j.chars)

namespace Service

def ofSettings (s : Settings) : Except LifetimeFault Service :=
  (lifetimeOfMinutes s.expiryMinutes).map fun lifetime => ⟨s.secret, s.issuer, s.audience, lifetime⟩

def signature (service : Service) (message : List Char) : List Char :=
  Text.Base64Url.encode
    (Digest.Hmac.code (Text.Utf8.ofString service.secret) (Text.Utf8.encode message))

def claims (service : Service) (now : Timestamp) (who : Identity) : Except LifetimeFault Claims :=
  let expiry : Timestamp := ⟨now.micros + 1000000 * service.lifetime⟩
  if expiry.isRepresentable then
    .ok {
      subject := who.userId
      wallet := who.walletAddress
      role := who.role
      issuer := service.issuer
      audience := service.audience
      issuedAt := wrapped now.seconds
      expiresAt := wrapped expiry.seconds }
  else .error .beyondCalendar

def sign (service : Service) (c : Claims) : List Char :=
  let message := encodePart headerJson ++ '.' :: encodePart c.toJson
  message ++ '.' :: service.signature message

def mint (service : Service) (now : Timestamp) (who : Identity) : Except LifetimeFault String :=
  (service.claims now who).map fun c => String.ofList (service.sign c)

/-- Whether claims that were read hold for this service at a time. -/
def checkClaims (service : Service) (now : Timestamp) (c : Claims) : Except Fault Claims :=
  if c.expiresAt + leeway < wrapped now.seconds then .error .expiredSignature
  else if c.issuer ≠ service.issuer then .error .invalidIssuer
  else if c.audience ≠ service.audience then .error .invalidAudience
  else .ok c

def verify (service : Service) (now : Timestamp) (token : List Char) : Except Fault Claims :=
  match Text.cutLast '.' token with
  | none => .error .invalidToken
  | some (message, signature) =>
    match Text.cutLast '.' message with
    | none => .error .invalidToken
    | some (header, body) =>
      match decodePart Header.decoder header with
      | .error fault => .error fault
      | .ok algorithm =>
        if algorithm ≠ .hs256 then .error .invalidAlgorithm
        else if signature ≠ service.signature message then .error .invalidSignature
        else
          match decodePart Claims.decoder body with
          | .error fault => .error fault
          | .ok c => service.checkClaims now c

end Service

end GigBoard.Token
