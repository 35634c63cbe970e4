import GigBoard.Text.Integer
import GigBoard.Url

/-!
# Settings

The service is set up by variables of its environment.  Two of them must be given; the others have
defaults.  A number that cannot be read stops the service, except for the size of the pool, for which
the default is taken instead.
-/

set_option autoImplicit false

namespace GigBoard

abbrev Environment := List (String × String)

def Environment.get? (env : Environment) (name : String) : Option String :=
  (env.find? (·.1 = name)).map (·.2)

structure Settings where
  databaseUrl : String
  poolSize : Int
  runsMigrations : Bool
  host : String
  port : Int
  secret : String
  issuer : String
  audience : String
  expiryMinutes : Int
  allowedOrigins : Option String
  deriving DecidableEq, Repr

inductive SettingsFault where
  | unset (name : String)
  | port (fault : Text.IntegerFault)
  | expiry (fault : Text.IntegerFault)
  deriving DecidableEq, Repr

namespace SettingsFault

def message : SettingsFault → String
  | .unset name => name ++ " must be set"
  | .port _ => "SERVER_PORT must be a valid u16"
  | .expiry _ => "JWT_EXPIRY_MINUTES must be an integer"

/-- What lies behind each fault. -/
def cause : SettingsFault → String
  | .unset _ => "environment variable not found"
  | .port fault => fault.message
  | .expiry fault => fault.message

end SettingsFault

namespace Settings

def defaultPoolSize : Int := 5

def isSwitchedOn (text : String) : Bool :=
  text = "1" || text.toList.map Char.toLower = "true".toList

def required (env : Environment) (name : String) : Except SettingsFault String :=
  match env.get? name with
  | none => .error (.unset name)
  | some value => .ok value

/-- The settings that an environment stands for, or the first fault found. -/
def ofEnvironment (env : Environment) : Except SettingsFault Settings := do
  let databaseUrl ← required env "DATABASE_URL"
  let poolSize := (env.get? "DATABASE_MAX_POOL_SIZE").bind (Text.integer? .uint32)
  let port ← (Text.readInteger .uint16 ((env.get? "SERVER_PORT").getD "4000").toList).mapError .port
  let secret ← required env "JWT_SECRET"
  let expiry ←
    (Text.readInteger .int64 ((env.get? "JWT_EXPIRY_MINUTES").getD "60").toList).mapError .expiry
  return {
    databaseUrl := databaseUrl
    poolSize := poolSize.getD defaultPoolSize
    runsMigrations := ((env.get? "RUN_MIGRATIONS").map isSwitchedOn).getD true
    host := (env.get? "SERVER_HOST").getD "127.0.0.1"
    port := port
    secret := secret
    issuer := (env.get? "JWT_ISSUER").getD "marketplace"
    audience := (env.get? "JWT_AUDIENCE").getD "marketplace-clients"
    expiryMinutes := expiry
    allowedOrigins := env.get? "CORS_ALLOWED_ORIGIN" }

/-- The address of the database as it may be shown, read under a conversion of domains. -/
def shownDatabaseUrlBy (toAscii : Url.ToAscii) (s : Settings) : String :=
  Url.redactedTextBy toAscii s.databaseUrl

def shownDatabaseUrl (s : Settings) : String := Url.redactedText s.databaseUrl

end Settings

end GigBoard
