import GigBoard.Account.Registration
import GigBoard.Http.Cors
import GigBoard.Store.Account
import GigBoard.Token

/-!
# Running the service

The commands of the operator: `migrate` sets the tables up, `issue-token` mints a token for the user
with a wallet, and the server itself starts only with usable settings and an address to listen on.
-/

set_option autoImplicit false

namespace GigBoard

/-- What a finished command leaves behind: its exit code and its two outputs. -/
structure Report where
  code : Nat
  output : String
  errors : String
  deriving DecidableEq, Repr

namespace Report

def success (output errors : String) : Report := ⟨0, output, errors⟩

def misuse (errors : String) : Report := ⟨1, "", errors⟩

def failure (message : String) : Report := ⟨1, "", "Error: " ++ message ++ "\n"⟩

/-- A command that failed for a reason behind which lies another. -/
def failureWithCause (message cause : String) : Report :=
  failure (message ++ "\n\nCaused by:\n    " ++ cause)

def abandoned (message : String) : Report := ⟨101, "", message ++ "\n"⟩

end Report

namespace Maintenance

def usage : String := "Usage: maintenance migrate | maintenance issue-token <wallet-address>\n"

def settingsReport (fault : SettingsFault) : Report :=
  .failureWithCause fault.message fault.cause

def migrate (tables : Option Store) : Report × Option Store :=
  match tables with
  | none => (.success "Applied 1 migration(s).\n" "", some .empty)
  | some store => (.success "Applied 0 migration(s).\n" "", some store)

def mintFor (settings : Settings) (now : Timestamp) (user : Account.User) : Report :=
  match Token.Service.ofSettings settings with
  | .error fault => .abandoned fault.message
  | .ok service =>
    match service.mint now ⟨user.id, user.walletAddress, Named.name user.role⟩ with
    | .error fault => .abandoned fault.message
    | .ok token =>
      .success (token ++ "\n")
        ("Token for " ++ user.username ++ " expires in " ++
          String.ofList (DecimalStyle.integerText service.lifetime) ++ " seconds.\n")

def issueToken (settings : Settings) (now : Timestamp) (wallet : String) (tables : Option Store) :
    Report :=
  let wallet := Account.normalWallet wallet
  match tables with
  | none => .failureWithCause "failed to look up user" "relation \"users\" does not exist"
  | some store =>
    match Store.userByWallet? wallet store with
    | .error _ => .failureWithCause "failed to look up user" "the row cannot be read"
    | .ok none => .failure ("no user registered with wallet address " ++ wallet)
    | .ok (some user) => mintFor settings now user

def run (words : List String) (env : Environment) (now : Timestamp) (tables : Option Store) :
    Report × Option Store :=
  match words with
  | [] => (.misuse usage, tables)
  | command :: rest =>
    if command = "migrate" then
      match Settings.ofEnvironment env with
      | .error fault => (settingsReport fault, tables)
      | .ok _ => migrate tables
    else if command = "issue-token" then
      match rest with
      | [] => (.misuse usage, tables)
      | wallet :: _ =>
        match Settings.ofEnvironment env with
        | .error fault => (settingsReport fault, tables)
        | .ok settings => (issueToken settings now wallet tables, tables)
    else (.misuse ("Unknown command: " ++ command ++ "\n" ++ usage), tables)

/-! ## Starting the server -/

def isIpv4 (cs : List Char) : Bool := (Url.dottedGroups? cs).isSome

/-- Whether a text is an address of 128 bits between brackets, perhaps with the number of a zone. -/
def isBracketedIpv6 (cs : List Char) : Bool :=
  match cs with
  | '[' :: rest =>
    let (address, zone) := Text.cutFirst '%' rest.dropLast
    rest.getLast? = some ']' && (Url.ipv6? address).isSome &&
      zone.all fun z => !z.isEmpty && (Text.readInteger .uint32 z).isOk && z.all Char.isDigit
  | _ => false

def isListenable (host : String) : Bool := isIpv4 host.toList || isBracketedIpv6 host.toList

/-- The report of a server that cannot start, if it cannot. -/
def startFailure? (env : Environment) : Option Report :=
  match Settings.ofEnvironment env with
  | .error fault => some (settingsReport fault)
  | .ok settings =>
    match Token.Service.ofSettings settings with
    | .error fault => some (.abandoned fault.message)
    | .ok _ =>
      if !isListenable settings.host then some (.failure "invalid socket address syntax")
      else
        match Http.Origins.ofText settings.allowedOrigins with
        | .error fault => some (.abandoned fault.message)
        | .ok _ => none

end Maintenance

end GigBoard
