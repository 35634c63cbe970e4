import GigBoard.Account.Profile
import GigBoard.Json.Decoder
import GigBoard.Text.LowerCase

/-!
# Registration and changes of the own account

A wallet is kept without blanks around it and in lower case, so that one wallet is one account.
-/

set_option autoImplicit false

namespace GigBoard.Account

/-- The form in which a wallet is kept. -/
def normalWallet (s : String) : String := Text.LowerCase.ofString (Text.trim s)

structure Registration where
  walletAddress : Option String
  username : Option String
  role : Option String
  email : Option String
  bio : Option String
  avatarUrl : Option String
  deriving DecidableEq, Repr

namespace Registration

def known : List (Json.Decoder.Member Registration) := [
  .of "walletAddress" Json.Decoder.text.nullable fun r v => { r with walletAddress := v },
  .of "username" Json.Decoder.text.nullable fun r v => { r with username := v },
  .of "role" Json.Decoder.text.nullable fun r v => { r with role := v },
  .of "email" Json.Decoder.text.nullable fun r v => { r with email := v },
  .of "bio" Json.Decoder.text.nullable fun r v => { r with bio := v },
  .of "avatarUrl" Json.Decoder.text.nullable fun r v => { r with avatarUrl := v }]

def decoder : Json.Decoder Registration :=
  Json.Decoder.record ⟨none, none, none, none, none, none⟩ known

def toUser (r : Registration) (id : Uuid) (now : Timestamp) : Except Failure User := do
  let wallet ←
    match r.walletAddress.bind Text.nonBlank? with
    | none => throw (.required "walletAddress")
    | some wallet => pure (Text.LowerCase.ofString wallet)
  let username ←
    match r.username.bind Text.nonBlank? with
    | none => throw (.required "username")
    | some username => pure username
  let role ←
    match r.role with
    | none => throw (.required "role")
    | some role => (Named.read role).mapError .unknownName
  return {
    id := id
    walletAddress := wallet
    username := username
    email := r.email.bind Text.nonBlank?
    bio := r.bio.bind Text.nonBlank?
    avatarUrl := r.avatarUrl.bind Text.nonBlank?
    role := role
    createdAt := now
    updatedAt := now }

end Registration

def register (r : Registration) : Action UserView := do
  let ctx ← Action.context
  let user ← Action.ofExcept (r.toUser (ctx.freshId 0) ctx.now)
  Action.connect
  Action.change (Store.addUser user) (Failure.alreadyRegistered.onDuplicate)
  let stored ← Action.expect (.store .noRow) (← Action.query (Store.user? user.id))
  return .ofUser stored

structure ProfileChange where
  username : Option String
  email : TextPatch
  bio : TextPatch
  avatarUrl : TextPatch
  deriving DecidableEq, Repr

namespace ProfileChange

def usernameOf (body : Json) : Except Failure (Option String) :=
  match body.member? "username" with
  | none => .ok none
  | some (.string s) =>
    match Text.nonBlank? s with
    | none => .error (.blank "username")
    | some name => .ok (some name)
  | some _ => .error (.notText "username")

def patchOf (body : Json) (field : String) : Except Failure TextPatch :=
  match body.member? field with
  | none => .ok .keep
  | some value =>
    match TextPatch.ofMember? (some value) with
    | none => .error (.notTextOrNull field value)
    | some patch => .ok patch

/-- The change that a body asks for; a name that is the present one is no change. -/
def ofBody (body : Json) (present : User) : Except Failure ProfileChange := do
  let username ← usernameOf body
  let email ← patchOf body "email"
  let bio ← patchOf body "bio"
  let avatarUrl ← patchOf body "avatarUrl"
  return ⟨username.filter (· ≠ present.username), email, bio, avatarUrl⟩

def isEmpty (c : ProfileChange) : Bool :=
  c.username.isNone && c.email.change?.isNone && c.bio.change?.isNone && c.avatarUrl.change?.isNone

def apply (c : ProfileChange) (u : User) (now : Timestamp) : User :=
  { u with
    username := c.username.getD u.username
    email := c.email.apply u.email
    bio := c.bio.apply u.bio
    avatarUrl := c.avatarUrl.apply u.avatarUrl
    updatedAt := now }

end ProfileChange

def updateSelf (caller : Uuid) (body : Json) : Action UserView := do
  Action.connect
  let present ← Action.expect (.missing "user") (← Action.query (Store.user? caller))
  let change ← Action.ofExcept (ProfileChange.ofBody body present)
  if change.isEmpty then return .ofUser present
  else
    let ctx ← Action.context
    Action.change (Store.replaceUser (change.apply present ctx.now))
      (Failure.usernameTaken.onDuplicate)
    let updated ← Action.expect (.store .noRow) (← Action.query (Store.user? caller))
    return .ofUser updated

end GigBoard.Account
