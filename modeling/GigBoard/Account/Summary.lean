import GigBoard.Action
import GigBoard.Store.Account

/-!
# Users in the answers of others

The public part of a user that other resources show.
-/

set_option autoImplicit false

namespace GigBoard.Account

/-- The public part of a user; the biography is shown in some places only. -/
structure UserSummary where
  id : Uuid
  username : String
  avatarUrl : Option String
  bio : Option String
  deriving DecidableEq

namespace UserSummary

def ofUser (u : User) : UserSummary := ⟨u.id, u.username, u.avatarUrl, none⟩

def withBio (u : User) : UserSummary := ⟨u.id, u.username, u.avatarUrl, u.bio⟩

def toJson (s : UserSummary) : Json :=
  .object ([("id", .string s.id.text), ("username", .string s.username),
    ("avatarUrl", Json.orNull s.avatarUrl)] ++ Json.ifPresent "bio" (s.bio.map .string))

end UserSummary

def among (users : List User) (id : Uuid) : Option User := users.find? (·.id = id)

/-- The summary of a user that must be among some that were loaded. -/
def summaryAmong (users : List User) (id : Uuid) : Except Failure UserSummary :=
  match among users id with
  | none => .error .incomplete
  | some u => .ok (.ofUser u)

end GigBoard.Account
