import GigBoard.Lifecycle
import GigBoard.Text.Stored
import GigBoard.Timestamp
import GigBoard.Uuid

/-!
# Users

A user has a wallet and a name, both nobody else's, a role, and optional details.
-/

set_option autoImplicit false

namespace GigBoard.Account

structure User where
  id : Uuid
  walletAddress : String
  username : String
  email : Option String
  bio : Option String
  avatarUrl : Option String
  role : Role
  createdAt : Timestamp
  updatedAt : Timestamp
  deriving DecidableEq

namespace User

def fits (u : User) : Bool :=
  Text.fitsColumn 64 u.walletAddress && Text.fitsColumn 100 u.username &&
    u.email.all (Text.fitsColumn 255) && u.bio.all Text.isStorable &&
    u.avatarUrl.all Text.isStorable

/-- The times of a user can be read back. -/
def isReadable (u : User) : Bool := u.createdAt.isRepresentable && u.updatedAt.isRepresentable

end User

end GigBoard.Account
