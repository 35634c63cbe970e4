import GigBoard.Store

/-!
# Statements on users
-/

set_option autoImplicit false

namespace GigBoard.Store

open Account (User)

def hasUser (s : Store) (id : Uuid) : Bool := s.users.any (·.id = id)

def user? (id : Uuid) : Query (Option User) := fun s =>
  readRow User.isReadable (s.users.find? (·.id = id))

def userByWallet? (wallet : String) : Query (Option User) := fun s =>
  if Text.isStorable wallet then
    readRow User.isReadable (s.users.find? (·.walletAddress = wallet))
  else .error .rejected

def usersWithIds (ids : List Uuid) : Query (List User) := fun s =>
  readRows User.isReadable (s.users.filter fun u => ids.contains u.id)

/-- Adds a user, whose wallet and name must be new. -/
def addUser (u : User) : Change Unit := fun s =>
  if !u.fits then .error .rejected
  else if s.users.any fun v =>
      v.id = u.id || v.walletAddress = u.walletAddress || v.username = u.username then
    .error .duplicate
  else .ok ((), { s with users := s.users ++ [u] })

/-- Replaces the row of a user, whose name must be nobody else's. -/
def replaceUser (u : User) : Change Unit := fun s =>
  if !u.fits then .error .rejected
  else if s.users.any fun v => v.id ≠ u.id && v.username = u.username then .error .duplicate
  else .ok ((), { s with users := s.users.map fun v => if v.id = u.id then u else v })

end GigBoard.Store
