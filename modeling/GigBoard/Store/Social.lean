import GigBoard.Store.Hiring

/-!
# Statements on messages and reviews
-/

set_option autoImplicit false

namespace GigBoard.Store

open Messaging (Message)
open Reputation (Review)

/-! ## Messages -/

def isBetween (a b : Uuid) (m : Message) : Bool :=
  (m.senderId = a && m.receiverId = b) || (m.senderId = b && m.receiverId = a)

def involves (user : Uuid) (m : Message) : Bool := m.senderId = user || m.receiverId = user

def message? (id : Uuid) : Query (Option Message) := fun s =>
  readRow Message.isReadable (s.messages.find? (·.id = id))

/-- The messages between two users, only those about a job if one is given, the oldest first. -/
def thread (a b : Uuid) (jobId : Option Uuid) : Query (List Message) := fun s =>
  readRows Message.isReadable
    (oldestFirst Message.createdAt Message.id
      (s.messages.filter fun m => isBetween a b m && jobId.all fun j => m.jobId = some j))

def history (user : Uuid) : Query (List Message) := fun s =>
  readRows Message.isReadable
    (newestFirst Message.createdAt Message.id (s.messages.filter (involves user)))

def countUnread (user : Uuid) : Query Nat := fun s => .ok (s.messages.countP (·.isUnreadBy user))

/-- Adds a message; its sender, its receiver and its job must exist. -/
def addMessage (m : Message) : Change Unit := fun s =>
  if !m.fits then .error .rejected
  else if s.messages.any (·.id = m.id) then .error .duplicate
  else if !(s.hasUser m.senderId && s.hasUser m.receiverId && m.jobId.all s.hasJob) then
    .error .missingReference
  else .ok ((), { s with messages := s.messages ++ [m] })

/-- Marks the messages with a property as read, and returns how many they were. -/
def markRead (due : Message → Bool) : Change Nat := fun s =>
  .ok (s.messages.countP due,
    { s with messages := s.messages.map fun m => if due m then { m with read := true } else m })

/-! ## Reviews -/

def review? (id : Uuid) : Query (Option Review) := fun s =>
  readRow Review.isReadable (s.reviews.find? (·.id = id))

def countReviewsOf (user : Uuid) : Query Nat := fun s =>
  .ok (s.reviews.countP (·.revieweeId = user))

def sumRatingsOf (user : Uuid) : Query Int := fun s =>
  .ok (((s.reviews.filter (·.revieweeId = user)).map Review.rating).foldr (· + ·) 0)

def reviewsOfWindow (user : Uuid) (offset limit : Int) : Query (List Review) := fun s =>
  readRows Review.isReadable
    (window offset limit
      (newestFirst Review.createdAt Review.id (s.reviews.filter (·.revieweeId = user))))

/-- Adds a review, the first of its reviewer for its job; all that it refers to must exist. -/
def addReview (r : Review) : Change Unit := fun s =>
  if !r.fits then .error .rejected
  else if s.reviews.any fun q =>
      q.id = r.id || (q.jobId = r.jobId && q.reviewerId = r.reviewerId) then
    .error .duplicate
  else if !(s.hasJob r.jobId && s.hasUser r.reviewerId && s.hasUser r.revieweeId) then
    .error .missingReference
  else .ok ((), { s with reviews := s.reviews ++ [r] })

end GigBoard.Store
