import GigBoard.Account.Summary
import GigBoard.Store.Social

/-!
# Reviews as they are shown
-/

set_option autoImplicit false

namespace GigBoard.Reputation

open Account (User UserSummary)

structure ReviewView where
  id : Uuid
  jobId : Uuid
  reviewerId : Uuid
  revieweeId : Uuid
  rating : Int
  comment : String
  createdAt : Timestamp
  reviewer : UserSummary
  deriving DecidableEq

namespace ReviewView

def make (users : List User) (r : Review) : Except Failure ReviewView :=
  (Account.summaryAmong users r.reviewerId).map fun reviewer =>
    ⟨r.id, r.jobId, r.reviewerId, r.revieweeId, r.rating, r.comment, r.createdAt, reviewer⟩

def toJson (v : ReviewView) : Json :=
  .object [("id", .string v.id.text), ("jobId", .string v.jobId.text),
    ("reviewerId", .string v.reviewerId.text), ("revieweeId", .string v.revieweeId.text),
    ("rating", .integer v.rating), ("comment", .string v.comment),
    ("createdAt", .string v.createdAt.text), ("reviewer", v.reviewer.toJson)]

end ReviewView

end GigBoard.Reputation
