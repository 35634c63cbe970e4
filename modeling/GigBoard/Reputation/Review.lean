import GigBoard.Text.Stored
import GigBoard.Timestamp
import GigBoard.Uuid

/-!
# Reviews

After a job is completed each of its two parties may review the other once, with one to five points.
-/

set_option autoImplicit false

namespace GigBoard.Reputation

structure Review where
  id : Uuid
  jobId : Uuid
  reviewerId : Uuid
  revieweeId : Uuid
  rating : Int
  comment : String
  createdAt : Timestamp
  deriving DecidableEq

namespace Review

def isRating (n : Int) : Bool := 1 ≤ n && n ≤ 5

def fits (r : Review) : Bool := isRating r.rating && Text.isStorable r.comment

def isReadable (r : Review) : Bool := r.createdAt.isRepresentable

end Review

end GigBoard.Reputation
