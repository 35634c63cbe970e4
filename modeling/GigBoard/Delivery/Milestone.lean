import GigBoard.Lifecycle
import GigBoard.Number.Binary64
import GigBoard.Text.Stored
import GigBoard.Timestamp
import GigBoard.Uuid

/-!
# Milestones

A job is delivered in milestones, counted from zero in the order in which they were posted.
-/

set_option autoImplicit false

namespace GigBoard.Delivery

structure Milestone where
  id : Uuid
  jobId : Uuid
  title : String
  description : String
  amount : Binary64
  status : MilestoneStatus
  order : Int
  createdAt : Timestamp
  updatedAt : Timestamp
  deriving DecidableEq

namespace Milestone

def fits (m : Milestone) : Bool := Text.fitsColumn 255 m.title && Text.isStorable m.description

def isReadable (m : Milestone) : Bool :=
  m.createdAt.isRepresentable && m.updatedAt.isRepresentable

end Milestone

end GigBoard.Delivery
