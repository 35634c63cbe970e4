import GigBoard.Lifecycle
import GigBoard.Number.Binary64
import GigBoard.Text.Stored
import GigBoard.Timestamp
import GigBoard.Uuid

/-!
# Jobs and applications

A job belongs to the client who posted it and, once an application was accepted, is assigned to the
freelancer who applied.
-/

set_option autoImplicit false

namespace GigBoard.Hiring

structure Job where
  id : Uuid
  title : String
  description : String
  budget : Binary64
  category : String
  status : JobStatus
  clientId : Uuid
  freelancerId : Option Uuid
  createdAt : Timestamp
  updatedAt : Timestamp
  deriving DecidableEq

namespace Job

def fits (j : Job) : Bool :=
  Text.fitsColumn 255 j.title && Text.isStorable j.description && Text.fitsColumn 100 j.category

def isReadable (j : Job) : Bool := j.createdAt.isRepresentable && j.updatedAt.isRepresentable

/-- The side of a job that a user is on. -/
def party? (j : Job) (user : Uuid) : Option Party :=
  if j.clientId = user then some .client
  else if j.freelancerId = some user then some .freelancer
  else none

end Job

structure Application where
  id : Uuid
  jobId : Uuid
  freelancerId : Uuid
  coverLetter : String
  proposedBudget : Binary64
  status : ApplicationStatus
  createdAt : Timestamp
  updatedAt : Timestamp
  deriving DecidableEq

namespace Application

def fits (a : Application) : Bool := Text.isStorable a.coverLetter

def isReadable (a : Application) : Bool :=
  a.createdAt.isRepresentable && a.updatedAt.isRepresentable

end Application

end GigBoard.Hiring
