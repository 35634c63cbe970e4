import GigBoard.Text.Stored
import GigBoard.Timestamp
import GigBoard.Uuid

/-!
# Messages

A message goes from one user to another, may be about a job, and is read or not yet read.
-/

set_option autoImplicit false

namespace GigBoard.Messaging

structure Message where
  id : Uuid
  senderId : Uuid
  receiverId : Uuid
  jobId : Option Uuid
  content : String
  read : Bool
  createdAt : Timestamp
  deriving DecidableEq

namespace Message

def fits (m : Message) : Bool := Text.isStorable m.content

def isReadable (m : Message) : Bool := m.createdAt.isRepresentable

/-- Whether a message waits for its receiver to read it. -/
def isUnreadBy (m : Message) (user : Uuid) : Bool := m.receiverId = user && !m.read

end Message

end GigBoard.Messaging
