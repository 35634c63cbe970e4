import GigBoard.Messaging.Message

/-!
# Conversations

The messages of a user fall into conversations: one for each other user and each job they write
about, and one more for what they write about no job.  A history is grouped from its front, so that
for a history with the newest message first the conversations come in the order of their latest
messages.
-/

set_option autoImplicit false

namespace GigBoard.Messaging

/-- What the messages of one conversation have in common. -/
structure ConversationKey where
  counterpartId : Uuid
  jobId : Option Uuid
  deriving DecidableEq

namespace ConversationKey

def ofMessage (caller : Uuid) (m : Message) : ConversationKey where
  counterpartId := if m.senderId = caller then m.receiverId else m.senderId
  jobId := m.jobId

def text (key : ConversationKey) : String :=
  key.counterpartId.text ++ "-" ++
    match key.jobId with
    | some job => job.text
    | none => "no-job"

end ConversationKey

/-- A conversation: its key, the first message of the history that belongs to it, and how many of
its messages the caller has not read. -/
structure Conversation where
  key : ConversationKey
  last : Message
  unread : Nat
  deriving DecidableEq

namespace Conversation

def unreadPart (caller : Uuid) (m : Message) : Nat := if m.isUnreadBy caller then 1 else 0

/-- Adds a message to its conversation, or begins one behind all others. -/
def add (caller : Uuid) (m : Message) : List Conversation → List Conversation
  | [] => [⟨.ofMessage caller m, m, unreadPart caller m⟩]
  | c :: cs =>
    if c.key = .ofMessage caller m then { c with unread := c.unread + unreadPart caller m } :: cs
    else c :: add caller m cs

def group (caller : Uuid) (history : List Message) : List Conversation :=
  history.foldl (fun conversations m => add caller m conversations) []

end Conversation

end GigBoard.Messaging
