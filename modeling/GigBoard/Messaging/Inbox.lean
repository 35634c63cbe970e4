import GigBoard.Account.Summary
import GigBoard.Json.Decoder
import GigBoard.Messaging.Conversation
import GigBoard.Store.Social
import GigBoard.Text.Blank

/-!
# Sending and reading messages

A user sends messages, sees them by conversation or as the thread with one other user, and marks them
as read, one by one or by opening a thread.
-/

set_option autoImplicit false

namespace GigBoard.Messaging

open Account (User UserSummary)

/-! ## Views -/

structure MessageView where
  id : Uuid
  senderId : Uuid
  receiverId : Uuid
  jobId : Option Uuid
  content : String
  read : Bool
  createdAt : Timestamp
  sender : UserSummary
  receiver : Option UserSummary
  deriving DecidableEq

namespace MessageView

def withSender (users : List User) (m : Message) : Except Failure MessageView :=
  (Account.summaryAmong users m.senderId).map fun sender =>
    ⟨m.id, m.senderId, m.receiverId, m.jobId, m.content, m.read, m.createdAt, sender, none⟩

def withBoth (users : List User) (m : Message) : Except Failure MessageView := do
  let receiver ← Account.summaryAmong users m.receiverId
  let view ← withSender users m
  return { view with receiver := some receiver }

def toJson (v : MessageView) : Json :=
  .object ([("id", .string v.id.text), ("senderId", .string v.senderId.text),
    ("receiverId", .string v.receiverId.text), ("jobId", Json.orNull (v.jobId.map (·.text))),
    ("content", .string v.content), ("read", .bool v.read),
    ("createdAt", .string v.createdAt.text), ("sender", v.sender.toJson)] ++
    Json.ifPresent "receiver" (v.receiver.map (·.toJson)))

end MessageView

structure JobReference where
  id : Uuid
  title : String
  deriving DecidableEq

def JobReference.toJson (r : JobReference) : Json :=
  .object [("id", .string r.id.text), ("title", .string r.title)]

structure ConversationView where
  id : String
  otherUser : UserSummary
  job : Option JobReference
  lastMessage : MessageView
  unreadCount : Nat
  deriving DecidableEq

namespace ConversationView

def make (users : List User) (titles : List (Uuid × String)) (c : Conversation) :
    Except Failure ConversationView := do
  let other ← Account.summaryAmong users c.key.counterpartId
  let last ← MessageView.withBoth users c.last
  let job := c.key.jobId.bind fun id =>
    (titles.find? (·.1 = id)).map fun (_, title) => JobReference.mk id title
  return ⟨c.key.text, other, job, last, c.unread⟩

def toJson (v : ConversationView) : Json :=
  .object [("id", .string v.id), ("otherUser", v.otherUser.toJson),
    ("job", (v.job.map (·.toJson)).getD .null), ("lastMessage", v.lastMessage.toJson),
    ("unreadCount", .integer v.unreadCount)]

end ConversationView

/-! ## Sending -/

structure MessageForm where
  receiverId : Option Uuid
  jobId : Option Uuid
  content : Option String
  deriving DecidableEq

namespace MessageForm

def known : List (Json.Decoder.Member MessageForm) := [
  .of "receiverId" Json.Decoder.uuid.nullable fun f v => { f with receiverId := v },
  .of "jobId" Json.Decoder.uuid.nullable fun f v => { f with jobId := v },
  .of "content" Json.Decoder.text.nullable fun f v => { f with content := v }]

def decoder : Json.Decoder MessageForm := Json.Decoder.record ⟨none, none, none⟩ known

/-- The receiver and the content, which must be given and not blank; the content stays as it is. -/
def parts (f : MessageForm) : Except Failure (Uuid × String) :=
  match f.receiverId, f.content with
  | some receiver, some content =>
    if (Text.nonBlank? content).isSome then .ok (receiver, content)
    else .error .receiverAndContentRequired
  | _, _ => .error .receiverAndContentRequired

end MessageForm

def send (caller : Uuid) (form : MessageForm) : Action MessageView := do
  let (receiver, content) ← Action.ofExcept form.parts
  let ctx ← Action.context
  let message : Message := {
    id := ctx.freshId 0
    senderId := caller
    receiverId := receiver
    jobId := form.jobId
    content := content
    read := false
    createdAt := ctx.now }
  Action.connect
  Action.change (Store.addMessage message) ((Failure.missing "receiver or job").onMissingReference)
  let stored ← Action.expect (.store .noRow) (← Action.query (Store.message? message.id))
  let users ← Action.query (Store.usersWithIds [stored.senderId, stored.receiverId])
  Action.ofExcept (MessageView.withBoth users stored)

/-! ## Reading -/

/-- Loads the thread with a user, only the messages about a job if one is given. -/
def loadThread (caller other : Uuid) (jobId : Option Uuid) : Action (List MessageView) := do
  let messages ← Action.query (Store.thread caller other jobId)
  let users ← Action.query (Store.usersWithIds [caller, other])
  Action.ofExcept (messages.mapM (MessageView.withSender users))

def loadConversations (caller : Uuid) : Action (List ConversationView) := do
  let messages ← Action.query (Store.history caller)
  let conversations := Conversation.group caller messages
  let users ←
    Action.query (Store.usersWithIds (caller :: conversations.map (·.key.counterpartId)))
  let titles ← Action.query (Store.jobTitles (conversations.filterMap (·.key.jobId)))
  Action.ofExcept (conversations.mapM (ConversationView.make users titles))

/-- Either a thread or all conversations. -/
inductive InboxView where
  | thread (messages : List MessageView)
  | conversations (views : List ConversationView)

def InboxView.toJson : InboxView → Json
  | .thread messages => .array (messages.map (·.toJson))
  | .conversations views => .array (views.map (·.toJson))

structure InboxQuery where
  participantId : Option Uuid
  jobId : Option Uuid
  deriving DecidableEq

def showInbox (caller : Uuid) (q : InboxQuery) : Action InboxView := do
  Action.connect
  match q.participantId with
  | some participant => return .thread (← loadThread caller participant q.jobId)
  | none => return .conversations (← loadConversations caller)

def countUnread (caller : Uuid) : Action Nat := do
  Action.connect
  Action.query (Store.countUnread caller)

/-- Whether a message is marked as read when its receiver opens the thread with its sender. -/
def isDueOnOpening (caller other : Uuid) (jobId : Option Uuid) (m : Message) : Bool :=
  m.senderId = other && m.receiverId = caller && !m.read && jobId.all fun j => m.jobId = some j

/-- Shows the thread with a user and marks what this user wrote in it as read. -/
def openThread (caller other : Uuid) (jobId : Option Uuid) : Action (List MessageView) := do
  Action.connect
  let thread ← loadThread caller other jobId
  let _ ← Action.change (Store.markRead (isDueOnOpening caller other jobId)) .store
  return thread

def markRead (caller id : Uuid) : Action Unit := do
  Action.connect
  let count ←
    Action.change (Store.markRead fun m => m.id = id && m.receiverId = caller) .store
  Action.require (count ≠ 0) (.missing "message")

end GigBoard.Messaging
