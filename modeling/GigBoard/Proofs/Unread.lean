import GigBoard.Proofs.Requests

/-!
# The life of messages and the number that is unread

`MessagesBecome` tells all that a call can make of the messages.  From it follow the life of a message,
which only ever becomes read and loses its job with the job, and the account of every user: the number
of unread messages goes up by one with a message that is sent to the user and down by what the user
reads, and nothing else moves it.
-/

set_option autoImplicit false

namespace GigBoard

open Http (Request Resource Response)
open Messaging (Message MessageForm)
open Store (detachedFrom readRowIf)

variable {ctx : Context} {r : Request} {s s' : Store} {call : Call} {user : Uuid}

/-! ## What one call makes of the messages -/

/-- All that a call can make of the messages. -/
inductive MessagesBecome (s : Store) : Call → Store → Prop where
  | same {call : Call} {s' : Store} (unchanged : s'.messages = s.messages) :
      MessagesBecome s call s'
  | sent {form : MessageForm} {m : Message} {s' : Store}
      (receiver : form.receiverId = some m.receiverId) (unread : m.read = false)
      (fresh : ∀ n ∈ s.messages, n.id ≠ m.id) (added : s'.messages = s.messages ++ [m]) :
      MessagesBecome s (.sendMessage m.senderId form) s'
  | opened {caller other : Uuid} {job : Option Uuid} {s' : Store}
      (marked : s'.messages =
        s.messages.map (readRowIf (Messaging.isDueOnOpening caller other job))) :
      MessagesBecome s (.openThread caller other job) s'
  | marked {caller id : Uuid} {s' : Store}
      (marked : s'.messages =
        s.messages.map (readRowIf fun m => m.id = id && m.receiverId = caller)) :
      MessagesBecome s (.markRead caller id) s'
  | detached {caller id : Uuid} {s' : Store}
      (detached : s'.messages = s.messages.map (detachedFrom id)) :
      MessagesBecome s (.removeJob caller id) s'

theorem Messaging.MessageForm.parts_receiver {form : MessageForm} {receiver : Uuid}
    {content : String} (written : form.parts = .ok (receiver, content)) :
    form.receiverId = some receiver := by
  unfold parts at written
  split at written
  · rename_i isReceiver _
    split at written
    · cases written
      exact isReceiver
    · cases written
  · cases written

theorem Effect.messagesBecome (effect : Effect ctx s call s') : MessagesBecome s call s' := by
  cases effect with
  | nothing => exact .same rfl
  | registered _ added =>
      obtain ⟨_, _, rfl⟩ := Store.addUser_ok added
      exact .same rfl
  | accountChanged _ _ replaced =>
      obtain ⟨_, _, rfl⟩ := Store.replaceUser_ok replaced
      exact .same rfl
  | jobPosted _ added planned =>
      obtain ⟨_, _, _, _, rfl⟩ := Store.addJob_ok added
      obtain ⟨_, _, _, _, rfl⟩ := Store.addMilestones_ok planned
      exact .same rfl
  | jobChanged _ _ _ replaced =>
      obtain ⟨_, rfl⟩ := Store.replaceJob_ok replaced
      exact .same rfl
  | jobRemoved _ _ removed =>
      obtain ⟨_, rfl⟩ := Store.removeJob_ok removed
      exact .detached rfl
  | applied _ _ _ added =>
      obtain ⟨_, _, _, _, rfl⟩ := Store.addApplication_ok added
      exact .same rfl
  | rejected _ _ _ _ _ set =>
      cases Store.setApplicationStatus_ok set
      exact .same rfl
  | accepted _ _ _ _ _ set assigned =>
      cases Store.setApplicationStatus_ok set
      obtain ⟨_, _, rfl⟩ := Store.assignJob_ok assigned
      exact .same rfl
  | milestoneMoved _ _ _ _ _ _ set =>
      cases Store.setMilestoneStatus_ok set
      exact .same rfl
  | reviewed _ _ _ added =>
      obtain ⟨_, _, _, _, _, rfl⟩ := Store.addReview_ok added
      exact .same rfl
  | messageSent written added =>
      obtain ⟨_, fresh, _, _, _, rfl⟩ := Store.addMessage_ok added
      exact .sent (Messaging.MessageForm.parts_receiver written) rfl fresh rfl
  | threadRead marked =>
      obtain ⟨_, rfl⟩ := Store.markRead_ok marked
      exact .opened rfl
  | messageRead marked =>
      obtain ⟨_, rfl⟩ := Store.markRead_ok marked
      exact .marked rfl

/-! ## Counting what is unread -/

namespace Messaging

variable {due : Message → Bool} {messages : List Message} {m : Message} {caller other : Uuid}
  {job : Option Uuid}

theorem readRowIf_read : (readRowIf due m).read = (due m || m.read) := by
  unfold readRowIf
  split
  · rename_i isDue
    simp [isDue]
  · rename_i notDue
    simp [notDue]

theorem isUnreadBy_readRowIf :
    (readRowIf due m).isUnreadBy user = (m.isUnreadBy user && !due m) := by
  unfold readRowIf
  split
  · rename_i isDue
    simp [Message.isUnreadBy, isDue]
  · rename_i notDue
    simp [notDue]

theorem isUnreadBy_detachedFrom (id : Uuid) (m : Message) :
    (detachedFrom id m).isUnreadBy user = m.isUnreadBy user := by
  unfold detachedFrom
  split <;> rfl

/-- Marking takes away from the unread messages of a user those that were due. -/
theorem countP_marked (user : Uuid) (due : Message → Bool) (messages : List Message) :
    (messages.map (readRowIf due)).countP (·.isUnreadBy user) +
      messages.countP (fun m => m.isUnreadBy user && due m) =
        messages.countP (·.isUnreadBy user) := by
  induction messages with
  | nil => rfl
  | cons m messages ih =>
      simp only [List.map_cons, List.countP_cons, isUnreadBy_readRowIf]
      by_cases unread : m.isUnreadBy user = true
      · by_cases isDue : due m = true
        · simp only [unread, isDue, Bool.not_true, Bool.and_false, Bool.and_true, if_true,
            Bool.false_eq_true, if_false]
          omega
        · simp only [unread, isDue, Bool.not_false, Bool.and_true, Bool.and_false, if_true,
            Bool.false_eq_true, if_false]
          omega
      · simp only [unread, Bool.false_and, Bool.false_eq_true, if_false]
        omega

theorem countP_detached (user id : Uuid) (messages : List Message) :
    (messages.map (detachedFrom id)).countP (·.isUnreadBy user) =
      messages.countP (·.isUnreadBy user) := by
  rw [List.countP_map]
  apply List.countP_congr
  intro m _
  rw [Function.comp_apply, isUnreadBy_detachedFrom]

/-- A message waits for its receiver to open the thread with its sender, or only what the thread
holds about a job. -/
structure Message.DueOnOpening (caller other : Uuid) (job : Option Uuid) (m : Message) : Prop where
  sender : m.senderId = other
  receiver : m.receiverId = caller
  unread : m.read = false
  about : ∀ j ∈ job, m.jobId = some j

theorem isDueOnOpening_iff :
    isDueOnOpening caller other job m = true ↔ m.DueOnOpening caller other job := by
  simp only [isDueOnOpening, Bool.and_eq_true, decide_eq_true_eq, Bool.not_eq_true',
    Option.all_eq_true]
  constructor
  · rintro ⟨⟨⟨sender, receiver⟩, unread⟩, about⟩
    exact ⟨sender, receiver, unread, about⟩
  · rintro ⟨sender, receiver, unread, about⟩
    exact ⟨⟨⟨sender, receiver⟩, unread⟩, about⟩

instance : Decidable (m.DueOnOpening caller other job) :=
  decidable_of_iff _ isDueOnOpening_iff

/-- What is due when a user opens a thread are unread messages of the user. -/
theorem isUnreadBy_of_due (due : isDueOnOpening caller other job m = true) :
    m.isUnreadBy caller = true := by
  obtain ⟨_, receiver, unread, _⟩ := isDueOnOpening_iff.mp due
  simp [Message.isUnreadBy, receiver, unread]

/-- What a user has not read and is due with the opening user is all that is due, or nothing. -/
theorem countP_unreadAndDue (user : Uuid) (messages : List Message) :
    messages.countP (fun m => m.isUnreadBy user && isDueOnOpening caller other job m) =
      if user = caller then messages.countP (·.DueOnOpening caller other job) else 0 := by
  split
  · next isCaller =>
    subst isCaller
    apply List.countP_congr
    intro m _
    rw [Bool.and_eq_true, decide_eq_true_eq, ← isDueOnOpening_iff]
    exact ⟨And.right, fun due => ⟨isUnreadBy_of_due due, due⟩⟩
  · next isOther =>
    rw [List.countP_eq_zero]
    intro m _ both
    obtain ⟨unread, due⟩ := Bool.and_eq_true_iff.mp both
    simp only [Message.isUnreadBy, Bool.and_eq_true, decide_eq_true_eq] at unread
    exact isOther (unread.1.symm.trans (isDueOnOpening_iff.mp due).receiver)

theorem countP_notReadAndDue (messages : List Message) :
    messages.countP (fun m => !m.read && isDueOnOpening caller other job m) =
      messages.countP (·.DueOnOpening caller other job) := by
  apply List.countP_congr
  intro m _
  rw [Bool.and_eq_true, decide_eq_true_eq, isDueOnOpening_iff]
  exact ⟨And.right, fun due => ⟨by rw [due.unread]; rfl, due⟩⟩

end Messaging

def Http.Response.Counts (n : Nat) (response : Response) : Prop :=
  response.status = 200 ∧ response.body = some (.object [("count", .integer n)])

theorem Http.Response.Counts.unique {n n' : Nat} {response : Response} (first : response.Counts n)
    (second : response.Counts n') : n = n' := by
  have same := first.2.symm.trans second.2
  simp only [Option.some.injEq, Json.object.injEq, List.cons.injEq, Prod.mk.injEq, true_and,
    and_true, Json.integer.injEq] at same
  omega

namespace Store

/-- How many messages were not read in a store and are read in another. -/
def newlyRead (s s' : Store) : Nat :=
  s.messages.countP fun m => !m.read && s'.messages.any fun m' => m'.id = m.id && m'.read

theorem newlyRead_marked {due : Message → Bool} (keyed : s.Keyed)
    (marked : s'.messages = s.messages.map (readRowIf due)) :
    s.newlyRead s' = s.messages.countP fun m => !m.read && due m := by
  apply List.countP_congr
  intro m hm
  simp only [Bool.and_eq_true, Bool.not_eq_true', List.any_eq_true, decide_eq_true_eq, marked]
  constructor
  · rintro ⟨unread, m', hm', same, isRead⟩
    -- The row under the identifier of `m` is what has become of `m`.
    obtain ⟨q, hq, rfl⟩ := List.mem_map.mp hm'
    rw [readRowIf_id] at same
    obtain rfl := keyed.messageId.eq_of_same hq hm same
    rw [Messaging.readRowIf_read, unread, Bool.or_false] at isRead
    exact ⟨unread, isRead⟩
  · rintro ⟨unread, isDue⟩
    refine ⟨unread, readRowIf due m, List.mem_map_of_mem hm, readRowIf_id due m, ?_⟩
    rw [Messaging.readRowIf_read, isDue, Bool.true_or]

theorem newlyRead_same (keyed : s.Keyed) (unchanged : s'.messages = s.messages) :
    s.newlyRead s' = 0 := by
  have asMarked : s'.messages = s.messages.map (readRowIf fun _ => false) := by
    rw [unchanged]
    exact (List.map_id s.messages).symm
  rw [newlyRead_marked keyed asMarked, List.countP_eq_zero]
  simp

def unreadOf (s : Store) (user : Uuid) : Nat := s.messages.countP (·.isUnreadBy user)

/-- What lasts when one store becomes another: messages stay, only ever become read, and lose their
job at most with a job that is removed. -/
structure MessagesLeadTo (s s' : Store) (removed : Uuid → Prop) : Prop where
  stays : ∀ m ∈ s.messages, ∃ m' ∈ s'.messages, m'.id = m.id
  same : ∀ m ∈ s.messages, ∀ m' ∈ s'.messages, m'.id = m.id →
    m'.senderId = m.senderId ∧ m'.receiverId = m.receiverId ∧ m'.content = m.content ∧
      m'.createdAt = m.createdAt
  read : ∀ m ∈ s.messages, ∀ m' ∈ s'.messages, m'.id = m.id → m.read = true → m'.read = true
  job : ∀ m ∈ s.messages, ∀ m' ∈ s'.messages, m'.id = m.id →
    m'.jobId = m.jobId ∨ ∃ j, m.jobId = some j ∧ m'.jobId = none ∧ removed j

end Store

namespace MessagesBecome

/-- A message is found again as it was, as read, or as one about no job. -/
theorem eq_or_changed {m m' : Message} (become : MessagesBecome s call s') (sound : s.Sound)
    (hm : m ∈ s.messages) (hm' : m' ∈ s'.messages) (same : m'.id = m.id) :
    m' = m ∨ m' = { m with read := true } ∨ ∃ caller id, call = .removeJob caller id ∧
      m.jobId = some id ∧ m' = { m with jobId := none } := by
  have asMarked : ∀ due, m' ∈ s.messages.map (readRowIf due) →
      m' = m ∨ m' = { m with read := true } := by
    intro due hm'
    obtain ⟨q, hq, rfl⟩ := List.mem_map.mp hm'
    rw [Store.readRowIf_id] at same
    obtain rfl := sound.keyed.messageId.eq_of_same hq hm same
    unfold readRowIf
    split
    · exact .inr rfl
    · exact .inl rfl
  cases become with
  | same unchanged =>
      rw [unchanged] at hm'
      exact .inl (sound.keyed.messageId.eq_of_same hm' hm same)
  | sent receiver unread fresh added =>
      rw [added] at hm'
      rcases List.mem_append.mp hm' with hm' | isNew
      · exact .inl (sound.keyed.messageId.eq_of_same hm' hm same)
      · rw [List.mem_singleton.mp isNew] at same
        exact absurd same.symm (fresh m hm)
  | opened marked =>
      rw [marked] at hm'
      exact (asMarked _ hm').imp_right .inl
  | marked marked =>
      rw [marked] at hm'
      exact (asMarked _ hm').imp_right .inl
  | detached detached =>
      rw [detached] at hm'
      obtain ⟨q, hq, rfl⟩ := List.mem_map.mp hm'
      rw [Store.detachedFrom_id] at same
      obtain rfl := sound.keyed.messageId.eq_of_same hq hm same
      unfold detachedFrom
      split
      · rename_i about
        exact .inr (.inr ⟨_, _, rfl, about, rfl⟩)
      · exact .inl rfl

theorem stays {m : Message} (become : MessagesBecome s call s') (hm : m ∈ s.messages) :
    ∃ m' ∈ s'.messages, m'.id = m.id := by
  cases become with
  | same unchanged => exact ⟨m, unchanged ▸ hm, rfl⟩
  | sent _ _ _ added => exact ⟨m, added ▸ List.mem_append_left _ hm, rfl⟩
  | opened marked =>
      exact ⟨_, marked ▸ List.mem_map_of_mem hm, Store.readRowIf_id _ m⟩
  | marked marked =>
      exact ⟨_, marked ▸ List.mem_map_of_mem hm, Store.readRowIf_id _ m⟩
  | detached detached =>
      exact ⟨_, detached ▸ List.mem_map_of_mem hm, Store.detachedFrom_id _ m⟩

end MessagesBecome

namespace Server

variable {server : Server}

theorem handle_messagesBecome (server : Server) (ctx : Context) (r : Request) (s : Store) :
    (server.handle ctx r s).2.messages = s.messages ∨ ∃ call, server.asked? ctx.now r = some call ∧
      MessagesBecome s call (server.handle ctx r s).2 := by
  rcases server.handle_effect ctx r s with same | ⟨call, asked, effect⟩
  · rw [same]
    exact .inl rfl
  · exact .inr ⟨call, asked, effect.messagesBecome⟩

def Removes (server : Server) (ctx : Context) (r : Request) (s : Store) (job : Uuid) : Prop :=
  (∃ caller, server.RemovesJob caller job ctx r) ∧ (server.handle ctx r s).1.status = 200

theorem handle_messagesLeadTo (server : Server) (ctx : Context) (r : Request) (sound : s.Sound) :
    s.MessagesLeadTo (server.handle ctx r s).2 (server.Removes ctx r s) := by
  have found : ∀ m ∈ s.messages, ∀ m' ∈ (server.handle ctx r s).2.messages, m'.id = m.id →
      m' = m ∨ m' = { m with read := true } ∨
        ∃ id, m.jobId = some id ∧ m' = { m with jobId := none } ∧ server.Removes ctx r s id := by
    intro m hm m' hm' same
    rcases server.handle_messagesBecome ctx r s with unchanged | ⟨call, asked, become⟩
    · rw [unchanged] at hm'
      exact .inl (sound.keyed.messageId.eq_of_same hm' hm same)
    · rcases become.eq_or_changed sound hm hm' same with
        isM | isRead | ⟨caller, id, rfl, about, isDetached⟩
      · exact .inl isM
      · exact .inr (.inl isRead)
      · have removes := asked?_removeJob_iff.mp asked
        rcases removes.cases s with ⟨_, unchanged⟩ | ⟨_, answered, _⟩
        · rw [unchanged] at hm'
          exact .inl (sound.keyed.messageId.eq_of_same hm' hm same)
        · exact .inr (.inr ⟨id, about, isDetached, ⟨caller, removes⟩, answered⟩)
  constructor
  · intro m hm
    rcases server.handle_messagesBecome ctx r s with unchanged | ⟨call, _, become⟩
    · exact ⟨m, unchanged ▸ hm, rfl⟩
    · exact become.stays hm
  · intro m hm m' hm' same
    rcases found m hm m' hm' same with rfl | rfl | ⟨_, _, rfl, _⟩ <;> exact ⟨rfl, rfl, rfl, rfl⟩
  · intro m hm m' hm' same wasRead
    rcases found m hm m' hm' same with rfl | rfl | ⟨_, _, rfl, _⟩
    · exact wasRead
    · rfl
    · exact wasRead
  · intro m hm m' hm' same
    rcases found m hm m' hm' same with rfl | rfl | ⟨id, about, rfl, removes⟩
    · exact .inl rfl
    · exact .inl rfl
    · exact .inr ⟨id, about, rfl, removes⟩

/-! ## The account of a user -/

structure Delivers (server : Server) (user : Uuid) (ctx : Context) (r : Request) (s : Store) :
    Prop where
  asks : ∃ caller form, server.SendsForm caller form ctx r ∧ form.receiverId = some user
  stored : ∃ m ∈ (server.handle ctx r s).2.messages, m.receiverId = user ∧
    ∀ n ∈ s.messages, n.id ≠ m.id

/-- A user marks one unread message as read: the request asks for that, and the message was not read
before and is read after. -/
structure ReadsOne (server : Server) (user : Uuid) (ctx : Context) (r : Request) (s : Store)
    (id : Uuid) : Prop where
  asks : server.MarksMessage user id ctx r
  before : ∃ m ∈ s.messages, m.id = id ∧ m.receiverId = user ∧ m.read = false
  after : ∃ m ∈ (server.handle ctx r s).2.messages, m.id = id ∧ m.read = true

/-- How the number of unread messages of a user goes from one number to another with a request: up by
one with a message to the user, down by what the user newly reads, and it stays otherwise. -/
structure Accounts (server : Server) (user : Uuid) (ctx : Context) (r : Request) (s : Store)
    (n n' : Nat) : Prop where
  delivered : server.Delivers user ctx r s → n' = n + 1
  opened : ∀ other job, server.OpensThread user other job ctx r →
    n' + s.newlyRead (server.handle ctx r s).2 = n
  readOne : ∀ id, server.ReadsOne user ctx r s id → n' + 1 = n
  otherwise : ¬ server.Delivers user ctx r s → (∀ other job, ¬ server.OpensThread user other job ctx r) →
    (∀ id, ¬ server.ReadsOne user ctx r s id) → n' = n

theorem not_delivers (asked : server.asked? ctx.now r = some call)
    (noSending : ∀ caller form, call ≠ .sendMessage caller form) :
    ¬ server.Delivers user ctx r s := by
  rintro ⟨⟨caller, form, sends, _⟩, _⟩
  have sending := asked?_sendMessage_iff.mpr sends
  rw [asked] at sending
  exact noSending caller form (Option.some.inj sending)

theorem not_opensThread (asked : server.asked? ctx.now r = some call)
    (noOpening : ∀ other job, call ≠ .openThread user other job) :
    ∀ other job, ¬ server.OpensThread user other job ctx r := by
  intro other job opens
  have opening := asked?_openThread_iff.mpr opens
  rw [asked] at opening
  exact noOpening other job (Option.some.inj opening)

theorem not_readsOne (asked : server.asked? ctx.now r = some call)
    (noMarking : ∀ id, call ≠ .markRead user id) : ∀ id, ¬ server.ReadsOne user ctx r s id := by
  rintro id ⟨marks, _, _⟩
  have marking := asked?_markRead_iff.mpr marks
  rw [asked] at marking
  exact noMarking id (Option.some.inj marking)

theorem accounts_of_unchanged (keyed : s.Keyed)
    (unchanged : (server.handle ctx r s).2.messages = s.messages) :
    server.Accounts user ctx r s (s.unreadOf user) ((server.handle ctx r s).2.unreadOf user) := by
  have same : (server.handle ctx r s).2.unreadOf user = s.unreadOf user := by
    rw [Store.unreadOf, unchanged, Store.unreadOf]
  constructor
  · rintro ⟨_, m, hm, _, new⟩
    rw [unchanged] at hm
    exact absurd rfl (new m hm)
  · intro other job _
    rw [same, Store.newlyRead_same keyed unchanged, Nat.add_zero]
  · rintro id ⟨_, ⟨m, hm, rfl, _, unread⟩, m', hm', sameId, isRead⟩
    rw [unchanged] at hm'
    rw [keyed.messageId.eq_of_same hm' hm sameId, unread] at isRead
    cases isRead
  · intro _ _ _
    exact same

theorem accounts_of_sent {form : MessageForm} {m : Message}
    (asked : server.asked? ctx.now r = some (.sendMessage m.senderId form))
    (receiver : form.receiverId = some m.receiverId) (unread : m.read = false)
    (fresh : ∀ n ∈ s.messages, n.id ≠ m.id)
    (added : (server.handle ctx r s).2.messages = s.messages ++ [m]) :
    server.Accounts user ctx r s (s.unreadOf user) ((server.handle ctx r s).2.unreadOf user) := by
  have counted : (server.handle ctx r s).2.unreadOf user =
      s.unreadOf user + if m.receiverId = user then 1 else 0 := by
    rw [Store.unreadOf, added, List.countP_append, Store.unreadOf, List.countP_singleton]
    simp [Message.isUnreadBy, unread]
  constructor
  · rintro ⟨_, m', hm', isUser, new⟩
    rw [added] at hm'
    rcases List.mem_append.mp hm' with old | isNew
    · exact absurd rfl (new m' old)
    · rw [List.mem_singleton.mp isNew] at isUser
      rw [counted, if_pos isUser]
  · intro other job opens
    exact absurd opens (not_opensThread asked (fun _ _ same => by cases same) other job)
  · intro id readsOne
    exact absurd readsOne (not_readsOne asked (fun _ same => by cases same) id)
  · intro notDelivered _ _
    rw [counted, if_neg, Nat.add_zero]
    rintro rfl
    apply notDelivered
    refine ⟨⟨_, form, asked?_sendMessage_iff.mp asked, receiver⟩, m, ?_, rfl, fresh⟩
    rw [added]
    exact List.mem_append_right _ (List.mem_singleton.mpr rfl)

theorem accounts_of_opened {caller other : Uuid} {job : Option Uuid} (keyed : s.Keyed)
    (asked : server.asked? ctx.now r = some (.openThread caller other job))
    (marked : (server.handle ctx r s).2.messages =
      s.messages.map (readRowIf (Messaging.isDueOnOpening caller other job))) :
    server.Accounts user ctx r s (s.unreadOf user) ((server.handle ctx r s).2.unreadOf user) := by
  have counted := Messaging.countP_marked user (Messaging.isDueOnOpening caller other job) s.messages
  rw [← marked, Messaging.countP_unreadAndDue] at counted
  constructor
  · intro delivers
    exact absurd delivers (not_delivers asked fun _ _ same => by cases same)
  · intro other' job' opens
    have opening := asked?_openThread_iff.mpr opens
    rw [asked] at opening
    cases opening
    rw [Store.newlyRead_marked keyed marked, Messaging.countP_notReadAndDue]
    rw [if_pos rfl] at counted
    exact counted
  · intro id readsOne
    exact absurd readsOne (not_readsOne asked (fun _ same => by cases same) id)
  · intro _ notOpened _
    have isOther : user ≠ caller := by
      rintro rfl
      exact notOpened other job (asked?_openThread_iff.mp asked)
    rw [if_neg isOther, Nat.add_zero] at counted
    exact counted

theorem accounts_of_marked {caller id : Uuid} (keyed : s.Keyed)
    (asked : server.asked? ctx.now r = some (.markRead caller id))
    (marked : (server.handle ctx r s).2.messages =
      s.messages.map (readRowIf fun m => m.id = id && m.receiverId = caller)) :
    server.Accounts user ctx r s (s.unreadOf user) ((server.handle ctx r s).2.unreadOf user) := by
  let due (m : Message) : Bool := m.isUnreadBy user && (m.id = id && m.receiverId = caller)
  have counted : (server.handle ctx r s).2.unreadOf user + s.messages.countP due =
      s.unreadOf user := by
    have split := Messaging.countP_marked user (fun m => m.id = id && m.receiverId = caller) s.messages
    rw [← marked] at split
    exact split
  have due_iff : ∀ m, due m = true ↔
      (m.receiverId = user ∧ m.read = false) ∧ m.id = id ∧ m.receiverId = caller := by
    intro m
    simp [due, Message.isUnreadBy]
  constructor
  · intro delivers
    exact absurd delivers (not_delivers asked fun _ _ same => by cases same)
  · intro other job opens
    exact absurd opens (not_opensThread asked (fun _ _ same => by cases same) other job)
  · rintro id' ⟨marks, ⟨m, hm, rfl, isUser, unread⟩, _⟩
    have marking := asked?_markRead_iff.mpr marks
    rw [asked] at marking
    cases marking
    have atMost : s.messages.countP due ≤ 1 := by
      apply keyed.messageId.countP_le_one
      intro a _ b _ isA isB
      rw [((due_iff a).mp isA).2.1, ((due_iff b).mp isB).2.1]
    have atLeast : 0 < s.messages.countP due :=
      List.countP_pos_iff.mpr ⟨m, hm, (due_iff m).mpr ⟨⟨isUser, unread⟩, rfl, isUser⟩⟩
    omega
  · intro _ _ notReadOne
    have noneDue : s.messages.countP due = 0 := by
      rw [List.countP_eq_zero]
      intro m hm isDue
      obtain ⟨⟨isUser, unread⟩, rfl, isCaller⟩ := (due_iff m).mp isDue
      obtain rfl := isUser.symm.trans isCaller
      refine notReadOne m.id ⟨asked?_markRead_iff.mp asked, ⟨m, hm, rfl, isUser, unread⟩, ?_⟩
      refine ⟨_, marked ▸ List.mem_map_of_mem hm, Store.readRowIf_id _ m, ?_⟩
      simp [Messaging.readRowIf_read, isUser]
    omega

theorem accounts_of_detached {caller id : Uuid}
    (asked : server.asked? ctx.now r = some (.removeJob caller id))
    (detached : (server.handle ctx r s).2.messages = s.messages.map (detachedFrom id)) :
    server.Accounts user ctx r s (s.unreadOf user) ((server.handle ctx r s).2.unreadOf user) := by
  constructor
  · intro delivers
    exact absurd delivers (not_delivers asked fun _ _ same => by cases same)
  · intro other job opens
    exact absurd opens (not_opensThread asked (fun _ _ same => by cases same) other job)
  · intro id' readsOne
    exact absurd readsOne (not_readsOne asked (fun _ same => by cases same) id')
  · intro _ _ _
    rw [Store.unreadOf, detached, Messaging.countP_detached, Store.unreadOf]

theorem handle_accounts (server : Server) (user : Uuid) (ctx : Context) (r : Request)
    (keyed : s.Keyed) : server.Accounts user ctx r s (s.unreadOf user)
      ((server.handle ctx r s).2.unreadOf user) := by
  rcases server.handle_messagesBecome ctx r s with unchanged | ⟨call, asked, become⟩
  · exact accounts_of_unchanged keyed unchanged
  · cases become with
    | same unchanged => exact accounts_of_unchanged keyed unchanged
    | sent receiver unread fresh added => exact accounts_of_sent asked receiver unread fresh added
    | opened marked => exact accounts_of_opened keyed asked marked
    | marked marked => exact accounts_of_marked keyed asked marked
    | detached detached => exact accounts_of_detached asked detached

/-- Whatever is asked of a store that satisfies its constraints, no message is lost, and none changes
but for being read and for a job that is removed; and for every user the number of unread messages
goes on as it should. -/
theorem messages_and_unread_numbers (server : Server) (ctx : Context) (r : Request) (s : Store)
    (holds : s.Constrained) :
    s.MessagesLeadTo (server.handle ctx r s).2 (server.Removes ctx r s) ∧
      ∀ user ctx₁ r₁ ctx₂ r₂, server.AsksUnread user ctx₁ r₁ → ctx₁.connected = true →
        server.AsksUnread user ctx₂ r₂ → ctx₂.connected = true →
          ∃ n n', (server.handle ctx₁ r₁ s).1.Counts n ∧
            (server.handle ctx₂ r₂ (server.handle ctx r s).2).1.Counts n' ∧
              server.Accounts user ctx r s n n' := by
  have sound := holds.sound
  refine ⟨server.handle_messagesLeadTo ctx r sound, ?_⟩
  intro user ctx₁ r₁ ctx₂ r₂ before connected before' connected'
  exact ⟨_, _, before.counts connected, before'.counts connected',
    server.handle_accounts user ctx r sound.keyed⟩

theorem annUnread_asks : plain.AsksUnread ann.id firstMoment annUnread :=
  ⟨rfl, by decide +kernel, ann_known rfl⟩

def annMarking : Request :=
  { annInbox with
    method := .put
    target := "/api/messages/00000000-0000-0000-0000-000000000006/read" }

theorem annMarking_marks : plain.MarksMessage ann.id siteMessage.id firstMoment annMarking :=
  ⟨rfl, ⟨"00000000-0000-0000-0000-000000000006".toList, by decide +kernel,
    Http.pathId_eq_ok_iff.mpr (by decide +kernel)⟩, ann_known rfl⟩

theorem unread_number_site :
    siteStore.Constrained ∧
      plain.ReadsOne ann.id firstMoment annMarking siteStore siteMessage.id ∧
        (plain.handle firstMoment annUnread siteStore).1.Counts 1 ∧
          (plain.handle firstMoment annUnread
            (plain.handle firstMoment annMarking siteStore).2).1.Counts 0 := by
  have holds := siteStore_sound.constrained
  have marked : (plain.handle firstMoment annMarking siteStore).2.messages =
      [{ siteMessage with read := true }] := by
    rw [(handle_of_asked (asked?_markRead_iff.mpr annMarking_marks)).1]
    rfl
  have readsOne : plain.ReadsOne ann.id firstMoment annMarking siteStore siteMessage.id :=
    ⟨annMarking_marks, ⟨siteMessage, List.mem_cons_self, rfl, rfl, rfl⟩,
      ⟨{ siteMessage with read := true }, by rw [marked]; exact List.mem_cons_self, rfl, rfl⟩⟩
  obtain ⟨n, n', before, after, accounts⟩ :=
    (messages_and_unread_numbers plain firstMoment annMarking siteStore holds).2 ann.id
      firstMoment annUnread firstMoment annUnread annUnread_asks rfl annUnread_asks rfl
  have one : (plain.handle firstMoment annUnread siteStore).1.Counts 1 := annUnread_asks.counts rfl
  obtain rfl := before.unique one
  obtain rfl : n' = 0 := by
    have step := accounts.readOne _ readsOne
    omega
  exact ⟨holds, readsOne, one, after⟩

end Server

end GigBoard
