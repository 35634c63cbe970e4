import GigBoard.Proofs.Constraints
import GigBoard.Proofs.Differences
import GigBoard.Proofs.Inbox

/-!
# Conversations, threads and unread messages

The three questions about messages agree with each other: the conversations of a user hold each of the
user's messages once, the unread messages of all conversations are as many as are counted, and the
thread of each conversation ends with the message that is shown as its last.  A thread is the same
from both its ends.
-/

set_option autoImplicit false

namespace GigBoard

open Http (Request Resource Response)
open Messaging (ConversationKey ConversationView Message MessageView Shows)

variable {ctx ctx' : Context} {r r' : Request} {s : Store} {caller other : Uuid}
  {participant job : Option Uuid}

/-- A message belongs to a conversation of the caller: it comes from the other user or goes there, and
is about the job of the conversation, or about none if the conversation is about none. -/
def Messaging.ConversationView.Holds (caller : Uuid) (m : Message) (v : ConversationView) : Prop :=
  v.otherUser.id = (if m.senderId = caller then m.receiverId else m.senderId) ∧
    v.job.map (·.id) = m.jobId

instance (caller : Uuid) (m : Message) (v : ConversationView) : Decidable (v.Holds caller m) :=
  inferInstanceAs (Decidable (_ ∧ _))

theorem Messaging.ConversationView.holds_iff (v : ConversationView) (m : Message) :
    v.Holds caller m ↔ v.row.key = .ofMessage caller m := by
  simp [Holds, row, ConversationKey.ofMessage]

namespace Messaging.Shows

variable {views : List ConversationView}

/-- A message of the caller is in one conversation that is shown. -/
theorem countP_holds (shows : Shows s caller views) {m : Message} (stored : m ∈ s.messages)
    (own : Store.involves caller m = true) :
    views.countP (fun v => v.Holds caller m) = 1 := by
  have sameCount : views.countP (fun v => v.Holds caller m) =
      (views.map ConversationView.row).countP (fun c => c.key = .ofMessage caller m) := by
    rw [List.countP_map]
    apply List.countP_congr
    intro v _
    simp [v.holds_iff]
  rw [sameCount, shows.rows]
  exact (group_groups caller _).countP_eq_one (Store.mem_newestPassing.mpr ⟨stored, own⟩)

theorem exists_holds (shows : Shows s caller views) {v : ConversationView} (hv : v ∈ views) :
    ∃ m ∈ s.messages, Store.involves caller m = true ∧ v.Holds caller m := by
  have groups := group_groups caller (historyOf s caller)
  obtain ⟨stored, own⟩ := Store.mem_newestPassing.mp (groups.last_mem (shows.row_mem hv))
  exact ⟨v.row.last, stored, own, (v.holds_iff _).mpr (groups.last_key (shows.row_mem hv))⟩

/-- What is unread in all conversations is what is unread in the store. -/
theorem sum_unreadCount (shows : Shows s caller views) :
    (views.map (·.unreadCount)).sum = s.messages.countP (·.isUnreadBy caller) := by
  have sameCounts : views.map (·.unreadCount) =
      (views.map ConversationView.row).map Conversation.unread := by
    rw [List.map_map]
    rfl
  have unreadIsOwn : ∀ m ∈ s.messages,
      (m.isUnreadBy caller && Store.involves caller m) = m.isUnreadBy caller := by
    intro m _
    simp only [Message.isUnreadBy, Store.involves]
    by_cases received : m.receiverId = caller
    · simp [received]
    · simp [received]
  rw [sameCounts, shows.rows, sum_unread, historyOf, Store.newestPassing,
    (Store.perm_newestFirst _).countP_eq, List.countP_filter]
  exact List.countP_congr fun m hm => by rw [unreadIsOwn m hm]

/-- The conversations come in the order of the history, from which their last messages are. -/
theorem newest (shows : Shows s caller views) (keyed : s.Keyed) :
    views.Pairwise fun v w =>
      Store.Newer MessageView.createdAt MessageView.id v.lastMessage w.lastMessage := by
  have groups := group_groups caller (historyOf s caller)
  have sorted : (historyOf s caller).Pairwise (Store.Newer Message.createdAt Message.id) :=
    Store.newestFirst_sorted (keyed.messageId.filter (Store.involves caller))
  have lastSorted := sorted.sublist groups.order
  rw [← shows.rows, List.map_map, List.pairwise_map] at lastSorted
  exact lastSorted

end Messaging.Shows

def Http.Response.Lists {α : Type} (item : α → Json) (values : List α) (response : Response) :
    Prop :=
  response.status = 200 ∧ response.body = some (.array (values.map item))

namespace Server

variable {server : Server}

structure AsksInbox (server : Server) (caller : Uuid) (participant job : Option Uuid)
    (ctx : Context) (r : Request) : Prop where
  method : r.method = .get
  path : Resource.ofPath? r.path = some .messages
  caller : server.caller? ctx.now r = some caller
  participant : Http.queryId (Text.Form.pairs r.query) "participantId" = .ok participant
  job : Http.queryId (Text.Form.pairs r.query) "jobId" = .ok job

structure AsksUnread (server : Server) (caller : Uuid) (ctx : Context) (r : Request) : Prop where
  method : r.method = .get
  path : Resource.ofPath? r.path = some .unreadCount
  caller : server.caller? ctx.now r = some caller

/-- The conversations of a user agree with the messages of the store, with the number of unread
messages, and with the threads. -/
structure InboxAgrees (server : Server) (s : Store) (caller : Uuid)
    (views : List ConversationView) : Prop where
  belongs : ∀ m ∈ s.messages, m.senderId = caller ∨ m.receiverId = caller →
    views.countP (fun v => v.Holds caller m) = 1
  occupied : ∀ v ∈ views, ∃ m ∈ s.messages,
    (m.senderId = caller ∨ m.receiverId = caller) ∧ v.Holds caller m
  unread : ∀ ctx r, server.AsksUnread caller ctx r → ctx.connected = true →
    (server.handle ctx r s).1.status = 200 ∧ (server.handle ctx r s).1.body =
      some (.object [("count", .integer ((views.map (·.unreadCount)).sum : Nat))])
  thread : ∀ v ∈ views, ∀ j, v.job.map (·.id) = some j → ∀ ctx r,
    server.AsksInbox caller (some v.otherUser.id) (some j) ctx r → ctx.connected = true →
      ∃ messages, (server.handle ctx r s).1.Lists MessageView.toJson messages ∧
        v.EndsAs caller messages
  threadNoJob : ∀ v ∈ views, v.job = none → ∀ ctx r,
    server.AsksInbox caller (some v.otherUser.id) none ctx r → ctx.connected = true →
      ∃ messages, (server.handle ctx r s).1.Lists MessageView.toJson messages ∧
        v.EndsAs caller (messages.filter (·.jobId = none))
  newest : views.Pairwise fun v w =>
    Store.Newer MessageView.createdAt MessageView.id v.lastMessage w.lastMessage

/-! ## What is asked -/

theorem identify_of_caller? {now : Timestamp} (known : server.caller? now r = some caller) :
    ∃ who, server.identify now r = .ok who ∧ who.userId = caller := by
  unfold caller? at known
  cases isWho : server.identify now r with
  | error f =>
      rw [isWho] at known
      cases known
  | ok who =>
      rw [isWho] at known
      exact ⟨who, rfl, Option.some.inj known⟩

theorem AsksInbox.asked (asks : server.AsksInbox caller participant job ctx r) :
    server.asked? ctx.now r = some (.showInbox caller ⟨participant, job⟩) := by
  obtain ⟨who, known, rfl⟩ := identify_of_caller? asks.caller
  apply asked_of_callFor? asks.method asks.path
  simp only [Resource.callFor?, known, asks.participant, asks.job]
  rfl

theorem AsksUnread.asked (asks : server.AsksUnread caller ctx r) :
    server.asked? ctx.now r = some (.countUnread caller) := by
  obtain ⟨who, known, rfl⟩ := identify_of_caller? asks.caller
  apply asked_of_callFor? asks.method asks.path
  simp only [Resource.callFor?, known]
  rfl

theorem AsksInbox.lists_thread (asks : server.AsksInbox caller (some other) job ctx r)
    (connected : ctx.connected = true) {views : List MessageView}
    (loaded : Messaging.loadThread caller other job ctx s = (.ok views, s)) :
    (server.handle ctx r s).1.Lists MessageView.toJson views := by
  have shown : Messaging.showInbox caller ⟨some other, job⟩ ctx s = (.ok (.thread views), s) :=
    (Action.bind_of_ok (Action.connect_of_connected connected)).trans (Action.bind_of_ok loaded)
  exact answered_of_ok asks.method asks.asked (Action.bind_of_ok shown)

theorem AsksInbox.view_of_answered (asks : server.AsksInbox caller participant job ctx r)
    (answered : (server.handle ctx r s).1.status = 200) : ∃ view s',
      Messaging.showInbox caller ⟨participant, job⟩ ctx s = (.ok view, s') ∧
        (server.handle ctx r s).1.body = some view.toJson := by
  have calls (call : Call) (asked : server.asked? ctx.now r = some call) :
      call = .showInbox caller ⟨participant, job⟩ :=
    Option.some.inj (asked.symm.trans asks.asked)
  exact shown_of_answered asks.method calls rfl answered

/-- A user who asks for no participant is answered with the conversations that are loaded. -/
theorem AsksInbox.loads_conversations (asks : server.AsksInbox caller none job ctx r)
    (answered : (server.handle ctx r s).1.status = 200) :
    ∃ views, (server.handle ctx r s).1.Lists ConversationView.toJson views ∧
      Messaging.loadConversations caller ctx s = (.ok views, s) := by
  obtain ⟨view, s', shown, body⟩ := asks.view_of_answered answered
  have told : (Messaging.showInbox caller ⟨none, job⟩).Ensures ctx s fun view _ =>
      ∃ views, view = .conversations views ∧
        Messaging.loadConversations caller ctx s = (.ok views, s) := by
    refine .connect (.reading (Messaging.loadConversations_readOnly caller) fun views loaded => ?_)
    intro view s₁ ended
    cases ended
    exact ⟨views, rfl, loaded⟩
  obtain ⟨views, rfl, loaded⟩ := told view s' shown
  exact ⟨views, ⟨answered, body⟩, loaded⟩

/-- A user who asks for a participant is answered with the thread that is loaded. -/
theorem AsksInbox.loads_thread (asks : server.AsksInbox caller (some other) job ctx r)
    (answered : (server.handle ctx r s).1.status = 200) :
    ∃ thread, (server.handle ctx r s).1.Lists MessageView.toJson thread ∧
      Messaging.loadThread caller other job ctx s = (.ok thread, s) := by
  obtain ⟨view, s', shown, body⟩ := asks.view_of_answered answered
  have told : (Messaging.showInbox caller ⟨some other, job⟩).Ensures ctx s fun view _ =>
      ∃ thread, view = .thread thread ∧
        Messaging.loadThread caller other job ctx s = (.ok thread, s) := by
    refine .connect (.reading (Messaging.loadThread_readOnly caller other job) fun thread loaded => ?_)
    intro view s₁ ended
    cases ended
    exact ⟨thread, rfl, loaded⟩
  obtain ⟨thread, rfl, loaded⟩ := told view s' shown
  exact ⟨thread, ⟨answered, body⟩, loaded⟩

theorem AsksInbox.shows (linked : s.Linked) (asks : server.AsksInbox caller none job ctx r)
    (answered : (server.handle ctx r s).1.status = 200) :
    ∃ views, (server.handle ctx r s).1.Lists ConversationView.toJson views ∧
      Shows s caller views := by
  obtain ⟨views, lists, loaded⟩ := asks.loads_conversations answered
  exact ⟨views, lists, Messaging.loadConversations_ensures linked caller views s loaded⟩

theorem AsksInbox.answered (sound : s.Sound) (readable : s.Readable)
    (asks : server.AsksInbox caller none job ctx r) (connected : ctx.connected = true) :
    (server.handle ctx r s).1.status = 200 := by
  apply answered_of_succeeds asks.method asks.asked rfl
  obtain ⟨views, loaded⟩ := Messaging.loadConversations_succeeds sound.linked readable caller
  refine .bind (Action.connect_of_connected connected) ?_
  exact .bind (Prod.ext loaded rfl) .done

theorem AsksInbox.same_thread (asks : server.AsksInbox caller (some other) job ctx r)
    (asks' : server.AsksInbox other (some caller) job ctx' r')
    (connected : ctx.connected = ctx'.connected) :
    (server.handle ctx r s).1.status = (server.handle ctx' r' s).1.status ∧
      (server.handle ctx r s).1.body = (server.handle ctx' r' s).1.body := by
  have connects : Action.connect ctx s = Action.connect ctx' s := by
    rw [Action.connect, Action.connect, connected]
  have sameView : Messaging.showInbox caller ⟨some other, job⟩ ctx s =
      Messaging.showInbox other ⟨some caller, job⟩ ctx' s := by
    refine Action.bind_congr connects fun _ s₁ => Action.bind_congr ?_ fun _ _ => rfl
    rw [Messaging.loadThread_comm]
    exact Messaging.loadThread_steady other caller job ctx ctx' s₁
  have samePerform : (Call.showInbox caller ⟨some other, job⟩).perform ctx s =
      (Call.showInbox other ⟨some caller, job⟩).perform ctx' s :=
    Action.bind_congr sameView fun _ _ => rfl
  have same : perform (.showInbox caller ⟨some other, job⟩) ctx s =
      perform (.showInbox other ⟨some caller, job⟩) ctx' s := by
    rw [perform, perform, samePerform]
  rw [(handle_of_asked asks.asked).2, (handle_of_asked asks'.asked).2,
    body_of_asked asks.method asks.asked, body_of_asked asks'.method asks'.asked, same]
  exact ⟨rfl, rfl⟩

/-! ## What is answered agrees -/

section Agreement

variable {views : List ConversationView} {v : ConversationView}

theorem AsksUnread.counts (asks : server.AsksUnread caller ctx r)
    (connected : ctx.connected = true) :
    (server.handle ctx r s).1.status = 200 ∧ (server.handle ctx r s).1.body =
      some (.object [("count", .integer (s.messages.countP (·.isUnreadBy caller) : Nat))]) := by
  have counted : Messaging.countUnread caller ctx s =
      (.ok (s.messages.countP (·.isUnreadBy caller)), s) :=
    Action.bind_of_ok (Action.connect_of_connected connected)
  exact answered_of_ok asks.method asks.asked (Action.bind_of_ok counted)

/-- The thread with the other user of a shown conversation is answered with its messages. -/
theorem AsksInbox.shows_thread (linked : s.Linked) (shows : Shows s caller views) (hv : v ∈ views)
    (asks : server.AsksInbox caller (some v.otherUser.id) job ctx r)
    (connected : ctx.connected = true) :
    ∃ messages, (server.handle ctx r s).1.Lists MessageView.toJson messages ∧
      messages.map MessageView.row = Messaging.threadOf s caller v.otherUser.id job ∧
        ∀ m ∈ messages, m.receiver = none ∧ m.ShowsSender s := by
  have users : ∀ u ∈ s.users, u.id = caller ∨ u.id = v.otherUser.id → u.isReadable = true := by
    intro u hu isEnd
    exact shows.users u hu (isEnd.imp_right fun isOther => ⟨v, hv, isOther.symm⟩)
  obtain ⟨messages, loaded⟩ := Messaging.loadThread_of_readable linked
    (fun m hm => shows.messages m (Messaging.mem_historyOf_of_threadOf hm)) users
  exact ⟨messages, asks.lists_thread connected loaded,
    Messaging.loadThread_ensures caller v.otherUser.id job messages s loaded⟩

theorem inboxAgrees_of_shows (server : Server) (sound : s.Sound) (shows : Shows s caller views) :
    server.InboxAgrees s caller views where
  belongs m stored own := shows.countP_holds stored (by simpa [Store.involves] using own)
  occupied v hv := by
    obtain ⟨m, stored, own, holds⟩ := shows.exists_holds hv
    exact ⟨m, stored, by simpa [Store.involves] using own, holds⟩
  unread ctx r asks connected := by
    rw [shows.sum_unreadCount]
    exact asks.counts connected
  thread v hv j about ctx r asks connected := by
    obtain ⟨messages, lists, rows, faithful⟩ := asks.shows_thread sound.linked shows hv connected
    have key : v.row.key = ⟨v.otherUser.id, some j⟩ := congrArg (ConversationKey.mk _) about
    refine ⟨messages, lists, Messaging.endsAs_of_rows sound.keyed shows hv ?_ faithful⟩
    rw [rows, Messaging.threadOf_job sound.keyed, key]
  threadNoJob v hv about ctx r asks connected := by
    obtain ⟨messages, lists, rows, faithful⟩ := asks.shows_thread sound.linked shows hv connected
    have key : v.row.key = ⟨v.otherUser.id, none⟩ :=
      congrArg (ConversationKey.mk _) (congrArg (Option.map (·.id)) about)
    refine ⟨messages, lists, Messaging.endsAs_of_rows sound.keyed shows hv ?_ ?_⟩
    · rw [key, ← Messaging.threadOf_noJob sound.keyed, ← rows, List.filter_map]
      rfl
    · intro m hm
      exact faithful m (List.mem_filter.mp hm).1
  newest := shows.newest sound.keyed

end Agreement

/-- In a store that satisfies its constraints the conversations that a user is answered with agree with
the messages, with the number of unread messages and with the threads, and a thread is answered alike
from both its ends.  If all rows can be read, there is such an answer. -/
theorem inbox_agrees (server : Server) (s : Store) (holds : s.Constrained) (caller : Uuid) :
    (∀ ctx r job, server.AsksInbox caller none job ctx r →
      (s.Readable → ctx.connected = true → (server.handle ctx r s).1.status = 200) ∧
        ((server.handle ctx r s).1.status = 200 → ∃ views,
          (server.handle ctx r s).1.Lists ConversationView.toJson views ∧
            server.InboxAgrees s caller views)) ∧
    (∀ other job ctx r ctx' r', server.AsksInbox caller (some other) job ctx r →
      server.AsksInbox other (some caller) job ctx' r' → ctx.connected = ctx'.connected →
        (server.handle ctx r s).1.status = (server.handle ctx' r' s).1.status ∧
          (server.handle ctx r s).1.body = (server.handle ctx' r' s).1.body) := by
  have sound := holds.sound
  constructor
  · intro ctx r job asks
    refine ⟨fun readable connected => asks.answered sound readable connected, fun answered => ?_⟩
    obtain ⟨views, lists, shows⟩ := asks.shows sound.linked answered
    exact ⟨views, lists, inboxAgrees_of_shows server sound shows⟩
  · intro other job ctx r ctx' r' asks asks' connected
    exact asks.same_thread asks' connected

def annInbox : Request where
  method := .get
  target := "/api/messages"
  headers := removal.headers
  body := []

def annUnread : Request := { annInbox with target := "/api/messages/unread-count" }

theorem ann_known {r : Request}
    (field : r.headers.first? "authorization" = removal.headers.first? "authorization") :
    plain.caller? firstMoment.now r = some ann.id := by
  have sameToken : r.bearer? = removal.bearer? := by
    rw [Request.bearer?, field, ← Request.bearer?]
  rw [caller?, identify, sameToken, ← identify, removal_known]
  rfl

theorem annInbox_asks : plain.AsksInbox ann.id none none firstMoment annInbox :=
  ⟨rfl, by decide +kernel, ann_known rfl, rfl, rfl⟩

theorem inbox_agrees_site :
    siteStore.Constrained ∧ plain.AsksInbox ann.id none none firstMoment annInbox ∧
      ∃ v, (plain.handle firstMoment annInbox siteStore).1.Lists ConversationView.toJson [v] ∧
        v.Holds ann.id siteMessage ∧ v.unreadCount = 1 := by
  have holds := siteStore_sound.constrained
  have asks := annInbox_asks
  have readable : siteStore.Readable := by constructor <;> decide
  obtain ⟨answers, agrees⟩ :=
    (inbox_agrees plain siteStore holds ann.id).1 firstMoment annInbox none asks
  obtain ⟨views, lists, agrees⟩ := agrees (answers readable rfl)
  -- There is one message, so every conversation holds it; and one conversation does.
  have one : views.length = 1 := by
    rw [← agrees.belongs siteMessage (List.mem_singleton.mpr rfl) (.inr rfl), eq_comm,
      List.countP_eq_length]
    intro v hv
    obtain ⟨m, hm, _, isIn⟩ := agrees.occupied v hv
    rw [List.mem_singleton.mp hm] at isIn
    exact decide_eq_true isIn
  obtain ⟨v, rfl⟩ := List.length_eq_one_iff.mp one
  obtain ⟨m, hm, _, isIn⟩ := agrees.occupied v (List.mem_singleton.mpr rfl)
  rw [List.mem_singleton.mp hm] at isIn
  refine ⟨holds, asks, v, lists, isIn, ?_⟩
  have asksUnread : plain.AsksUnread ann.id firstMoment annUnread :=
    ⟨rfl, by decide +kernel, ann_known rfl⟩
  have told := (agrees.unread firstMoment annUnread asksUnread rfl).2
  rw [(asksUnread.counts rfl).2] at told
  have counted : (v.unreadCount : Int) = 1 := by
    simpa [siteStore, siteMessage, Message.isUnreadBy] using told.symm
  omega

end Server

end GigBoard
