import GigBoard.Proofs.Entries
import GigBoard.Proofs.Unread

/-!
# Opening a thread

A user who opens a thread is shown what the inbox would have shown, and reads all that the other user
wrote in it: the number of the user's unread messages goes down by that much, the conversations that
the thread is made of have nothing unread any more, and all else stays.
-/

set_option autoImplicit false

namespace GigBoard

open Http (Request)
open Messaging (ConversationKey ConversationView Loadable Message MessageView Shows)
open Store (readRowIf)

variable {ctx : Context} {r : Request} {s s' : Store} {caller other : Uuid} {job : Option Uuid}

namespace Messaging

variable {m : Message}

/-- A conversation is a part of a thread. -/
def ConversationKey.PartOf (other : Uuid) (job : Option Uuid) (key : ConversationKey) : Prop :=
  key.counterpartId = other ∧ ∀ j ∈ job, key.jobId = some j

instance (key : ConversationKey) : Decidable (key.PartOf other job) :=
  inferInstanceAs (Decidable (_ ∧ _))

/-- What is due in a thread is what is unread in its conversations. -/
theorem isDueOnOpening_eq (caller other : Uuid) (job : Option Uuid) (m : Message) :
    isDueOnOpening caller other job m =
      (decide ((ConversationKey.ofMessage caller m).PartOf other job) && m.isUnreadBy caller) := by
  rw [Bool.eq_iff_iff, isDueOnOpening_iff, Bool.and_eq_true, decide_eq_true_eq]
  simp only [Message.isUnreadBy, Bool.and_eq_true, decide_eq_true_eq, Bool.not_eq_true']
  constructor
  · rintro ⟨sender, receiver, unread, about⟩
    refine ⟨⟨?_, about⟩, receiver, unread⟩
    by_cases sent : m.senderId = caller
    · rw [ConversationKey.ofMessage, if_pos sent, receiver, ← sent, sender]
    · rw [ConversationKey.ofMessage, if_neg sent, sender]
  · rintro ⟨⟨counterpart, about⟩, receiver, unread⟩
    refine ⟨?_, receiver, unread, about⟩
    by_cases sent : m.senderId = caller
    · simp only [ConversationKey.ofMessage, if_pos sent] at counterpart
      rw [sent, ← receiver, counterpart]
    · simp only [ConversationKey.ofMessage, if_neg sent] at counterpart
      exact counterpart

def ConversationView.opened (caller other : Uuid) (job : Option Uuid) (v : ConversationView) :
    ConversationView :=
  if v.otherUser.id = other ∧ ∀ j ∈ job, v.job.map (·.id) = some j then
    { v with
      unreadCount := 0
      lastMessage := { v.lastMessage with
        read := v.lastMessage.read || v.lastMessage.receiverId = caller } }
  else v

theorem ConversationView.ShownIn.opened {v : ConversationView} (shown : v.ShownIn s) :
    (v.opened caller other job).ShownIn s := by
  unfold ConversationView.opened
  split
  · exact ⟨shown.id, shown.other, shown.job, shown.sender, shown.receiver⟩
  · exact shown

theorem ofMessage_readRowIf (due : Message → Bool) (m : Message) :
    ConversationKey.ofMessage caller (readRowIf due m) = .ofMessage caller m := by
  unfold readRowIf
  split <;> rfl

/-- What opening leaves unread in a conversation: nothing in those of the thread, all in others. -/
theorem countP_opened (history : List Message) (key : ConversationKey) :
    history.countP (fun m => key = .ofMessage caller m &&
      (readRowIf (isDueOnOpening caller other job) m).isUnreadBy caller) =
        if key.PartOf other job then 0
        else history.countP fun m => key = .ofMessage caller m && m.isUnreadBy caller := by
  simp only [isUnreadBy_readRowIf, isDueOnOpening_eq]
  -- What is due is what is unread in a part of the thread: all of this conversation or nothing.
  split
  · rename_i part
    rw [List.countP_eq_zero]
    intro m _ both
    simp only [Bool.and_eq_true, decide_eq_true_eq] at both
    obtain ⟨same, unread, notDue⟩ := both
    rw [← same, decide_eq_true part, unread] at notDue
    cases notDue
  · rename_i notPart
    apply List.countP_congr
    intro m _
    by_cases same : key = .ofMessage caller m
    · simp [← same, notPart]
    · simp [same]

theorem readIfUnread_eq (m : Message) :
    readRowIf (·.isUnreadBy caller) m = { m with read := m.read || m.receiverId = caller } := by
  unfold readRowIf
  by_cases received : m.receiverId = caller
  · by_cases isRead : m.read = true
    · simp [Message.isUnreadBy, received, isRead]
      cases m
      simp_all only
    · simp [Message.isUnreadBy, received, isRead]
  · simp [Message.isUnreadBy, received]

theorem row_opened {history : List Message} {cs : List Conversation}
    (groups : Groups caller history cs) {v : ConversationView} (member : v.row ∈ cs) :
    (v.opened caller other job).row =
      ⟨v.row.key, readRowIf (isDueOnOpening caller other job) v.row.last,
        history.countP fun m => v.row.key = .ofMessage caller m &&
          (readRowIf (isDueOnOpening caller other job) m).isUnreadBy caller⟩ := by
  have lastDue : isDueOnOpening caller other job v.row.last =
      (decide (v.row.key.PartOf other job) && v.row.last.isUnreadBy caller) := by
    rw [isDueOnOpening_eq, ← groups.last_key member]
  rw [countP_opened, ← groups.unread v.row member]
  by_cases part : v.row.key.PartOf other job
  · have opened : (v.opened caller other job).row = ⟨v.row.key,
        { v.row.last with read := v.row.last.read || v.row.last.receiverId = caller }, 0⟩ :=
      congrArg ConversationView.row (if_pos part)
    have marked : readRowIf (isDueOnOpening caller other job) v.row.last =
        readRowIf (·.isUnreadBy caller) v.row.last := by
      rw [readRowIf, readRowIf, lastDue, decide_eq_true part, Bool.true_and]
    rw [opened, if_pos part, marked, readIfUnread_eq]
  · have closed : (v.opened caller other job).row = v.row :=
      congrArg ConversationView.row (if_neg part)
    have unmarked : readRowIf (isDueOnOpening caller other job) v.row.last = v.row.last := by
      rw [readRowIf, lastDue, decide_eq_false part, Bool.false_and]
      rfl
    rw [closed, if_neg part, unmarked]

theorem Shows.opened {views views' : List ConversationView} (keyed : s.Keyed) (keyed' : s'.Keyed)
    (marked : s' = { s with
      messages := s.messages.map (readRowIf (isDueOnOpening caller other job)) })
    (shows : Shows s caller views) (shows' : Shows s' caller views') :
    views' = views.map (ConversationView.opened caller other job) := by
  let due := isDueOnOpening caller other job
  have groups := group_groups caller (historyOf s caller)
  have marks : historyOf s' caller = (historyOf s caller).map (readRowIf due) :=
    historyOf_map (keeps_readRowIf due) (by rw [marked]) caller
  have sorted := historyOf_sorted keyed' caller
  rw [marks] at sorted
  apply ConversationView.eq_of_rows keyed
  · intro v hv
    have shown := shows'.shown v hv
    subst marked
    exact shown.mono (List.Subset.refl _) shown.job
  · intro v hv
    obtain ⟨w, hw, rfl⟩ := List.mem_map.mp hv
    exact (shows.shown w hw).opened
  · rw [shows'.rows, marks, (group_groups caller _).unique (groups.map (ofMessage_readRowIf due)) sorted,
      ← shows.rows, List.map_map, List.map_map]
    apply List.map_congr_left
    intro v hv
    exact (row_opened groups (shows.row_mem hv)).symm

/-- What was due is not due again. -/
theorem readRowIf_again (m : Message) :
    readRowIf (isDueOnOpening caller other job) (readRowIf (isDueOnOpening caller other job) m) =
      readRowIf (isDueOnOpening caller other job) m := by
  by_cases due : isDueOnOpening caller other job m = true
  · rw [readRowIf, readRowIf, if_pos due, if_neg]
    simp [isDueOnOpening]
  · rw [readRowIf, readRowIf, if_neg due, if_neg due]

theorem openThread_ensures (caller other : Uuid) (job : Option Uuid) :
    (openThread caller other job).Ensures ctx s fun views s' =>
      loadThread caller other job ctx s = (.ok views, s) ∧ s' = { s with
        messages := s.messages.map (readRowIf (isDueOnOpening caller other job)) } := by
  refine .connect (.bind fun views s₁ loaded => .change fun n s₂ marked => ?_)
  obtain rfl : s₁ = s := by
    have same := loadThread_readOnly caller other job ctx s
    rw [loaded] at same
    exact same
  obtain ⟨_, rfl⟩ := Store.markRead_ok marked
  intro views' s' ended
  cases ended
  exact ⟨loaded, rfl⟩

end Messaging

namespace Server

variable {server : Server}

/-- What a user is answered with for the thread with another user, and what it does to the store, if
the answer is 200. -/
structure ThreadOpened (server : Server) (caller other : Uuid) (job : Option Uuid) (ctx : Context)
    (r : Request) (s : Store) : Prop where
  store : (server.handle ctx r s).2 = { s with
    messages := s.messages.map fun m =>
      if m.DueOnOpening caller other job then { m with read := true } else m }
  thread : ∃ thread, (server.handle ctx r s).1.Lists MessageView.toJson thread ∧
    (∀ ctx' r', server.AsksInbox caller (some other) job ctx' r' → ctx'.connected = true →
      (server.handle ctx' r' s).1.Lists MessageView.toJson thread) ∧
    ∀ m ∈ s.messages, m.DueOnOpening caller other job → m ∈ thread.map MessageView.row
  counted : ∀ user ctx₁ r₁ ctx₂ r₂, server.AsksUnread user ctx₁ r₁ → ctx₁.connected = true →
    server.AsksUnread user ctx₂ r₂ → ctx₂.connected = true → ∃ n n',
      (server.handle ctx₁ r₁ s).1.Counts n ∧
        (server.handle ctx₂ r₂ (server.handle ctx r s).2).1.Counts n' ∧
          n = n' + if user = caller then
            s.messages.countP (·.DueOnOpening caller other job) else 0
  conversations : server.RelatesInboxes caller s (server.handle ctx r s).2 fun views views' =>
    views' = views.map (ConversationView.opened caller other job)
  again : ∀ ctx' r', server.OpensThread caller other job ctx' r' →
    (server.handle ctx' r' (server.handle ctx r s).2).2 = (server.handle ctx r s).2

/-- A request for a thread leaves the store alone or marks what is due. -/
theorem OpensThread.store (opens : server.OpensThread caller other job ctx r) (s : Store) :
    (server.handle ctx r s).2 = s ∨ (server.handle ctx r s).2 = { s with
      messages := s.messages.map (readRowIf (Messaging.isDueOnOpening caller other job)) } := by
  rcases server.handle_effect ctx r s with same | ⟨call, asked, effect⟩
  · exact .inl same
  · rw [asked?_openThread_iff.mpr opens] at asked
    cases asked
    generalize (server.handle ctx r s).2 = s' at effect ⊢
    cases effect with
    | nothing => exact .inl rfl
    | threadRead marked => exact .inr (Store.markRead_ok marked).2

theorem OpensThread.answered (opens : server.OpensThread caller other job ctx r)
    (isGet : r.method = .get) (ok : (server.handle ctx r s).1.status = 200) :
    ∃ thread, (server.handle ctx r s).1.Lists MessageView.toJson thread ∧
      Messaging.loadThread caller other job ctx s = (.ok thread, s) ∧
        (server.handle ctx r s).2 = { s with
          messages := s.messages.map (readRowIf (Messaging.isDueOnOpening caller other job)) } := by
  obtain ⟨call, answer, s', asked, performed, body⟩ := call_of_answered isGet ok
  have store := (handle_of_asked (s := s) asked).1
  rw [asked?_openThread_iff.mpr opens] at asked
  cases asked
  rw [performed] at store
  obtain ⟨thread, opened, rfl⟩ := Call.answering_result performed
  obtain ⟨loaded, rfl⟩ := Messaging.openThread_ensures caller other job thread s' opened
  exact ⟨thread, ⟨ok, body⟩, loaded, store⟩

/-- What is due in a thread is in it. -/
theorem mem_thread_of_due {m : Message} {thread : List MessageView} (hm : m ∈ s.messages)
    (due : m.DueOnOpening caller other job)
    (loaded : Messaging.loadThread caller other job ctx s = (.ok thread, s)) :
    m ∈ thread.map MessageView.row := by
  rw [(Messaging.loadThread_ensures caller other job thread s loaded).1]
  refine Messaging.mem_threadOf.mpr ⟨hm, ?_, due.about⟩
  simp [Store.isBetween, due.sender, due.receiver]

theorem OpensThread.opened (sound : s.Sound) (opens : server.OpensThread caller other job ctx r)
    (isGet : r.method = .get) (ok : (server.handle ctx r s).1.status = 200) :
    server.ThreadOpened caller other job ctx r s := by
  obtain ⟨thread, lists, loaded, store⟩ := opens.answered isGet ok
  have sound' := server.handle_sound ctx r sound
  have messages : (server.handle ctx r s).2.messages =
      s.messages.map (readRowIf (Messaging.isDueOnOpening caller other job)) := by rw [store]
  constructor
  · rw [store]
    congr 1
    apply List.map_congr_left
    intro m _
    exact if_congr Messaging.isDueOnOpening_iff rfl rfl
  · refine ⟨thread, lists, ?_, fun m hm due => mem_thread_of_due hm due loaded⟩
    intro ctx' r' asks connected
    apply asks.lists_thread connected
    rw [Messaging.loadThread_steady caller other job ctx' ctx, loaded]
  · intro user ctx₁ r₁ ctx₂ r₂ before connected after connected'
    refine ⟨_, _, before.counts connected, after.counts connected', ?_⟩
    rw [messages, ← Messaging.countP_unreadAndDue]
    exact (Messaging.countP_marked user _ s.messages).symm
  · refine relatesInboxes_of_shows sound sound' ?_ fun views views' shows shows' =>
      shows.opened sound.keyed sound'.keyed store shows'
    exact Messaging.loadable_map (Messaging.keeps_readRowIf _) messages (by rw [store])
  · intro ctx' r' opens'
    -- Where nothing is left to mark, marking again changes nothing.
    rcases opens'.store (server.handle ctx r s).2 with same | marked
    · exact same
    · rw [marked, store, List.map_map]
      congr 1
      apply List.map_congr_left
      intro m _
      exact Messaging.readRowIf_again m

/-- In a store that satisfies its constraints, a user who asks for the thread with another and is
answered with it sees what the inbox would have shown; what was due is read afterwards, and nothing
else changes. -/
theorem thread_opening (server : Server) (s : Store) (holds : s.Constrained) (caller other : Uuid)
    (job : Option Uuid) (ctx : Context) (r : Request)
    (opens : server.OpensThread caller other job ctx r) (isGet : r.method = .get)
    (answered : (server.handle ctx r s).1.status = 200) :
    server.ThreadOpened caller other job ctx r s :=
  opens.opened holds.sound isGet answered

def annOpening : Request :=
  { annInbox with target := "/api/messages/00000000-0000-0000-0000-000000000002" }

theorem thread_opening_site :
    siteStore.Constrained ∧ plain.OpensThread ann.id bob.id none firstMoment annOpening ∧
      annOpening.method = .get ∧ (plain.handle firstMoment annOpening siteStore).1.status = 200 ∧
        (plain.handle firstMoment annOpening siteStore).2 =
          { siteStore with messages := [{ siteMessage with read := true }] } := by
  have opens : plain.OpensThread ann.id bob.id none firstMoment annOpening :=
    ⟨.inl rfl, ⟨"00000000-0000-0000-0000-000000000002".toList, by decide +kernel,
      Http.pathId_eq_ok_iff.mpr (by decide +kernel)⟩, ann_known rfl, rfl⟩
  have answered : (plain.handle firstMoment annOpening siteStore).1.status = 200 := by
    rw [(handle_of_asked (asked?_openThread_iff.mpr opens)).2]
    decide +kernel
  have opened := thread_opening plain siteStore siteStore_sound.constrained ann.id bob.id none
    firstMoment annOpening opens rfl answered
  exact ⟨siteStore_sound.constrained, opens, rfl, answered, opened.store⟩

end Server

end GigBoard
