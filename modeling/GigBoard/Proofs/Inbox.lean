import GigBoard.Proofs.Answers
import GigBoard.Proofs.Grouping
import GigBoard.Proofs.Order

/-!
# What the inbox loads

The rows behind the two views of an inbox: all messages of a user, grouped into conversations, and the
thread with one other user.  The thread of a conversation is the part of the history that belongs to
it, the other way round; so both views show the same last message and count the same messages as not
read.
-/

set_option autoImplicit false

namespace GigBoard

namespace Messaging

open Account (User UserSummary)
open Store (newestPassing oldestFirst involves isBetween)

variable {ctx : Context} {s s' : Store} {caller other : Uuid} {job : Option Uuid} {m : Message}

/-! ## Views of messages and conversations -/

def MessageView.row (v : MessageView) : Message :=
  ⟨v.id, v.senderId, v.receiverId, v.jobId, v.content, v.read, v.createdAt⟩

def MessageView.ShowsSender (s : Store) (v : MessageView) : Prop :=
  ∃ u ∈ s.users, u.id = v.senderId ∧ v.sender = .ofUser u

def MessageView.ShowsReceiver (s : Store) (v : MessageView) : Prop :=
  ∃ u ∈ s.users, u.id = v.receiverId ∧ v.receiver = some (.ofUser u)

def ConversationView.row (v : ConversationView) : Conversation :=
  ⟨⟨v.otherUser.id, v.job.map (·.id)⟩, v.lastMessage.row, v.unreadCount⟩

/-- A view of a conversation shows its users and its job as the store knows them. -/
structure ConversationView.ShownIn (s : Store) (v : ConversationView) : Prop where
  id : v.id = v.row.key.text
  other : ∃ u ∈ s.users, v.otherUser = .ofUser u
  job : ∀ reference, v.job = some reference → ∃ j ∈ s.jobs, reference = ⟨j.id, j.title⟩
  sender : v.lastMessage.ShowsSender s
  receiver : v.lastMessage.ShowsReceiver s

/-- Two views of one message that show its sender and the same receiver are the same. -/
theorem MessageView.eq_of_row (keyed : s.Keyed) {v w : MessageView} (sameRow : v.row = w.row)
    (sameReceiver : v.receiver = w.receiver) (showsV : v.ShowsSender s)
    (showsW : w.ShowsSender s) : v = w := by
  obtain ⟨a, ha, isA, senderV⟩ := showsV
  obtain ⟨b, hb, isB, senderW⟩ := showsW
  cases v
  cases w
  simp only [row, Message.mk.injEq] at sameRow
  simp only at sameReceiver isA isB senderV senderW
  have sameSender : a = b :=
    keyed.userId.eq_of_same ha hb (isA.trans (sameRow.2.1.trans isB.symm))
  simp [sameRow, sameReceiver, senderV, senderW, sameSender]

/-- Two views of one message that show its sender and its receiver are the same. -/
theorem MessageView.eq_of_shown (keyed : s.Keyed) {v w : MessageView} (sameRow : v.row = w.row)
    (senderV : v.ShowsSender s) (senderW : w.ShowsSender s) (receiverV : v.ShowsReceiver s)
    (receiverW : w.ShowsReceiver s) : v = w := by
  obtain ⟨x, hx, forX, receivesX⟩ := receiverV
  obtain ⟨y, hy, forY, receivesY⟩ := receiverW
  have ids : v.receiverId = w.receiverId := congrArg Message.receiverId sameRow
  refine eq_of_row keyed sameRow ?_ senderV senderW
  rw [receivesX, receivesY, keyed.userId.eq_of_same hx hy (forX.trans (ids.trans forY.symm))]

theorem summaryAmong_ok {users : List User} {id : Uuid} {summary : UserSummary}
    (found : Account.summaryAmong users id = .ok summary) :
    ∃ u ∈ users, u.id = id ∧ summary = .ofUser u := by
  unfold Account.summaryAmong at found
  split at found
  · cases found
  · rename_i u isUser
    cases found
    exact ⟨u, Rows.mem_of_found isUser, Rows.key_of_found isUser, rfl⟩

theorem summaryAmong_loaded {id : Uuid} {ids : List Uuid} (known : s.hasUser id = true)
    (asked : id ∈ ids) : ∃ summary,
      Account.summaryAmong (s.users.filter fun u => ids.contains u.id) id = .ok summary := by
  obtain ⟨u, found⟩ := Store.among_loaded known asked
  rw [Account.summaryAmong, found]
  exact ⟨_, rfl⟩

theorem withSender_ok {users : List User} {v : MessageView} (are : ∀ u ∈ users, u ∈ s.users)
    (made : MessageView.withSender users m = .ok v) :
    v.row = m ∧ v.receiver = none ∧ v.ShowsSender s := by
  unfold MessageView.withSender at made
  cases found : Account.summaryAmong users m.senderId with
  | error f =>
      rw [found] at made
      cases made
  | ok sender =>
      rw [found] at made
      cases made
      obtain ⟨u, hu, isSender, rfl⟩ := summaryAmong_ok found
      exact ⟨rfl, rfl, u, are u hu, isSender, rfl⟩

theorem withBoth_ok {users : List User} {v : MessageView} (are : ∀ u ∈ users, u ∈ s.users)
    (made : MessageView.withBoth users m = .ok v) :
    v.row = m ∧ v.ShowsSender s ∧ v.ShowsReceiver s := by
  obtain ⟨receiver, isReceiver, made⟩ := bind_ok made
  obtain ⟨view, isView, made⟩ := bind_ok made
  cases made
  obtain ⟨rfl, _, sender⟩ := withSender_ok are isView
  obtain ⟨u, hu, same, rfl⟩ := summaryAmong_ok isReceiver
  exact ⟨rfl, sender, u, are u hu, same, rfl⟩

theorem make_ok {users : List User} {titles : List (Uuid × String)} {c : Conversation}
    {v : ConversationView} (are : ∀ u ∈ users, u ∈ s.users)
    (are' : ∀ pair ∈ titles, ∃ j ∈ s.jobs, pair = (j.id, j.title))
    (titled : ∀ j, c.key.jobId = some j → ∃ t, (j, t) ∈ titles)
    (made : ConversationView.make users titles c = .ok v) : v.row = c ∧ v.ShownIn s := by
  obtain ⟨other, isOther, made⟩ := bind_ok made
  obtain ⟨last, isLast, made⟩ := bind_ok made
  obtain rfl := Except.ok.inj made
  obtain ⟨u, hu, isUser, rfl⟩ := summaryAmong_ok isOther
  obtain ⟨isRow, sender, receiver⟩ := withBoth_ok are isLast
  have sameJob : (c.key.jobId.bind fun id =>
      (titles.find? (·.1 = id)).map fun pair => JobReference.mk id pair.2).map (·.id) =
        c.key.jobId := by
    cases about : c.key.jobId with
    | none => rfl
    | some j =>
        obtain ⟨t, ht⟩ := titled j about
        have found : (titles.find? (·.1 = j)).isSome = true := by
          rw [List.find?_isSome]
          exact ⟨(j, t), ht, decide_eq_true rfl⟩
        obtain ⟨pair, isPair⟩ := Option.isSome_iff_exists.mp found
        simp [isPair]
  have row : ConversationView.row ⟨c.key.text, .ofUser u, c.key.jobId.bind fun id =>
      (titles.find? (·.1 = id)).map fun pair => ⟨id, pair.2⟩, last, c.unread⟩ = c := by
    rw [ConversationView.row, sameJob, isRow]
    exact congrArg (fun id => Conversation.mk ⟨id, c.key.jobId⟩ c.last c.unread) isUser
  refine ⟨row, ⟨?_, ⟨u, are u hu, rfl⟩, ?_, sender, receiver⟩⟩
  · rw [row]
  · intro reference isReference
    obtain ⟨j, _, isReference⟩ := Option.bind_eq_some_iff.mp isReference
    obtain ⟨pair, isPair, rfl⟩ := Option.map_eq_some_iff.mp isReference
    obtain ⟨k, hk, rfl⟩ := are' pair (Rows.mem_of_found isPair)
    exact ⟨k, hk, congrArg (JobReference.mk · k.title) (Rows.key_of_found isPair).symm⟩

/-! ## The history and its threads -/

def historyOf (s : Store) (caller : Uuid) : List Message :=
  newestPassing Message.createdAt Message.id (involves caller) s.messages

def threadOf (s : Store) (caller other : Uuid) (job : Option Uuid) : List Message :=
  oldestFirst Message.createdAt Message.id
    (s.messages.filter fun m => isBetween caller other m && job.all fun j => m.jobId = some j)

theorem isBetween_comm (a b : Uuid) (m : Message) : isBetween a b m = isBetween b a m :=
  Bool.or_comm _ _

theorem involves_of_isBetween (between : isBetween caller other m = true) :
    involves caller m = true := by
  simp only [isBetween, involves, Bool.or_eq_true, Bool.and_eq_true, decide_eq_true_eq] at between ⊢
  rcases between with ⟨sent, _⟩ | ⟨_, received⟩
  · exact .inl sent
  · exact .inr received

/-- A message of the caller belongs to the conversation with whom it goes to or comes from. -/
theorem key_eq_ofMessage_iff (own : involves caller m = true) :
    ConversationKey.mk other job = .ofMessage caller m ↔
      isBetween caller other m = true ∧ m.jobId = job := by
  simp only [involves, Bool.or_eq_true, decide_eq_true_eq] at own
  simp only [isBetween, ConversationKey.ofMessage, ConversationKey.mk.injEq, Bool.or_eq_true,
    Bool.and_eq_true, decide_eq_true_eq]
  by_cases sent : m.senderId = caller
  · rw [if_pos sent]
    constructor
    · rintro ⟨rfl, rfl⟩
      exact ⟨.inl ⟨sent, rfl⟩, rfl⟩
    · rintro ⟨⟨_, received⟩ | ⟨isSender, received⟩, rfl⟩
      · exact ⟨received.symm, rfl⟩
      · exact ⟨by rw [← isSender, sent, received], rfl⟩
  · rw [if_neg sent]
    have received : m.receiverId = caller := own.resolve_left sent
    constructor
    · rintro ⟨rfl, rfl⟩
      exact ⟨.inr ⟨rfl, received⟩, rfl⟩
    · rintro ⟨⟨isSender, _⟩ | ⟨isSender, _⟩, rfl⟩
      · exact absurd isSender sent
      · exact ⟨isSender.symm, rfl⟩

/-- The two users of a message of the caller are the caller and the counterpart. -/
theorem users_of_involves (own : involves caller m = true) :
    (m.senderId = caller ∧ m.receiverId = (ConversationKey.ofMessage caller m).counterpartId) ∨
      (m.senderId = (ConversationKey.ofMessage caller m).counterpartId ∧ m.receiverId = caller) := by
  simp only [involves, Bool.or_eq_true, decide_eq_true_eq] at own
  by_cases sent : m.senderId = caller
  · simp [ConversationKey.ofMessage, sent]
  · simp [ConversationKey.ofMessage, sent, own.resolve_left sent]

/-- A thread is a part of the history, the other way round. -/
theorem threadOf_eq (keyed : s.Keyed) (caller other : Uuid) (job : Option Uuid) :
    threadOf s caller other job = ((historyOf s caller).filter fun m =>
      isBetween caller other m && job.all fun j => m.jobId = some j).reverse := by
  have sameRows : (s.messages.filter (involves caller)).filter (fun m =>
      isBetween caller other m && job.all fun j => m.jobId = some j) =
        s.messages.filter fun m =>
          isBetween caller other m && job.all fun j => m.jobId = some j := by
    rw [List.filter_filter]
    apply List.filter_congr
    intro m _
    cases between : isBetween caller other m with
    | false => rfl
    | true => rw [involves_of_isBetween between, Bool.and_true]
  rw [threadOf, historyOf, newestPassing, Store.filter_newestFirst (keyed.messageId.filter _),
    sameRows, Store.oldestFirst_eq_reverse (keyed.messageId.filter _)]

theorem involves_of_mem_historyOf (member : m ∈ historyOf s caller) :
    involves caller m = true := (Store.mem_newestPassing.mp member).2

theorem threadOf_job (keyed : s.Keyed) (caller other j : Uuid) :
    threadOf s caller other (some j) = ((historyOf s caller).filter fun m =>
      ConversationKey.mk other (some j) = .ofMessage caller m).reverse := by
  rw [threadOf_eq keyed]
  congr 1
  apply List.filter_congr
  intro m hm
  simp [key_eq_ofMessage_iff (involves_of_mem_historyOf hm)]

/-- Of the whole thread with a user the messages about no job are a conversation. -/
theorem threadOf_noJob (keyed : s.Keyed) (caller other : Uuid) :
    (threadOf s caller other none).filter (·.jobId = none) = ((historyOf s caller).filter fun m =>
      ConversationKey.mk other none = .ofMessage caller m).reverse := by
  rw [threadOf_eq keyed, List.filter_reverse, List.filter_filter]
  congr 1
  apply List.filter_congr
  intro m hm
  simp [key_eq_ofMessage_iff (involves_of_mem_historyOf hm), and_comm]

/-! ## Loading -/

theorem loadThread_ensures (caller other : Uuid) (job : Option Uuid) :
    (loadThread caller other job).Ensures ctx s fun views _ =>
      views.map MessageView.row = threadOf s caller other job ∧
        ∀ v ∈ views, v.receiver = none ∧ v.ShowsSender s := by
  refine .query fun messages selected => .query fun users areUsers => ?_
  refine .ofExcept_last fun views made => ?_
  have are := Store.mem_of_usersWithIds areUsers
  rw [Store.readRows_ok selected] at made
  refine ⟨mapM_ok made fun m _ v isView => (withSender_ok are isView).1, ?_⟩
  intro v hv
  obtain ⟨m, _, isView⟩ := mapM_mem made v hv
  exact (withSender_ok are isView).2

theorem mem_threadOf : m ∈ threadOf s caller other job ↔
    m ∈ s.messages ∧ isBetween caller other m = true ∧ ∀ j ∈ job, m.jobId = some j := by
  rw [threadOf, Store.mem_oldestFirst, List.mem_filter, Bool.and_eq_true, Option.all_eq_true]
  simp only [decide_eq_true_eq, Option.mem_def]

theorem mem_historyOf_of_threadOf (member : m ∈ threadOf s caller other job) :
    m ∈ historyOf s caller := by
  obtain ⟨stored, between, _⟩ := mem_threadOf.mp member
  exact Store.mem_newestPassing.mpr ⟨stored, involves_of_isBetween between⟩

theorem loadThread_of_readable (linked : s.Linked)
    (messages : ∀ m ∈ threadOf s caller other job, m.isReadable = true)
    (users : ∀ u ∈ s.users, u.id = caller ∨ u.id = other → u.isReadable = true) :
    ∃ views, loadThread caller other job ctx s = (.ok views, s) := by
  have read : Store.thread caller other job s = .ok (threadOf s caller other job) :=
    Store.readRows_of_all messages
  have loaded : Store.usersWithIds [caller, other] s =
      .ok (s.users.filter fun u => [caller, other].contains u.id) := by
    apply Store.readRows_of_all
    intro u hu
    obtain ⟨hu, isOne⟩ := List.mem_filter.mp hu
    exact users u hu (by simpa using isOne)
  obtain ⟨views, made⟩ : ∃ views, (threadOf s caller other job).mapM (MessageView.withSender
      (s.users.filter fun u => [caller, other].contains u.id)) = .ok views := by
    apply mapM_of_all
    intro m hm
    obtain ⟨hm, between, _⟩ := mem_threadOf.mp hm
    have asked : m.senderId ∈ [caller, other] := by
      simp only [isBetween, Bool.or_eq_true, Bool.and_eq_true, decide_eq_true_eq] at between
      rcases between with ⟨sent, _⟩ | ⟨sent, _⟩ <;> simp [sent]
    obtain ⟨sender, found⟩ := summaryAmong_loaded (linked.messageSender m hm) asked
    rw [MessageView.withSender, found]
    exact ⟨_, rfl⟩
  refine ⟨views, ?_⟩
  unfold loadThread
  rw [Action.bind_of_ok (Action.query_of_ok read), Action.bind_of_ok (Action.query_of_ok loaded),
    made]
  rfl

theorem loadThread_comm (caller other : Uuid) (job : Option Uuid) :
    loadThread caller other job = loadThread other caller job := by
  have sameThread : Store.thread caller other job = Store.thread other caller job := by
    funext t
    simp only [Store.thread, isBetween_comm caller other]
  have sameUsers : Store.usersWithIds [caller, other] = Store.usersWithIds [other, caller] := by
    funext t
    simp [Store.usersWithIds, or_comm]
  rw [loadThread, sameThread, sameUsers]
  rfl

theorem loadThread_steady (caller other : Uuid) (job : Option Uuid) :
    (loadThread caller other job).Steady :=
  .bind (.query _) fun _ => .bind (.query _) fun _ => .ofExcept _

/-- What is known once the conversations of a user are shown: they are those of the history, and all
rows that were needed can be read. -/
structure Shows (s : Store) (caller : Uuid) (views : List ConversationView) : Prop where
  rows : views.map ConversationView.row = Conversation.group caller (historyOf s caller)
  shown : ∀ v ∈ views, v.ShownIn s
  messages : ∀ m ∈ historyOf s caller, m.isReadable = true
  users : ∀ u ∈ s.users,
    (u.id = caller ∨ ∃ v ∈ views, v.otherUser.id = u.id) → u.isReadable = true

theorem Shows.row_mem {views : List ConversationView} {v : ConversationView}
    (shows : Shows s caller views) (hv : v ∈ views) :
    v.row ∈ Conversation.group caller (historyOf s caller) := by
  rw [← shows.rows]
  exact List.mem_map_of_mem hv

/-- A conversation about a job has a message about it, so the job is there and has a title. -/
theorem titles_of_group (linked : s.Linked) {c : Conversation}
    (hc : c ∈ Conversation.group caller (historyOf s caller)) {ids : List Uuid} {j : Uuid}
    (asked : j ∈ ids) (about : c.key.jobId = some j) :
    ∃ t, (j, t) ∈ (s.jobs.filter fun j => ids.contains j.id).map fun j => (j.id, j.title) := by
  have groups := group_groups caller (historyOf s caller)
  have stored := (Store.mem_newestPassing.mp (groups.last_mem hc)).1
  have lastAbout : c.last.jobId = some j := by
    rw [groups.last_key hc] at about
    exact about
  obtain ⟨k, hk, rfl⟩ := (s.hasJob_iff j).mp (linked.messageJob c.last stored j lastAbout)
  refine ⟨k.title, List.mem_map.mpr ⟨k, List.mem_filter.mpr ⟨hk, ?_⟩, rfl⟩⟩
  exact List.contains_iff_mem.mpr asked

theorem loadConversations_ensures (linked : s.Linked) (caller : Uuid) :
    (loadConversations caller).Ensures ctx s fun views _ => Shows s caller views := by
  refine .query fun messages selected => .query fun users areUsers => ?_
  refine .query fun titles areTitles => .ofExcept_last fun views made => ?_
  have isHistory : messages = historyOf s caller := Store.readRows_ok selected
  rw [isHistory] at areUsers areTitles made
  have are := Store.mem_of_usersWithIds areUsers
  have titled : ∀ c ∈ Conversation.group caller (historyOf s caller),
      ∀ j, c.key.jobId = some j → ∃ t, (j, t) ∈ titles := by
    intro c hc j about
    cases areTitles
    exact titles_of_group linked hc (List.mem_filterMap.mpr ⟨c, hc, about⟩) about
  have are' : ∀ pair ∈ titles, ∃ j ∈ s.jobs, pair = (j.id, j.title) := by
    cases areTitles
    intro pair isPair
    obtain ⟨j, hj, rfl⟩ := List.mem_map.mp isPair
    exact ⟨j, List.mem_of_mem_filter hj, rfl⟩
  have rows : views.map ConversationView.row = Conversation.group caller (historyOf s caller) :=
    mapM_ok made fun c hc v isView => (make_ok are are' (titled c hc) isView).1
  constructor
  · exact rows
  · intro v hv
    obtain ⟨c, hc, isView⟩ := mapM_mem made v hv
    exact (make_ok are are' (titled c hc) isView).2
  · exact Store.readRows_readable selected
  · intro u hu isOne
    apply Store.readRows_readable areUsers u
    refine List.mem_filter.mpr ⟨hu, ?_⟩
    rw [List.contains_iff_mem]
    rcases isOne with isCaller | ⟨v, hv, isOther⟩
    · exact isCaller ▸ List.mem_cons_self
    · apply List.mem_cons_of_mem
      rw [← rows, List.map_map]
      exact List.mem_map.mpr ⟨v, hv, isOther⟩

/-- A conversation is shown if its two users are among those that were loaded. -/
theorem make_of_group (linked : s.Linked) {c : Conversation}
    (hc : c ∈ Conversation.group caller (historyOf s caller)) {ids : List Uuid}
    (callerAsked : caller ∈ ids) (otherAsked : c.key.counterpartId ∈ ids)
    (titles : List (Uuid × String)) :
    ∃ v, ConversationView.make (s.users.filter fun u => ids.contains u.id) titles c = .ok v := by
  have groups := group_groups caller (historyOf s caller)
  have member := groups.last_mem hc
  have stored := (Store.mem_newestPassing.mp member).1
  have sender := linked.messageSender c.last stored
  have receiver := linked.messageReceiver c.last stored
  obtain ⟨senderAsked, receiverAsked, otherKnown⟩ : c.last.senderId ∈ ids ∧
      c.last.receiverId ∈ ids ∧ s.hasUser c.key.counterpartId = true := by
    have users := users_of_involves (involves_of_mem_historyOf member)
    rw [← groups.last_key hc] at users
    rcases users with ⟨isCaller, isOther⟩ | ⟨isOther, isCaller⟩
    · rw [isOther] at receiver
      rw [isCaller, isOther]
      exact ⟨callerAsked, otherAsked, receiver⟩
    · rw [isOther] at sender
      rw [isCaller, isOther]
      exact ⟨otherAsked, callerAsked, sender⟩
  obtain ⟨a, foundA⟩ := summaryAmong_loaded sender senderAsked
  obtain ⟨b, foundB⟩ := summaryAmong_loaded receiver receiverAsked
  obtain ⟨o, foundO⟩ := summaryAmong_loaded otherKnown otherAsked
  rw [ConversationView.make, MessageView.withBoth, MessageView.withSender, foundA, foundB, foundO]
  exact ⟨_, rfl⟩

/-- The conversations are loaded if the messages and the users that they need can be read. -/
theorem loadConversations_of_readable (linked : s.Linked)
    (messages : ∀ m ∈ historyOf s caller, m.isReadable = true)
    (users : ∀ u ∈ s.users, (u.id = caller ∨
      ∃ c ∈ Conversation.group caller (historyOf s caller), c.key.counterpartId = u.id) →
        u.isReadable = true) :
    ∃ views, loadConversations caller ctx s = (.ok views, s) := by
  let cs := Conversation.group caller (historyOf s caller)
  let ids := caller :: cs.map (·.key.counterpartId)
  let titles := (s.jobs.filter fun j => (cs.filterMap (·.key.jobId)).contains j.id).map
    fun j => (j.id, j.title)
  have read : Store.history caller s = .ok (historyOf s caller) := Store.readRows_of_all messages
  have loaded : Store.usersWithIds ids s = .ok (s.users.filter fun u => ids.contains u.id) := by
    apply Store.readRows_of_all
    intro u hu
    obtain ⟨hu, asked⟩ := List.mem_filter.mp hu
    apply users u hu
    rcases List.mem_cons.mp (List.contains_iff_mem.mp asked) with isCaller | isOther
    · exact .inl isCaller
    · exact .inr (List.mem_map.mp isOther)
  obtain ⟨views, made⟩ : ∃ views, cs.mapM
      (ConversationView.make (s.users.filter fun u => ids.contains u.id) titles) = .ok views := by
    apply mapM_of_all
    intro c hc
    have otherAsked : c.key.counterpartId ∈ cs.map (·.key.counterpartId) :=
      List.mem_map_of_mem hc
    exact make_of_group linked hc List.mem_cons_self (List.mem_cons_of_mem _ otherAsked) _
  refine ⟨views, ?_⟩
  have titled : Action.query (Store.jobTitles (cs.filterMap (·.key.jobId))) ctx s =
      (.ok titles, s) := rfl
  unfold loadConversations
  rw [Action.bind_of_ok (Action.query_of_ok read), Action.bind_of_ok (Action.query_of_ok loaded),
    Action.bind_of_ok titled, made]
  rfl

theorem loadConversations_succeeds (linked : s.Linked) (readable : s.Readable) (caller : Uuid) :
    (loadConversations caller).Succeeds ctx s := by
  obtain ⟨views, loaded⟩ : ∃ views, loadConversations caller ctx s = (.ok views, s) := by
    apply loadConversations_of_readable linked
    · intro m hm
      exact readable.messages m (Store.mem_newestPassing.mp hm).1
    · intro u hu _
      exact readable.users u hu
  exact ⟨views, congrArg Prod.fst loaded⟩

/-! ## Both views of a conversation -/

/-- Some messages are those of a shown conversation: its last message is the last of them, and its
unread messages are those among them that the caller has not read. -/
structure ConversationView.EndsAs (v : ConversationView) (caller : Uuid)
    (messages : List MessageView) : Prop where
  last : messages.getLast? = some { v.lastMessage with receiver := none }
  unread : messages.countP (fun m => m.receiverId = caller && !m.read) = v.unreadCount

theorem endsAs_of_rows (keyed : s.Keyed) {views : List ConversationView} {v : ConversationView}
    (shows : Shows s caller views) (hv : v ∈ views) {messages : List MessageView}
    (rows : messages.map MessageView.row = ((historyOf s caller).filter fun m =>
      v.row.key = .ofMessage caller m).reverse)
    (faithful : ∀ m ∈ messages, m.receiver = none ∧ m.ShowsSender s) :
    v.EndsAs caller messages := by
  have groups := group_groups caller (historyOf s caller)
  have own := shows.row_mem hv
  constructor
  · -- The first message of the history that belongs here is the last one of the thread.
    have lastRow : (messages.map MessageView.row).getLast? = some v.lastMessage.row := by
      rw [rows, List.getLast?_reverse, List.head?_filter]
      exact groups.last v.row own
    rw [List.getLast?_map] at lastRow
    obtain ⟨m, isLast, sameRow⟩ := Option.map_eq_some_iff.mp lastRow
    obtain ⟨noReceiver, sender⟩ := faithful m (List.mem_of_getLast? isLast)
    rw [isLast]
    congr 1
    exact MessageView.eq_of_row keyed sameRow noReceiver sender (shows.shown v hv).sender
  · have counted : messages.countP (fun m => m.receiverId = caller && !m.read) =
        (messages.map MessageView.row).countP (·.isUnreadBy caller) := by
      rw [List.countP_map]
      rfl
    rw [counted, rows, List.countP_reverse, List.countP_filter]
    refine Eq.trans ?_ (groups.unread v.row own).symm
    simp only [Bool.and_comm]

end Messaging

end GigBoard
