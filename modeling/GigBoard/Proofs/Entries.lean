import GigBoard.Proofs.Conversations

/-!
# Conversation lists before and after

What becomes of the conversations of a user when the messages of the store change.  A list of
conversations is fixed by the history of its user, so it is enough to know what becomes of the history:
each message in its place becomes another version of itself, or a new one comes in front of all.
-/

set_option autoImplicit false

namespace GigBoard

open Store (Newer)

namespace Messaging

open Store (involves newestPassing)

variable {ctx : Context} {s s' : Store} {caller : Uuid} {m m' : Message} {history : List Message}
  {cs ds : List Conversation} {c : Conversation} {views views' : List ConversationView}

/-! ## The conversations of a history -/

theorem Groups.mem_iff (groups : Groups caller history cs) : c ∈ cs ↔
    history.find? (fun m => c.key = .ofMessage caller m) = some c.last ∧
      c.unread = history.countP fun m => c.key = .ofMessage caller m && m.isUnreadBy caller := by
  constructor
  · intro hc
    exact ⟨groups.last c hc, groups.unread c hc⟩
  · rintro ⟨last, unread⟩
    have own : c.key = .ofMessage caller c.last := by simpa using List.find?_some last
    -- The conversation of the last message has the same key, so it is the same one.
    obtain ⟨d, hd, sameKey⟩ := groups.found c.last (List.mem_of_find?_eq_some last)
    rw [← own] at sameKey
    have lastD := groups.last d hd
    have unreadD := groups.unread d hd
    rw [sameKey] at lastD unreadD
    have sameLast : d.last = c.last := Option.some.inj (lastD.symm.trans last)
    have sameUnread : d.unread = c.unread := unreadD.trans unread.symm
    have same : d = c := by
      cases c
      cases d
      simp_all only
    exact same ▸ hd

theorem Groups.sorted (groups : Groups caller history cs)
    (sorted : history.Pairwise (Newer Message.createdAt Message.id)) :
    cs.Pairwise (Newer (fun c => c.last.createdAt) (fun c => c.last.id)) := by
  have lasts := sorted.sublist groups.order
  rw [List.pairwise_map] at lasts
  exact lasts

theorem Groups.unique (groups : Groups caller history cs) (groups' : Groups caller history ds)
    (sorted : history.Pairwise (Newer Message.createdAt Message.id)) : cs = ds := by
  apply Store.eq_of_newer (groups.sorted sorted) (groups'.sorted sorted)
  intro c
  rw [groups.mem_iff, groups'.mem_iff]

/-- If messages become others of the same conversations, the conversations stay in their places. -/
theorem Groups.map (groups : Groups caller history cs) {f : Message → Message}
    (keeps : ∀ m, ConversationKey.ofMessage caller (f m) = .ofMessage caller m) :
    Groups caller (history.map f) (cs.map fun c => ⟨c.key, f c.last,
      history.countP fun m => c.key = .ofMessage caller m && (f m).isUnreadBy caller⟩) where
  keys := by
    rw [Rows.Unique, List.map_map]
    exact groups.keys
  found m hm := by
    obtain ⟨n, hn, rfl⟩ := List.mem_map.mp hm
    obtain ⟨c, hc, same⟩ := groups.found n hn
    exact ⟨_, List.mem_map_of_mem hc, same.trans (keeps n).symm⟩
  last c hc := by
    obtain ⟨d, hd, rfl⟩ := List.mem_map.mp hc
    simp only [List.find?_map, Function.comp_def, keeps, groups.last d hd, Option.map_some]
  unread c hc := by
    obtain ⟨d, hd, rfl⟩ := List.mem_map.mp hc
    simp only [List.countP_map, Function.comp_def, keeps]
  order := by
    rw [List.map_map]
    have lasts := groups.order.map f
    rw [List.map_map] at lasts
    exact lasts

/-- A message in front of a history brings its conversation to the front. -/
theorem Groups.cons (groups : Groups caller history cs) (m : Message) :
    Groups caller (m :: history)
      (⟨.ofMessage caller m, m, (m :: history).countP fun n =>
        ConversationKey.ofMessage caller m = .ofMessage caller n && n.isUnreadBy caller⟩ ::
          cs.filter fun c => c.key ≠ .ofMessage caller m) where
  keys := by
    rw [Rows.Unique, List.map_cons]
    refine List.nodup_cons.mpr ⟨?_, groups.keys.filter _⟩
    intro again
    obtain ⟨c, hc, same⟩ := List.mem_map.mp again
    exact of_decide_eq_true (List.mem_filter.mp hc).2 same
  found n hn := by
    by_cases same : ConversationKey.ofMessage caller m = .ofMessage caller n
    · exact ⟨_, List.mem_cons_self, same⟩
    · have member : n ∈ history := by
        rcases List.mem_cons.mp hn with rfl | hn
        · exact absurd rfl same
        · exact hn
      obtain ⟨c, hc, own⟩ := groups.found n member
      refine ⟨c, List.mem_cons_of_mem _ (List.mem_filter.mpr ⟨hc, ?_⟩), own⟩
      rw [own]
      exact decide_eq_true fun again => same again.symm
  last c hc := by
    rcases List.mem_cons.mp hc with rfl | hc
    · exact List.find?_cons_of_pos (decide_eq_true rfl)
    · obtain ⟨hc, other⟩ := List.mem_filter.mp hc
      rw [List.find?_cons_of_neg, groups.last c hc]
      simpa using other
  unread c hc := by
    rcases List.mem_cons.mp hc with rfl | hc
    · rfl
    · obtain ⟨hc, other⟩ := List.mem_filter.mp hc
      have otherKey : c.key ≠ .ofMessage caller m := of_decide_eq_true other
      rw [List.countP_cons, groups.unread c hc]
      simp [otherKey]
  order := by
    rw [List.map_cons]
    exact (((List.filter_sublist).map Conversation.last).trans groups.order).cons_cons m

/-! ## Histories -/

theorem historyOf_sorted (keyed : s.Keyed) (caller : Uuid) :
    (historyOf s caller).Pairwise (Newer Message.createdAt Message.id) :=
  Store.newestFirst_sorted (keyed.messageId.filter (involves caller))

/-- An update of messages that keeps their identifiers, their users and their times. -/
structure Message.Keeps (f : Message → Message) : Prop where
  id : ∀ m, (f m).id = m.id
  sender : ∀ m, (f m).senderId = m.senderId
  receiver : ∀ m, (f m).receiverId = m.receiverId
  createdAt : ∀ m, (f m).createdAt = m.createdAt

/-- A change may be made of some messages only. -/
theorem Message.Keeps.when {f : Message → Message} (keeps : Message.Keeps f) (p : Message → Prop)
    [DecidablePred p] : Message.Keeps fun m => if p m then f m else m where
  id m := by
    split
    · exact keeps.id m
    · rfl
  sender m := by
    split
    · exact keeps.sender m
    · rfl
  receiver m := by
    split
    · exact keeps.receiver m
    · rfl
  createdAt m := by
    split
    · exact keeps.createdAt m
    · rfl

theorem keeps_readRowIf (due : Message → Bool) : Message.Keeps (Store.readRowIf due) :=
  Message.Keeps.when (f := fun m => { m with read := true })
    ⟨fun _ => rfl, fun _ => rfl, fun _ => rfl, fun _ => rfl⟩ (due · = true)

theorem keeps_detachedFrom (id : Uuid) : Message.Keeps (Store.detachedFrom id) :=
  Message.Keeps.when (f := fun m => { m with jobId := none })
    ⟨fun _ => rfl, fun _ => rfl, fun _ => rfl, fun _ => rfl⟩ (·.jobId = some id)

theorem Message.Keeps.involves_eq {f : Message → Message} (keeps : Message.Keeps f)
    (caller : Uuid) (m : Message) : involves caller (f m) = involves caller m := by
  rw [involves, involves, keeps.sender, keeps.receiver]

theorem Message.Keeps.counterpart_eq {f : Message → Message} (keeps : Message.Keeps f)
    (caller : Uuid) (m : Message) : (ConversationKey.ofMessage caller (f m)).counterpartId =
      (ConversationKey.ofMessage caller m).counterpartId := by
  simp only [ConversationKey.ofMessage, keeps.sender, keeps.receiver]

theorem historyOf_map {f : Message → Message} (keeps : Message.Keeps f)
    (updated : s'.messages = s.messages.map f) (caller : Uuid) :
    historyOf s' caller = (historyOf s caller).map f := by
  have sameRows : s'.messages.filter (involves caller) =
      (s.messages.filter (involves caller)).map f := by
    rw [updated, List.filter_map]
    congr 1
    exact List.filter_congr fun m _ => keeps.involves_eq caller m
  rw [historyOf, historyOf, newestPassing, newestPassing, sameRows, Store.newestFirst,
    Store.newestFirst]
  refine (List.map_mergeSort ?_).symm
  intro a _ b _
  simp only [keeps.id, keeps.createdAt]

/-- A message later than all others comes in front of the histories of its two users. -/
theorem historyOf_append (keyed : s.Keyed) (keyed' : s'.Keyed)
    (later : ∀ n ∈ s.messages, n.createdAt < m.createdAt)
    (added : s'.messages = s.messages ++ [m]) (own : involves caller m = true) :
    historyOf s' caller = m :: historyOf s caller := by
  -- Both sides are sorted, so it is enough that they have the same messages.
  apply Store.eq_of_newer (historyOf_sorted keyed' caller)
  · refine List.pairwise_cons.mpr ⟨?_, historyOf_sorted keyed caller⟩
    intro n hn
    exact .inl (later n (Store.mem_newestPassing.mp hn).1)
  · intro n
    rw [historyOf, Store.mem_newestPassing, List.mem_cons, historyOf, Store.mem_newestPassing, added,
      List.mem_append, List.mem_singleton]
    constructor
    · rintro ⟨hn | rfl, isOwn⟩
      · exact .inr ⟨hn, isOwn⟩
      · exact .inl rfl
    · rintro (rfl | ⟨hn, isOwn⟩)
      · exact ⟨.inr rfl, own⟩
      · exact ⟨.inl hn, isOwn⟩

/-! ## Views of conversations -/

namespace ConversationView

/-- A view is fixed by the conversation that it shows. -/
theorem eq_of_row (keyed : s.Keyed) {v w : ConversationView} (sameRow : v.row = w.row)
    (shownV : v.ShownIn s) (shownW : w.ShownIn s) : v = w := by
  obtain ⟨a, ha, isA⟩ := shownV.other
  obtain ⟨b, hb, isB⟩ := shownW.other
  have sameKey : v.row.key = w.row.key := congrArg Conversation.key sameRow
  have sameId : v.id = w.id := by rw [shownV.id, shownW.id, sameKey]
  have sameOther : v.otherUser = w.otherUser := by
    have ids : v.otherUser.id = w.otherUser.id := congrArg ConversationKey.counterpartId sameKey
    rw [isA, isB] at ids ⊢
    rw [keyed.userId.eq_of_same ha hb ids]
  have sameJob : v.job = w.job := by
    have ids : v.job.map (·.id) = w.job.map (·.id) := congrArg ConversationKey.jobId sameKey
    cases isV : v.job with
    | none =>
        rw [isV] at ids
        exact (Option.map_eq_none_iff.mp ids.symm).symm
    | some p =>
        rw [isV] at ids
        obtain ⟨q, isW, same⟩ := Option.map_eq_some_iff.mp ids.symm
        obtain ⟨j, hj, rfl⟩ := shownV.job p isV
        obtain ⟨k, hk, rfl⟩ := shownW.job q isW
        rw [isW, keyed.jobId.eq_of_same hj hk same.symm]
  have sameLast : v.lastMessage = w.lastMessage :=
    MessageView.eq_of_shown keyed (congrArg Conversation.last sameRow) shownV.sender shownW.sender
      shownV.receiver shownW.receiver
  have sameUnread : v.unreadCount = w.unreadCount := congrArg Conversation.unread sameRow
  cases v
  cases w
  simp_all only

/-- What is shown of one store is shown of another that knows the users and the job alike. -/
theorem ShownIn.mono {v : ConversationView} (shown : v.ShownIn s) (users : s.users ⊆ s'.users)
    (jobs : ∀ reference, v.job = some reference → ∃ j ∈ s'.jobs, reference = ⟨j.id, j.title⟩) :
    v.ShownIn s' where
  id := shown.id
  other := by
    obtain ⟨u, hu, is⟩ := shown.other
    exact ⟨u, users hu, is⟩
  job := jobs
  sender := by
    obtain ⟨u, hu, is⟩ := shown.sender
    exact ⟨u, users hu, is⟩
  receiver := by
    obtain ⟨u, hu, is⟩ := shown.receiver
    exact ⟨u, users hu, is⟩

theorem eq_of_rows (keyed : s.Keyed) (shown : ∀ v ∈ views, v.ShownIn s)
    (shown' : ∀ v ∈ views', v.ShownIn s) (rows : views.map row = views'.map row) :
    views = views' := by
  induction views generalizing views' with
  | nil => exact (List.map_eq_nil_iff.mp rows.symm).symm
  | cons v views ih =>
      obtain ⟨w, rest, rfl, sameRow, sameRest⟩ := List.map_eq_cons_iff.mp rows.symm
      obtain ⟨shownV, shownRest⟩ := List.forall_mem_cons.mp shown
      obtain ⟨shownW, shownRest'⟩ := List.forall_mem_cons.mp shown'
      rw [eq_of_row keyed sameRow.symm shownV shownW, ih shownRest shownRest' sameRest.symm]

end ConversationView

/-- The rows that are needed to show a user the conversations can be read. -/
structure Loadable (s : Store) (caller : Uuid) : Prop where
  messages : ∀ m ∈ s.messages, involves caller m = true → m.isReadable = true
  self : ∀ u ∈ s.users, u.id = caller → u.isReadable = true
  others : ∀ m ∈ s.messages, involves caller m = true → ∀ u ∈ s.users,
    u.id = (ConversationKey.ofMessage caller m).counterpartId → u.isReadable = true

/-- The conversations of a user are shown if the rows that are needed can be read, and only then. -/
theorem loadable_iff (linked : s.Linked) :
    Loadable s caller ↔ ∃ views, Shows s caller views := by
  have groups := group_groups caller (historyOf s caller)
  constructor
  · intro loadable
    -- Loading does not depend on the circumstances, so any will do.
    let ctx : Context := ⟨true, default, fun _ => default⟩
    obtain ⟨views, loaded⟩ : ∃ views, loadConversations caller ctx s = (.ok views, s) := by
      apply loadConversations_of_readable linked
      · intro m hm
        obtain ⟨hm, own⟩ := Store.mem_newestPassing.mp hm
        exact loadable.messages m hm own
      · rintro u hu (isCaller | ⟨c, hc, isOther⟩)
        · exact loadable.self u hu isCaller
        · obtain ⟨hm, own⟩ := Store.mem_newestPassing.mp (groups.last_mem hc)
          exact loadable.others c.last hm own u hu (groups.last_key hc ▸ isOther.symm)
    exact ⟨views, loadConversations_ensures linked caller views s loaded⟩
  · rintro ⟨views, shows⟩
    constructor
    · intro m hm own
      exact shows.messages m (Store.mem_newestPassing.mpr ⟨hm, own⟩)
    · intro u hu isCaller
      exact shows.users u hu (.inl isCaller)
    · intro m hm own u hu isOther
      obtain ⟨c, hc, key⟩ := groups.found m (Store.mem_newestPassing.mpr ⟨hm, own⟩)
      rw [← shows.rows] at hc
      obtain ⟨v, hv, rfl⟩ := List.mem_map.mp hc
      refine shows.users u hu (.inr ⟨v, hv, ?_⟩)
      rw [isOther, ← key]
      rfl

/-- What can be shown does not depend on more of the messages than their users and their times. -/
theorem loadable_map {f : Message → Message} (keeps : Message.Keeps f)
    (updated : s'.messages = s.messages.map f) (users : s'.users = s.users) :
    Loadable s caller ↔ Loadable s' caller := by
  have sameReadable : ∀ m, (f m).isReadable = m.isReadable := by
    intro m
    rw [Message.isReadable, Message.isReadable, keeps.createdAt]
  constructor
  · intro loadable
    refine ⟨?_, by rw [users]; exact loadable.self, ?_⟩
    · intro m hm own
      obtain ⟨n, hn, rfl⟩ := List.mem_map.mp (updated ▸ hm)
      rw [keeps.involves_eq] at own
      rw [sameReadable]
      exact loadable.messages n hn own
    · intro m hm own
      obtain ⟨n, hn, rfl⟩ := List.mem_map.mp (updated ▸ hm)
      rw [keeps.involves_eq] at own
      rw [users, keeps.counterpart_eq]
      exact loadable.others n hn own
  · intro loadable
    refine ⟨?_, by rw [← users]; exact loadable.self, ?_⟩
    · intro m hm own
      rw [← sameReadable]
      refine loadable.messages (f m) (updated ▸ List.mem_map_of_mem hm) ?_
      rw [keeps.involves_eq, own]
    · intro m hm own
      rw [← users, ← keeps.counterpart_eq]
      refine loadable.others (f m) (updated ▸ List.mem_map_of_mem hm) ?_
      rw [keeps.involves_eq, own]

namespace Shows

theorem unique (keyed : s.Keyed) (shows : Shows s caller views) (shows' : Shows s caller views') :
    views = views' :=
  ConversationView.eq_of_rows keyed shows.shown shows'.shown (shows.rows.trans shows'.rows.symm)

theorem loaded (sound : s.Sound) (shows : Shows s caller views) (ctx : Context) :
    loadConversations caller ctx s = (.ok views, s) := by
  obtain ⟨views', loaded⟩ : ∃ views', loadConversations caller ctx s = (.ok views', s) := by
    apply loadConversations_of_readable sound.linked shows.messages
    rintro u hu (isCaller | ⟨c, hc, isOther⟩)
    · exact shows.users u hu (.inl isCaller)
    · rw [← shows.rows] at hc
      obtain ⟨v, hv, rfl⟩ := List.mem_map.mp hc
      exact shows.users u hu (.inr ⟨v, hv, isOther⟩)
  have shows' := loadConversations_ensures sound.linked caller views' s loaded
  rw [loaded, shows.unique sound.keyed shows']

end Shows

/-! ## Views of threads -/

section Threads

variable {other : Uuid} {job : Option Uuid} {thread thread' : List MessageView}

/-- What is known once a thread is shown: it has the messages of the thread with their sender, and all
rows that were needed can be read. -/
structure ShowsThread (s : Store) (caller other : Uuid) (job : Option Uuid)
    (views : List MessageView) : Prop where
  rows : views.map MessageView.row = threadOf s caller other job
  shown : ∀ v ∈ views, v.receiver = none ∧ v.ShowsSender s
  messages : ∀ m ∈ threadOf s caller other job, m.isReadable = true
  users : ∀ u ∈ s.users, u.id = caller ∨ u.id = other → u.isReadable = true

theorem ShowsThread.unique (keyed : s.Keyed) (shows : ShowsThread s caller other job thread)
    (shows' : ShowsThread s caller other job thread') : thread = thread' := by
  have rows := shows.rows.trans shows'.rows.symm
  have shown := shows.shown
  have shown' := shows'.shown
  clear shows shows'
  induction thread generalizing thread' with
  | nil => exact (List.map_eq_nil_iff.mp rows.symm).symm
  | cons v views ih =>
      obtain ⟨w, rest, rfl, sameRow, sameRest⟩ := List.map_eq_cons_iff.mp rows.symm
      obtain ⟨shownV, shownRest⟩ := List.forall_mem_cons.mp shown
      obtain ⟨shownW, shownRest'⟩ := List.forall_mem_cons.mp shown'
      rw [MessageView.eq_of_row keyed sameRow.symm (shownV.1.trans shownW.1.symm) shownV.2 shownW.2,
        ih sameRest.symm shownRest shownRest']

theorem loadThread_iff (sound : s.Sound) :
    loadThread caller other job ctx s = (.ok thread, s) ↔
      ShowsThread s caller other job thread := by
  constructor
  · intro loaded
    obtain ⟨rows, shown⟩ := loadThread_ensures caller other job thread s loaded
    obtain ⟨messages, _, read, later⟩ := Action.steps_ok loaded
    obtain ⟨selected, rfl⟩ := Action.query_ok read
    obtain ⟨users, _, read, _⟩ := Action.steps_ok later
    obtain ⟨areUsers, rfl⟩ := Action.query_ok read
    refine ⟨rows, shown, Store.readRows_readable selected, ?_⟩
    intro u hu isOne
    apply Store.readRows_readable areUsers u
    exact List.mem_filter.mpr ⟨hu, by simpa using isOne⟩
  · intro shows
    obtain ⟨thread', loaded⟩ : ∃ thread', loadThread caller other job ctx s = (.ok thread', s) :=
      loadThread_of_readable sound.linked shows.messages shows.users
    obtain ⟨rows, shown⟩ := loadThread_ensures caller other job thread' s loaded
    have shows' : ShowsThread s caller other job thread' :=
      ⟨rows, shown, shows.messages, shows.users⟩
    rw [loaded, shows.unique sound.keyed shows']

end Threads

end Messaging

namespace Server

open Http (Request)
open Messaging (ConversationView MessageView Shows ShowsThread Loadable)

variable {server : Server} {ctx ctx' : Context} {r r' : Request} {s s' : Store}
  {caller other : Uuid} {job : Option Uuid} {views : List ConversationView}
  {related : List ConversationView → List ConversationView → Prop}

theorem AsksInbox.lists_conversations (sound : s.Sound)
    (asks : server.AsksInbox caller none job ctx r) (connected : ctx.connected = true)
    (shows : Shows s caller views) :
    (server.handle ctx r s).1.Lists ConversationView.toJson views := by
  have shown : Messaging.showInbox caller ⟨none, job⟩ ctx s = (.ok (.conversations views), s) :=
    (Action.bind_of_ok (Action.connect_of_connected connected)).trans
      (Action.bind_of_ok (shows.loaded sound ctx))
  exact answered_of_ok asks.method asks.asked (Action.bind_of_ok shown)

theorem AsksInbox.answered_iff (sound : s.Sound) (asks : server.AsksInbox caller none job ctx r)
    (connected : ctx.connected = true) :
    (server.handle ctx r s).1.status = 200 ↔ Loadable s caller := by
  rw [Messaging.loadable_iff sound.linked]
  constructor
  · intro answered
    obtain ⟨views, _, shows⟩ := asks.shows sound.linked answered
    exact ⟨views, shows⟩
  · rintro ⟨views, shows⟩
    exact (asks.lists_conversations sound connected shows).1

/-- What a user who asks for all conversations is answered with in two stores: either both answers
are lists, and these are related, or neither is one. -/
def RelatesInboxes (server : Server) (caller : Uuid) (s s' : Store)
    (related : List ConversationView → List ConversationView → Prop) : Prop :=
  ∀ job ctx r job' ctx' r', server.AsksInbox caller none job ctx r → ctx.connected = true →
    server.AsksInbox caller none job' ctx' r' → ctx'.connected = true →
      ((server.handle ctx r s).1.status = 200 ↔ (server.handle ctx' r' s').1.status = 200) ∧
        ((server.handle ctx r s).1.status = 200 → ∃ views views',
          (server.handle ctx r s).1.Lists ConversationView.toJson views ∧
            (server.handle ctx' r' s').1.Lists ConversationView.toJson views' ∧
              related views views')

theorem relatesInboxes_of_shows (sound : s.Sound) (sound' : s'.Sound)
    (loadable : Loadable s caller ↔ Loadable s' caller)
    (relates : ∀ views views', Shows s caller views → Shows s' caller views' →
      related views views') : server.RelatesInboxes caller s s' related := by
  intro job ctx r job' ctx' r' asks connected asks' connected'
  have sameStatus : (server.handle ctx r s).1.status = 200 ↔
      (server.handle ctx' r' s').1.status = 200 := by
    rw [asks.answered_iff sound connected, asks'.answered_iff sound' connected', loadable]
  refine ⟨sameStatus, fun answered => ?_⟩
  obtain ⟨views, lists, shows⟩ := asks.shows sound.linked answered
  obtain ⟨views', lists', shows'⟩ := asks'.shows sound'.linked (sameStatus.mp answered)
  exact ⟨views, views', lists, lists', relates views views' shows shows'⟩

/-! ## Threads -/

theorem AsksInbox.shows_loaded (sound : s.Sound)
    (asks : server.AsksInbox caller (some other) job ctx r)
    (answered : (server.handle ctx r s).1.status = 200) :
    ∃ thread, (server.handle ctx r s).1.Lists MessageView.toJson thread ∧
      ShowsThread s caller other job thread := by
  obtain ⟨thread, lists, loaded⟩ := asks.loads_thread answered
  exact ⟨thread, lists, (Messaging.loadThread_iff sound).mp loaded⟩

def RelatesThreads (server : Server) (caller other : Uuid) (job : Option Uuid) (s s' : Store)
    (related : List MessageView → List MessageView → Prop) : Prop :=
  ∀ ctx r ctx' r', server.AsksInbox caller (some other) job ctx r → ctx.connected = true →
    server.AsksInbox caller (some other) job ctx' r' → ctx'.connected = true →
      ((server.handle ctx r s).1.status = 200 ↔ (server.handle ctx' r' s').1.status = 200) ∧
        ((server.handle ctx r s).1.status = 200 → ∃ thread thread',
          (server.handle ctx r s).1.Lists MessageView.toJson thread ∧
            (server.handle ctx' r' s').1.Lists MessageView.toJson thread' ∧
              related thread thread')

theorem relatesThreads_of_shows {follows : List MessageView → List MessageView → Prop}
    (sound : s.Sound) (sound' : s'.Sound)
    (later : ∀ thread, ShowsThread s caller other job thread →
      ∃ thread', ShowsThread s' caller other job thread' ∧ follows thread thread')
    (earlier : ∀ thread', ShowsThread s' caller other job thread' →
      ∃ thread, ShowsThread s caller other job thread) :
    server.RelatesThreads caller other job s s' follows := by
  intro ctx r ctx' r' asks connected asks' connected'
  have lists : ∀ {thread'}, ShowsThread s' caller other job thread' →
      (server.handle ctx' r' s').1.Lists MessageView.toJson thread' :=
    fun shows' => asks'.lists_thread connected' ((Messaging.loadThread_iff sound').mpr shows')
  refine ⟨⟨?_, ?_⟩, ?_⟩
  · intro answered
    obtain ⟨thread, _, shows⟩ := asks.shows_loaded sound answered
    obtain ⟨thread', shows', _⟩ := later thread shows
    exact (lists shows').1
  · intro answered
    obtain ⟨thread', _, shows'⟩ := asks'.shows_loaded sound' answered
    obtain ⟨thread, shows⟩ := earlier thread' shows'
    exact (asks.lists_thread connected ((Messaging.loadThread_iff sound).mpr shows)).1
  · intro answered
    obtain ⟨thread, listed, shows⟩ := asks.shows_loaded sound answered
    obtain ⟨thread', shows', related⟩ := later thread shows
    exact ⟨thread, thread', listed, lists shows', related⟩

end Server

end GigBoard
