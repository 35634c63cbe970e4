import GigBoard.Proofs.Entries
import GigBoard.Proofs.ReadBack
import GigBoard.Proofs.Requests
import GigBoard.Proofs.Searching

/-!
# Sending a message

A message is stored if its text is more than blanks and can be stored and if all that it names is
there.  It comes last in the thread of its two users and to the front of their inboxes, where nothing
else changes; its text is the same wherever it is shown, up to the text of the response.
-/

set_option autoImplicit false

namespace GigBoard

open Http (Request Response)
open Messaging (ConversationKey ConversationView Loadable Message MessageForm MessageView Shows
  ShowsThread)

variable {ctx : Context} {r : Request} {s s' : Store} {caller receiver : Uuid} {job : Option Uuid}
  {content : String}

def Store.withMessage (s : Store) (m : Message) : Store :=
  { s with messages := s.messages ++ [m] }

namespace Messaging

variable {m : Message}

/-! ## What is stored -/

/-- A text that can be sent is more than blanks and can be stored. -/
structure Sayable (content : String) : Prop where
  notBlank : ∃ c ∈ content.toList, Text.isBlank c = false
  storable : Text.NoNul content

/-- The users and the job that a message names are there. -/
structure Addressed (s : Store) (m : Message) : Prop where
  sender : ∃ u ∈ s.users, u.id = m.senderId
  receiver : ∃ u ∈ s.users, u.id = m.receiverId
  job : ∀ j ∈ m.jobId, ∃ k ∈ s.jobs, k.id = j

theorem addressed_iff : Addressed s m ↔
    (s.hasUser m.senderId && s.hasUser m.receiverId && m.jobId.all s.hasJob) = true := by
  rw [Bool.and_eq_true, Bool.and_eq_true, s.hasUser_iff, s.hasUser_iff, Option.all_eq_true]
  simp only [s.hasJob_iff]
  exact ⟨fun a => ⟨⟨a.sender, a.receiver⟩, a.job⟩, fun ⟨⟨a, b⟩, c⟩ => ⟨a, b, c⟩⟩

theorem any_id_of_fresh (fresh : ∀ n ∈ s.messages, n.id ≠ m.id) :
    s.messages.any (fun n => n.id = m.id) = false := by
  rw [List.any_eq_false]
  intro n hn
  simpa using fresh n hn

theorem addMessage_of_addressed (fits : m.fits = true) (fresh : ∀ n ∈ s.messages, n.id ≠ m.id)
    (addressed : Addressed s m) : Store.addMessage m s = .ok ((), s.withMessage m) := by
  rw [Store.addMessage, fits, any_id_of_fresh fresh, addressed_iff.mp addressed]
  rfl

theorem addMessage_of_unaddressed (fits : m.fits = true) (fresh : ∀ n ∈ s.messages, n.id ≠ m.id)
    (unaddressed : ¬Addressed s m) : Store.addMessage m s = .error .missingReference := by
  rw [addressed_iff, Bool.not_eq_true] at unaddressed
  rw [Store.addMessage, fits, any_id_of_fresh fresh, unaddressed]
  rfl

def sent (ctx : Context) (caller receiver : Uuid) (job : Option Uuid) (content : String) : Message :=
  ⟨ctx.freshId 0, caller, receiver, job, content, false, ctx.now⟩

def loadSent (id : Uuid) : Action MessageView := do
  let stored ← Action.expect (.store .noRow) (← Action.query (Store.message? id))
  let users ← Action.query (Store.usersWithIds [stored.senderId, stored.receiverId])
  Action.ofExcept (MessageView.withBoth users stored)

/-- The message and its users can be read. -/
structure Showable (s : Store) (m : Message) : Prop where
  message : m.isReadable = true
  users : ∀ u ∈ s.users, u.id = m.senderId ∨ u.id = m.receiverId → u.isReadable = true

theorem loadSent_ensures (found : s.messages.find? (fun n => n.id = m.id) = some m) :
    (loadSent m.id).Ensures ctx s fun v _ =>
      Showable s m ∧ v.row = m ∧ v.ShowsSender s ∧ v.ShowsReceiver s := by
  refine .query fun row read => .expect fun stored isStored => .query fun users areUsers => ?_
  refine .ofExcept_last fun v made => ?_
  have readable := Store.readRow_readable read
  have isRow := Store.readRow_ok read
  rw [found, isStored] at isRow
  cases isRow
  refine ⟨⟨readable m isStored, ?_⟩, withBoth_ok (Store.mem_of_usersWithIds areUsers) made⟩
  intro u hu isOne
  apply Store.readRows_readable areUsers u
  exact List.mem_filter.mpr ⟨hu, by simpa using isOne⟩

theorem loadSent_of_showable (linked : s.Linked) (stored : m ∈ s.messages)
    (found : s.messages.find? (fun n => n.id = m.id) = some m) (showable : Showable s m) :
    ∃ v, loadSent m.id ctx s = (.ok v, s) := by
  have read : Store.message? m.id s = .ok (some m) := by
    rw [Store.message?, found, Store.readRow, Option.all_some, showable.message]
    rfl
  have loaded : Store.usersWithIds [m.senderId, m.receiverId] s =
      .ok (s.users.filter fun u => [m.senderId, m.receiverId].contains u.id) := by
    apply Store.readRows_of_all
    intro u hu
    obtain ⟨hu, isOne⟩ := List.mem_filter.mp hu
    exact showable.users u hu (by simpa using isOne)
  obtain ⟨a, foundA⟩ := summaryAmong_loaded (linked.messageSender m stored)
    (show m.senderId ∈ [m.senderId, m.receiverId] from List.mem_cons_self)
  obtain ⟨b, foundB⟩ := summaryAmong_loaded (linked.messageReceiver m stored)
    (show m.receiverId ∈ [m.senderId, m.receiverId] from
      List.mem_cons_of_mem _ List.mem_cons_self)
  have expected : Action.expect (.store .noRow) (some m) ctx s = (.ok m, s) := rfl
  rw [loadSent, Action.bind_of_ok (Action.query_of_ok read), Action.bind_of_ok expected,
    Action.bind_of_ok (Action.query_of_ok loaded), MessageView.withBoth, MessageView.withSender,
    foundA, foundB]
  exact ⟨_, rfl⟩

theorem loadSent_readOnly (id : Uuid) : (loadSent id).ReadOnly := by
  refine .bind (.query _) fun _ => .bind (.expect _ _) fun _ => ?_
  exact .bind (.query _) fun _ => .ofExcept _

/-! ## What sending does -/

theorem send_of_blank (blank : ¬∃ c ∈ content.toList, Text.isBlank c = false) :
    send caller ⟨some receiver, job, some content⟩ ctx s =
      (.error .receiverAndContentRequired, s) := by
  rw [← Text.isSome_nonBlank?_iff] at blank
  have refused : MessageForm.parts ⟨some receiver, job, some content⟩ =
      .error .receiverAndContentRequired := if_neg blank
  rw [send, refused]
  rfl

theorem send_steps (notBlank : ∃ c ∈ content.toList, Text.isBlank c = false)
    (connected : ctx.connected = true) :
    send caller ⟨some receiver, job, some content⟩ ctx s =
      (Action.change (Store.addMessage (sent ctx caller receiver job content))
        ((Failure.missing "receiver or job").onMissingReference) >>= fun _ =>
          loadSent (ctx.freshId 0)) ctx s := by
  rw [← Text.isSome_nonBlank?_iff] at notBlank
  have parts : MessageForm.parts ⟨some receiver, job, some content⟩ = .ok (receiver, content) :=
    if_pos notBlank
  have connects := Action.connect_of_connected (s := s) connected
  rw [send, parts]
  exact Action.bind_of_ok connects

/-- Sending fails and leaves the store alone, unless the text can be sent and all that the message
names is there. -/
theorem send_of_unsound (connected : ctx.connected = true)
    (fresh : ∀ n ∈ s.messages, n.id ≠ ctx.freshId 0)
    (unsound : ¬(Sayable content ∧ Addressed s (sent ctx caller receiver job content))) :
    ∃ f, send caller ⟨some receiver, job, some content⟩ ctx s = (.error f, s) ∧
      (Sayable content → f = .missing "receiver or job") := by
  -- A blank text is refused before the store is asked, a text with a null and a message that names
  -- what is missing are refused by the store.
  by_cases notBlank : ∃ c ∈ content.toList, Text.isBlank c = false
  · rw [send_steps notBlank connected]
    by_cases storable : (sent ctx caller receiver job content).fits = true
    · have sayable : Sayable content := ⟨notBlank, (Text.isStorable_iff _).mp storable⟩
      have unaddressed : ¬Addressed s (sent ctx caller receiver job content) :=
        fun addressed => unsound ⟨sayable, addressed⟩
      exact ⟨_, Action.bind_of_error
        (Action.change_of_error (addMessage_of_unaddressed storable fresh unaddressed)), fun _ => rfl⟩
    · have unsayable : ¬Sayable content :=
        fun sayable => storable ((Text.isStorable_iff _).mpr sayable.storable)
      refine ⟨.store .rejected, Action.bind_of_error ?_, fun sayable => absurd sayable unsayable⟩
      rw [Action.change, Store.addMessage, (Bool.not_eq_true _).mp storable]
      rfl
  · have unsayable : ¬Sayable content := fun sayable => notBlank sayable.notBlank
    exact ⟨_, send_of_blank notBlank, fun sayable => absurd sayable unsayable⟩

theorem send_of_addressed (connected : ctx.connected = true)
    (fresh : ∀ n ∈ s.messages, n.id ≠ ctx.freshId 0) (sayable : Sayable content)
    (addressed : Addressed s (sent ctx caller receiver job content)) :
    send caller ⟨some receiver, job, some content⟩ ctx s =
      loadSent (ctx.freshId 0) ctx (s.withMessage (sent ctx caller receiver job content)) := by
  rw [send_steps sayable.notBlank connected]
  apply Action.bind_of_ok
  exact Action.change_of_ok
    (addMessage_of_addressed ((Text.isStorable_iff _).mpr sayable.storable) fresh addressed)

theorem withMessage_sound (sound : s.Sound) (fresh : ∀ n ∈ s.messages, n.id ≠ m.id)
    (sayable : Sayable m.content) (addressed : Addressed s m) : (s.withMessage m).Sound :=
  Store.addMessage_sound sound
    (addMessage_of_addressed ((Text.isStorable_iff _).mpr sayable.storable) fresh addressed)

/-- A message that was stored is shown if it and its users can be read. -/
theorem loadSent_iff (sound : (s.withMessage m).Sound) (fresh : ∀ n ∈ s.messages, n.id ≠ m.id) :
    (∃ v, loadSent m.id ctx (s.withMessage m) = (.ok v, s.withMessage m)) ↔ Showable s m := by
  have found := Rows.find?_append_one Message.id fresh
  constructor
  · rintro ⟨v, loaded⟩
    obtain ⟨⟨message, users⟩, _⟩ := loadSent_ensures found v _ loaded
    exact ⟨message, users⟩
  · intro showable
    exact loadSent_of_showable sound.linked (List.mem_append_right _ List.mem_cons_self) found
      ⟨showable.message, showable.users⟩

/-! ## Inboxes after sending -/

section Inboxes

variable {user other : Uuid} {v : MessageView} {views views' : List ConversationView}

/-- How the conversations of a user are shown after a message: its conversation comes first and ends
with it, the others are as they were. -/
structure Arrived (user : Uuid) (v : MessageView) (before : List ConversationView)
    (first : ConversationView) (after : List ConversationView) : Prop where
  views : after = first :: before.filter fun w => ¬w.Holds user v.row
  holds : first.Holds user v.row
  last : first.lastMessage = v
  unread : first.unreadCount =
    ((before.find? fun w => w.Holds user v.row).map (·.unreadCount)).getD 0 +
      if v.receiverId = user then 1 else 0

/-- What was unread in the conversation of a message, if there was one. -/
theorem Shows.unread_of_key (shows : Shows s user views) (m : Message) :
    ((views.find? fun w => w.Holds user m).map (·.unreadCount)).getD 0 =
      (historyOf s user).countP fun n =>
        ConversationKey.ofMessage user m = .ofMessage user n && n.isUnreadBy user := by
  have groups := group_groups user (historyOf s user)
  cases found : views.find? fun w => w.Holds user m with
  | some w =>
      have holds : w.Holds user m := by simpa using List.find?_some found
      have key := (w.holds_iff m).mp holds
      have own := shows.row_mem (List.mem_of_find?_eq_some found)
      rw [Option.map_some, Option.getD_some, ← key]
      exact groups.unread w.row own
  | none =>
      -- A message of this conversation would have it shown.
      rw [Option.map_none, Option.getD_none, eq_comm, List.countP_eq_zero]
      intro n hn both
      obtain ⟨c, hc, key⟩ := groups.found n hn
      rw [← shows.rows] at hc
      obtain ⟨w, hw, rfl⟩ := List.mem_map.mp hc
      have same := of_decide_eq_true (Bool.and_eq_true_iff.mp both).1
      have absent := List.find?_eq_none.mp found w hw
      exact absent (decide_eq_true ((w.holds_iff m).mpr (key.trans same.symm)))

theorem Shows.arrived (sound : s.Sound) (sound' : (s.withMessage m).Sound)
    (later : ∀ n ∈ s.messages, n.createdAt < m.createdAt) (unread : m.read = false)
    (own : Store.involves user m = true) (row : v.row = m)
    (sender : v.ShowsSender (s.withMessage m)) (receiver : v.ShowsReceiver (s.withMessage m))
    (shows : Shows s user views) (shows' : Shows (s.withMessage m) user views') :
    ∃ first, Arrived user v views first views' := by
  subst row
  -- The history has the message in front of the old one, so the groups are the old ones with that
  -- of the message taken out and put first.
  have history := historyOf_append sound.keyed sound'.keyed later rfl own
  have sorted := historyOf_sorted sound'.keyed user
  rw [history] at sorted
  have groups := (group_groups user (historyOf s user)).cons v.row
  have rows := shows'.rows
  rw [history, (group_groups user _).unique groups sorted, ← shows.rows] at rows
  obtain ⟨first, rest, rfl, isFirst, isRest⟩ := List.map_eq_cons_iff.mp rows
  obtain ⟨shown, shownRest⟩ := List.forall_mem_cons.mp shows'.shown
  refine ⟨first, ?_, ?_, ?_, ?_⟩
  · congr 1
    apply ConversationView.eq_of_rows sound'.keyed shownRest
    · intro w hw
      have shownW := shows.shown w (List.mem_filter.mp hw).1
      exact shownW.mono (List.Subset.refl _) shownW.job
    · rw [isRest, List.filter_map]
      congr 1
      apply List.filter_congr
      intro w _
      exact decide_eq_decide.mpr (not_congr (w.holds_iff v.row).symm)
  · rw [first.holds_iff, isFirst]
  · exact MessageView.eq_of_shown sound'.keyed (congrArg Conversation.last isFirst) shown.sender
      sender shown.receiver receiver
  · have isUnread : v.row.isUnreadBy user = decide (v.receiverId = user) := by
      rw [Message.isUnreadBy, unread, Bool.not_false, Bool.and_true]
      rfl
    have counted := congrArg Conversation.unread isFirst
    rw [List.countP_cons, ← shows.unread_of_key, isUnread, decide_eq_true rfl, Bool.true_and]
      at counted
    simp only [decide_eq_true_eq] at counted
    exact counted

theorem Shows.unreadCount_le (shows : Shows s user views) {w : ConversationView} (hw : w ∈ views) :
    w.unreadCount ≤ s.messages.length := by
  have groups := group_groups user (historyOf s user)
  calc w.unreadCount
      = (historyOf s user).countP fun n => w.row.key = .ofMessage user n && n.isUnreadBy user :=
        groups.unread w.row (shows.row_mem hw)
    _ ≤ (historyOf s user).length := List.countP_le_length
    _ = (s.messages.filter (Store.involves user)).length := List.length_mergeSort _
    _ ≤ s.messages.length := List.length_filter_le _ _

theorem loadable_withMessage (showable : Showable s m) (own : Store.involves user m = true) :
    Loadable s user ↔ Loadable (s.withMessage m) user := by
  constructor
  · intro loadable
    refine ⟨?_, loadable.self, ?_⟩
    · exact Rows.forall_mem_append_one loadable.messages fun _ => showable.message
    · refine Rows.forall_mem_append_one loadable.others fun _ u hu isOther => ?_
      apply showable.users u hu
      rcases users_of_involves own with ⟨_, isReceiver⟩ | ⟨isSender, _⟩
      · exact .inr (isOther.trans isReceiver.symm)
      · exact .inl (isOther.trans isSender.symm)
  · intro loadable
    refine ⟨?_, loadable.self, ?_⟩
    · exact fun n hn => loadable.messages n (List.mem_append_left _ hn)
    · exact fun n hn => loadable.others n (List.mem_append_left _ hn)

theorem threadOf_withMessage (sound : s.Sound) (sound' : (s.withMessage m).Sound)
    (later : ∀ n ∈ s.messages, n.createdAt < m.createdAt)
    (between : Store.isBetween user other m = true) (about : ∀ j ∈ job, m.jobId = some j) :
    threadOf (s.withMessage m) user other job = threadOf s user other job ++ [m] := by
  have own := involves_of_isBetween between
  have passes : (Store.isBetween user other m && job.all fun j => m.jobId = some j) = true := by
    rw [between, Bool.true_and, Option.all_eq_true]
    exact fun j hj => decide_eq_true (about j hj)
  rw [threadOf_eq sound'.keyed, threadOf_eq sound.keyed,
    historyOf_append sound.keyed sound'.keyed later rfl own, List.filter_cons, if_pos passes,
    List.reverse_cons]

theorem ShowsThread.arrived {thread : List MessageView}
    (rows : threadOf (s.withMessage m) user other job = threadOf s user other job ++ [m])
    (readable : m.isReadable = true) (row : v.row = m) (sender : v.ShowsSender (s.withMessage m))
    (shows : ShowsThread s user other job thread) :
    ShowsThread (s.withMessage m) user other job (thread ++ [{ v with receiver := none }]) where
  rows := by
    rw [rows, List.map_append, shows.rows, ← row]
    rfl
  shown := Rows.forall_mem_append_one shows.shown ⟨rfl, sender⟩
  messages := by
    rw [rows]
    exact Rows.forall_mem_append_one shows.messages readable
  users := shows.users

theorem ShowsThread.earlier {thread : List MessageView}
    (rows : threadOf (s.withMessage m) user other job = threadOf s user other job ++ [m])
    (shows : ShowsThread (s.withMessage m) user other job thread) :
    ∃ thread', ShowsThread s user other job thread' := by
  have isThread := shows.rows
  have messages := shows.messages
  rw [rows] at isThread messages
  obtain ⟨thread', last, rfl, isRest, _⟩ := List.map_eq_append_iff.mp isThread
  exact ⟨thread', isRest, fun w hw => shows.shown w (List.mem_append_left _ hw),
    fun n hn => messages n (List.mem_append_left _ hn), shows.users⟩

end Inboxes

end Messaging

/-! ## Reading what is answered -/

def Http.Response.read? (response : Response) : Option Json :=
  response.body.bind fun body => Json.ofText? body.text

def Json.content? (j : Json) : Option String :=
  match j.member? "content" with
  | some (.string content) => some content
  | _ => none

section Reading

open Json (Plain)

variable {depth : Nat}

theorem Json.orNull_plain (given : Option String) : Plain depth (Json.orNull given) := by
  cases given with
  | none => exact .null
  | some s => exact .string s

theorem Json.ifPresent_plain {name : String} {value : Option Json}
    (plain : ∀ j, value = some j → Plain depth j) :
    ∀ m ∈ Json.ifPresent name value, Plain depth m.2 := by
  intro m hm
  cases value with
  | none => cases hm
  | some j =>
      rw [List.mem_singleton.mp hm]
      exact plain j rfl

theorem Account.UserSummary.plain (u : Account.UserSummary) : Plain (depth + 1) u.toJson := by
  refine .object (List.forall_mem_append.mpr ⟨?_, ?_⟩)
  · simp only [List.forall_mem_cons]
    exact ⟨.string _, .string _, Json.orNull_plain _, fun _ none => nomatch none⟩
  · refine Json.ifPresent_plain fun j isBio => ?_
    obtain ⟨bio, _, rfl⟩ := Option.map_eq_some_iff.mp isBio
    exact .string bio

theorem Messaging.MessageView.plain (v : MessageView) : Plain (depth + 2) v.toJson := by
  refine .object (List.forall_mem_append.mpr ⟨?_, ?_⟩)
  · simp only [List.forall_mem_cons]
    exact ⟨.string _, .string _, .string _, Json.orNull_plain _, .string _, .bool _, .string _,
      v.sender.plain, fun _ none => nomatch none⟩
  · refine Json.ifPresent_plain fun j isReceiver => ?_
    obtain ⟨receiver, _, rfl⟩ := Option.map_eq_some_iff.mp isReceiver
    exact receiver.plain

theorem Messaging.ConversationView.plain (v : ConversationView) (fits : v.unreadCount < 2 ^ 64) :
    Plain (depth + 3) v.toJson := by
  refine .object ?_
  simp only [List.forall_mem_cons]
  refine ⟨.string _, v.otherUser.plain, ?_, v.lastMessage.plain, .natural fits,
    fun _ none => nomatch none⟩
  cases v.job with
  | none => exact .null
  | some reference =>
      refine .object ?_
      simp only [List.forall_mem_cons]
      exact ⟨.string _, .string _, fun _ none => nomatch none⟩

/-- The content of a message is read back from its text. -/
theorem Messaging.MessageView.content_reread (v : MessageView) :
    v.toJson.reread.content? = some v.content := by
  have names : Rows.Unique Prod.fst
      ([("id", Json.string v.id.text), ("senderId", .string v.senderId.text),
        ("receiverId", .string v.receiverId.text), ("jobId", Json.orNull (v.jobId.map (·.text))),
        ("content", .string v.content), ("read", .bool v.read),
        ("createdAt", .string v.createdAt.text), ("sender", v.sender.toJson)] ++
        Json.ifPresent "receiver" (v.receiver.map (·.toJson))) := by
    cases v.receiver <;> simp [Rows.Unique, Json.ifPresent]
  have found : v.toJson.reread.member? "content" = some (Json.string v.content).reread :=
    Json.member?_reread names (by simp)
  rw [Json.content?, found]
  rfl

theorem Messaging.ConversationView.lastMessage_reread (v : ConversationView) :
    v.toJson.reread.member? "lastMessage" = some v.lastMessage.toJson.reread := by
  refine Json.member?_reread ?_ (by simp)
  simp [Rows.Unique]

variable {response : Response} {α : Type} {item : α → Json}

theorem Http.Response.read_of_body {j : Json} (body : response.body = some j)
    (plain : Plain 2 j) : response.read? = some j.reread := by
  rw [read?, body, Option.bind_some, Json.ofText?_text (plain.mono (by decide))]

/-- A list is read back as the list of what its items are read back as. -/
theorem Http.Response.Lists.read {values : List α} (lists : response.Lists item values)
    (plain : ∀ value ∈ values, Plain 3 (item value)) :
    response.read? = some (.array (values.map fun value => (item value).reread)) := by
  have whole : Plain 4 (.array (values.map item)) := by
    refine .array fun e he => ?_
    obtain ⟨value, hv, rfl⟩ := List.mem_map.mp he
    exact plain value hv
  rw [read?, lists.2, Option.bind_some, Json.ofText?_text (whole.mono (by decide)), Json.reread,
    Json.rereadElements_eq, List.map_map]
  rfl

end Reading

namespace Server

open Messaging (Addressed Arrived Sayable Showable)

variable {server : Server} {form : MessageForm} {v : MessageView} {m : Message}

/-! ## Requests -/

theorem SendsForm.handled_ok (sends : server.SendsForm caller form ctx r)
    (sent : Messaging.send caller form ctx s = (.ok v, s')) :
    (server.handle ctx r s).1.status = 201 ∧ (server.handle ctx r s).1.body = some v.toJson ∧
      (server.handle ctx r s).2 = s' := by
  have asked := asked?_sendMessage_iff.mpr sends
  have performed : (Call.sendMessage caller form).perform ctx s = (.ok (.created v.toJson), s') :=
    Action.bind_of_ok sent
  have notHead : r.method ≠ .head := by
    rw [sends.method]
    decide
  obtain ⟨store, status⟩ := handle_of_asked (s := s) asked
  rw [status, store, body_of_asked_of_not_head notHead asked, perform, performed]
  exact ⟨rfl, rfl, rfl⟩

theorem SendsForm.handled_error (sends : server.SendsForm caller form ctx r) {f : Failure}
    (failed : Messaging.send caller form ctx s = (.error f, s')) :
    (server.handle ctx r s).1.status = f.problem.status ∧ (server.handle ctx r s).2 = s' := by
  have performed : (Call.sendMessage caller form).perform ctx s = (.error f, s') :=
    Action.bind_of_error failed
  obtain ⟨store, status⟩ := handle_of_asked (s := s) (asked?_sendMessage_iff.mpr sends)
  rw [status, store, perform, performed]
  exact ⟨rfl, rfl⟩

/-- A message whose body cannot be read is refused and leaves the store alone. -/
theorem handle_of_unread_form {f : Failure} (method : r.method = .post)
    (path : Http.Resource.ofPath? r.path = some .messages)
    (known : server.caller? ctx.now r = some caller)
    (unread : r.decodeBody MessageForm.decoder = .error f) :
    (server.handle ctx r s).1.status = f.problem.status ∧ (server.handle ctx r s).2 = s := by
  obtain ⟨who, isWho, _⟩ := identify_of_caller? known
  have refused : server.callFor? ctx.now r .messages = some (.error f) := by
    rw [callFor?, method, isWho]
    simp only [Http.Resource.Verb.ofMethod?, Option.bind_some, Http.Resource.callFor?, unread]
    rfl
  have served : server.serve ctx r s = (.ofFailure f, s) := by
    rw [serve, path]
    simp only [refused]
  rw [handle, if_neg (by rw [method]; decide), served]
  exact ⟨rfl, rfl⟩

/-- What a message that was sent makes of the store and of what its users are answered with. -/
structure MessageSent (server : Server) (v : MessageView) (ctx : Context) (r : Request)
    (s : Store) : Prop where
  store : (server.handle ctx r s).2 = { s with messages := s.messages ++ [v.row] }
  answer : (server.handle ctx r s).1.body = some v.toJson ∧
    (server.handle ctx r s).1.read?.bind Json.content? = some v.content
  conversations : ∀ user, Store.involves user v.row = true →
    server.RelatesInboxes user s (server.handle ctx r s).2 fun before after =>
      ∃ first, Arrived user v before first after
  threads : ∀ user other, Store.isBetween user other v.row = true →
    ∀ job, (∀ j ∈ job, v.jobId = some j) →
      server.RelatesThreads user other job s (server.handle ctx r s).2 fun before after =>
        after = before ++ [{ v with receiver := none }]
  inThreads : ∀ user other, Store.isBetween user other v.row = true →
    ∀ job, (∀ j ∈ job, v.jobId = some j) → ∀ ctx' r',
      server.AsksInbox user (some other) job ctx' r' →
        (server.handle ctx' r' (server.handle ctx r s).2).1.status = 200 → ∃ thread,
          (server.handle ctx' r' (server.handle ctx r s).2).1.read? = some (.array thread) ∧
            thread.getLast?.bind Json.content? = some v.content
  inConversations : (server.handle ctx r s).2.messages.length < 2 ^ 64 →
    ∀ user, Store.involves user v.row = true → ∀ job ctx' r',
      server.AsksInbox user none job ctx' r' →
        (server.handle ctx' r' (server.handle ctx r s).2).1.status = 200 → ∃ views,
          (server.handle ctx' r' (server.handle ctx r s).2).1.read? = some (.array views) ∧
            (views.head?.bind (·.member? "lastMessage")).bind Json.content? = some v.content

theorem SendsForm.sent (sound : s.Sound) (sends : server.SendsForm caller form ctx r)
    (sound' : (s.withMessage v.row).Sound)
    (later : ∀ n ∈ s.messages, n.createdAt < v.createdAt) (unread : v.read = false)
    (showable : Showable s v.row) (sender : v.ShowsSender (s.withMessage v.row))
    (receiver : v.ShowsReceiver (s.withMessage v.row))
    (sent : Messaging.send caller form ctx s = (.ok v, s.withMessage v.row)) :
    server.MessageSent v ctx r s := by
  obtain ⟨_, body, store⟩ := sends.handled_ok sent
  constructor
  · exact store
  · refine ⟨body, ?_⟩
    rw [Response.read_of_body body v.plain, Option.bind_some, v.content_reread]
  · intro user own
    rw [store]
    exact relatesInboxes_of_shows sound sound' (Messaging.loadable_withMessage showable own)
      fun before after shows shows' =>
        shows.arrived sound sound' later unread own rfl sender receiver shows'
  · intro user other between job about
    have rows := Messaging.threadOf_withMessage sound sound' later between about
    rw [store]
    exact relatesThreads_of_shows sound sound'
      (fun thread shows => ⟨_, shows.arrived rows showable.message rfl sender, rfl⟩)
      fun thread shows => shows.earlier rows
  · intro user other between job about ctx' r' asks answered
    have rows := Messaging.threadOf_withMessage sound sound' later between about
    rw [store] at answered ⊢
    obtain ⟨thread, lists, shows⟩ := asks.shows_loaded sound' answered
    have isThread := shows.rows
    rw [rows] at isThread
    obtain ⟨earlier, last, rfl, _, isLast⟩ := List.map_eq_append_iff.mp isThread
    obtain ⟨w, rfl, isRow⟩ := List.map_eq_singleton_iff.mp isLast
    refine ⟨_, lists.read fun _ _ => MessageView.plain _, ?_⟩
    have sameContent : w.content = v.content := congrArg Message.content isRow
    rw [List.map_append, List.map_singleton, List.getLast?_concat, Option.bind_some,
      w.content_reread, sameContent]
  · intro few user own job ctx' r' asks answered
    rw [store] at few answered ⊢
    obtain ⟨views, lists, shows'⟩ := asks.shows sound'.linked answered
    have loadable := (Messaging.loadable_iff sound'.linked).mpr ⟨views, shows'⟩
    obtain ⟨before, shows⟩ := (Messaging.loadable_iff sound.linked).mp
      ((Messaging.loadable_withMessage showable own).mpr loadable)
    obtain ⟨first, arrived⟩ := shows.arrived sound sound' later unread own rfl sender receiver shows'
    have plain : ∀ w ∈ views, Json.Plain 3 w.toJson := fun w hw =>
      w.plain (Nat.lt_of_le_of_lt (shows'.unreadCount_le hw) few)
    refine ⟨_, lists.read plain, ?_⟩
    rw [arrived.views, List.map_cons, List.head?_cons, Option.bind_some,
      first.lastMessage_reread, Option.bind_some, arrived.last, v.content_reread]

/-- A message that can be sent is stored, and answered with if it can be shown. -/
theorem SendsForm.stored (sound : s.Sound)
    (sends : server.SendsForm caller ⟨some receiver, job, some content⟩ ctx r)
    (connected : ctx.connected = true) (later : ∀ n ∈ s.messages, n.createdAt < ctx.now)
    (fresh : ∀ n ∈ s.messages, n.id ≠ ctx.freshId 0)
    (made : m = Messaging.sent ctx caller receiver job content) (sayable : Sayable content)
    (addressed : Addressed s m) :
    (server.handle ctx r s).2 = s.withMessage m ∧
      ((server.handle ctx r s).1.status = 201 ↔ Showable s m) ∧
      ((server.handle ctx r s).1.status = 201 → ∃ v : MessageView, v.row = m ∧
        server.MessageSent v ctx r s) := by
  have isFresh : ∀ n ∈ s.messages, n.id ≠ m.id := by
    rw [made]
    exact fresh
  have sound' : (s.withMessage m).Sound := by
    refine Messaging.withMessage_sound sound isFresh ?_ addressed
    rw [made]
    exact sayable
  have loads : Messaging.send caller ⟨some receiver, job, some content⟩ ctx s =
      Messaging.loadSent m.id ctx (s.withMessage m) := by
    subst made
    exact Messaging.send_of_addressed connected fresh sayable addressed
  have shown : (∃ v, Messaging.loadSent m.id ctx (s.withMessage m) = (.ok v, s.withMessage m)) ↔
      Showable s m := Messaging.loadSent_iff sound' isFresh
  have unchanged := Messaging.loadSent_readOnly m.id ctx (s.withMessage m)
  rcases ended : Messaging.loadSent m.id ctx (s.withMessage m) with ⟨f | v, s'⟩
  · rw [ended] at loads unchanged shown
    obtain rfl : s' = s.withMessage m := unchanged
    obtain ⟨status, store⟩ := sends.handled_error loads
    have refused : (server.handle ctx r s).1.status ≠ 201 := by
      have := f.status_ge
      omega
    refine ⟨store, ⟨fun ok => absurd ok refused, fun showable => ?_⟩, fun ok => absurd ok refused⟩
    obtain ⟨v, impossible⟩ := shown.mpr showable
    cases impossible
  · rw [ended] at loads unchanged shown
    obtain rfl : s' = s.withMessage m := unchanged
    obtain ⟨status, _, store⟩ := sends.handled_ok loads
    have found := Rows.find?_append_one Message.id isFresh
    obtain ⟨_, row, sender, receiver⟩ := Messaging.loadSent_ensures found v _ ended
    have showable := shown.mp ⟨v, rfl⟩
    have isNow : v.createdAt = ctx.now := congrArg Message.createdAt (row.trans made)
    have unread : v.read = false := congrArg Message.read (row.trans made)
    refine ⟨store, ⟨fun _ => showable, fun _ => status⟩, fun _ => ⟨v, row, ?_⟩⟩
    subst row
    refine sends.sent sound sound' ?_ unread showable sender receiver loads
    rw [isNow]
    exact later

/-- In a store that satisfies its constraints, and at a time after all its messages, a message is stored
if it can be sent and all that it names is there; it is answered with 201 if the time and the rows of
its users can be read back besides.  Otherwise nothing changes. -/
theorem message_sending (server : Server) (s : Store) (holds : s.Constrained)
    (caller receiver : Uuid) (job : Option Uuid) (content : String) (ctx : Context) (r : Request)
    (sends : server.SendsForm caller ⟨some receiver, job, some content⟩ ctx r)
    (connected : ctx.connected = true) (later : ∀ n ∈ s.messages, n.createdAt < ctx.now)
    (fresh : ∀ n ∈ s.messages, n.id ≠ ctx.freshId 0) :
    ((server.handle ctx r s).1.status = 201 ↔
      Sayable content ∧ Addressed s (Messaging.sent ctx caller receiver job content) ∧
        Showable s (Messaging.sent ctx caller receiver job content)) ∧
    ((server.handle ctx r s).1.status = 201 → ∃ v : MessageView,
      v.row = Messaging.sent ctx caller receiver job content ∧ server.MessageSent v ctx r s) ∧
    (Sayable content ∧ Addressed s (Messaging.sent ctx caller receiver job content) →
      (server.handle ctx r s).2 = { s with
        messages := s.messages ++ [Messaging.sent ctx caller receiver job content] }) ∧
    (¬(Sayable content ∧ Addressed s (Messaging.sent ctx caller receiver job content)) →
      (server.handle ctx r s).2 = s) ∧
    (Sayable content → ¬Addressed s (Messaging.sent ctx caller receiver job content) →
      (server.handle ctx r s).1.status = 404) := by
  have sound := holds.sound
  by_cases sendable : Sayable content ∧ Addressed s (Messaging.sent ctx caller receiver job content)
  · obtain ⟨sayable, addressed⟩ := sendable
    obtain ⟨store, shown, sent⟩ := sends.stored sound connected later fresh rfl sayable addressed
    refine ⟨shown.trans ?_, sent, fun _ => store, fun isNot => absurd ⟨sayable, addressed⟩ isNot,
      fun _ isNot => absurd addressed isNot⟩
    exact ⟨fun showable => ⟨sayable, addressed, showable⟩, fun ⟨_, _, showable⟩ => showable⟩
  · obtain ⟨f, failed, missing⟩ := Messaging.send_of_unsound (s := s) connected fresh sendable
    obtain ⟨status, store⟩ := sends.handled_error failed
    have refused : (server.handle ctx r s).1.status ≠ 201 := by
      have := f.status_ge
      omega
    refine ⟨?_, fun ok => absurd ok refused, fun is => absurd is sendable, fun _ => store, ?_⟩
    · exact ⟨fun ok => absurd ok refused, fun ⟨sayable, addressed, _⟩ =>
        absurd ⟨sayable, addressed⟩ sendable⟩
    · intro sayable _
      rw [status, missing sayable]
      rfl

def bobsGreeting : Message := ⟨.ofNat 6, bob.id, ann.id, none, "Hello", false, ⟨-1000000⟩⟩

def quietStore : Store :=
  { Store.empty with
    users := [ann, bob]
    messages := [bobsGreeting] }

theorem quietStore_sound : quietStore.Sound :=
  Store.addMessage_sound (m := bobsGreeting) annAndBob_sound rfl

def annAnswer : Request where
  method := .post
  target := "/api/messages"
  headers := ("content-type", "application/json") :: removal.headers
  body := Text.Utf8.ofString
    "\x7b\"receiverId\":\"00000000-0000-0000-0000-000000000002\",\"content\":\" Hi! \"\x7d"

theorem annAnswer_read : (MessageForm.decoder.leading annAnswer.body).toOption =
    some ⟨some bob.id, none, some " Hi! "⟩ := by
  decide +kernel

theorem decodeBody_of_leading {α : Type} {r : Request} {decoder : Json.Decoder α} {a : α}
    (media : ((r.headers.first? "content-type").map Http.MediaType.isJson).getD false = true)
    (small : r.body.length ≤ Http.greatestBody) (read : (decoder.leading r.body).toOption = some a) :
    r.decodeBody decoder = .ok a := by
  rw [Request.decodeBody, media, if_neg (by decide), if_neg (Nat.not_lt.mpr small)]
  cases is : decoder.leading r.body with
  | error f =>
      rw [is] at read
      cases read
  | ok b =>
      rw [is] at read
      cases read
      rfl

theorem annAnswer_sends :
    plain.SendsForm ann.id ⟨some bob.id, none, some " Hi! "⟩ firstMoment annAnswer :=
  ⟨rfl, by decide +kernel, ann_known rfl,
    decodeBody_of_leading (by decide +kernel) (by decide +kernel) annAnswer_read⟩

theorem answer_sayable : Messaging.Sayable " Hi! " := ⟨⟨'H', by decide, by decide⟩, by decide⟩

theorem quietStore_addressed : Messaging.Addressed quietStore
    (Messaging.sent firstMoment ann.id bob.id none " Hi! ") :=
  ⟨⟨ann, by decide, rfl⟩, ⟨bob, by decide, rfl⟩, fun _ none => nomatch none⟩

theorem message_sending_site :
    quietStore.Constrained ∧
      plain.SendsForm ann.id ⟨some bob.id, none, some " Hi! "⟩ firstMoment annAnswer ∧
        firstMoment.connected = true ∧ (∀ n ∈ quietStore.messages, n.createdAt < firstMoment.now) ∧
          (∀ n ∈ quietStore.messages, n.id ≠ firstMoment.freshId 0) ∧
            (plain.handle firstMoment annAnswer quietStore).1.status = 201 ∧
              (plain.handle firstMoment annAnswer quietStore).2.messages.length = 2 := by
  have later : ∀ n ∈ quietStore.messages, n.createdAt < firstMoment.now := by decide
  have fresh : ∀ n ∈ quietStore.messages, n.id ≠ firstMoment.freshId 0 := by decide
  have holds := quietStore_sound.constrained
  have sending := message_sending plain quietStore holds ann.id bob.id none " Hi! " firstMoment
    annAnswer annAnswer_sends rfl later fresh
  have showable : Messaging.Showable quietStore
      (Messaging.sent firstMoment ann.id bob.id none " Hi! ") := ⟨by decide, by decide⟩
  refine ⟨holds, annAnswer_sends, rfl, later, fresh, ?_, ?_⟩
  · exact sending.1.mpr ⟨answer_sayable, quietStore_addressed, showable⟩
  · rw [sending.2.2.1 ⟨answer_sayable, quietStore_addressed⟩]
    rfl

theorem skipSpace_replicate (n : Nat) (bs : List UInt8) :
    Json.skipSpace (List.replicate n 32 ++ bs) = Json.skipSpace bs := by
  induction n with
  | zero => rfl
  | succ n ih => exact ih

/-- Blanks in front of a message do not matter. -/
theorem decoder_of_padded (n : Nat) (bs : List UInt8) :
    MessageForm.decoder (List.replicate n 32 ++ bs) = MessageForm.decoder bs := by
  rw [MessageForm.decoder, Json.Decoder.record, Json.Decoder.record, skipSpace_replicate]

def paddedAnswer (n : Nat) : Request :=
  { annAnswer with body := List.replicate n 32 ++ annAnswer.body }

theorem leading_of_padded (n : Nat) : MessageForm.decoder.leading (paddedAnswer n).body =
    MessageForm.decoder.leading annAnswer.body :=
  congrArg (Except.map Prod.fst) (decoder_of_padded n annAnswer.body)

theorem decodeBody_of_padded {n : Nat} (large : Http.greatestBody ≤ n) :
    (paddedAnswer n).decodeBody MessageForm.decoder = .error (.invalidBody .tooLarge) := by
  have some : 0 < annAnswer.body.length := by decide +kernel
  have tooLarge : Http.greatestBody < (paddedAnswer n).body.length := by
    change Http.greatestBody < (List.replicate n 32 ++ annAnswer.body).length
    rw [List.length_append, List.length_replicate]
    omega
  have media : (((paddedAnswer n).headers.first? "content-type").map
      Http.MediaType.isJson).getD false = true := by
    change ((annAnswer.headers.first? "content-type").map Http.MediaType.isJson).getD false = true
    decide +kernel
  rw [Request.decodeBody, media, if_neg (by decide), if_pos tooLarge]

def ancientAnn : Account.User := { ann with createdAt := .minusInfinity }

def ancientAccount : Store := { Store.empty with users := [ancientAnn] }

theorem ancientAccount_sound : ancientAccount.Sound := by
  have added : Store.addUser ancientAnn .empty = .ok ((), ancientAccount) := rfl
  exact Store.addUser_sound Store.empty_sound added

def ancientQuietStore : Store := { quietStore with users := [ancientAnn, bob] }

theorem ancientQuietStore_sound : ancientQuietStore.Sound := by
  have twoUsers : Store.addUser bob ancientAccount =
      .ok ((), { Store.empty with users := [ancientAnn, bob] }) := rfl
  have users := Store.addUser_sound ancientAccount_sound twoUsers
  exact Store.addMessage_sound (m := bobsGreeting) users rfl

theorem ancientQuietStore_addressed : Messaging.Addressed ancientQuietStore
    (Messaging.sent firstMoment ann.id bob.id none " Hi! ") :=
  ⟨⟨ancientAnn, by decide, rfl⟩, ⟨bob, by decide, rfl⟩, fun _ none => nomatch none⟩

/-- A message between users that are there is not always answered with 201: its request must not be too
large, and the rows of its users must be readable. -/
theorem answer_not_always_created :
    firstMoment.connected = true ∧ (∀ n ∈ quietStore.messages, n.createdAt < firstMoment.now) ∧
    (quietStore.Constrained ∧ (paddedAnswer Http.greatestBody).method = .post ∧
      Http.Resource.ofPath? (paddedAnswer Http.greatestBody).path = some .messages ∧
      plain.caller? firstMoment.now (paddedAnswer Http.greatestBody) = some ann.id ∧
      (MessageForm.decoder.leading (paddedAnswer Http.greatestBody).body).toOption =
        some ⟨some bob.id, none, some " Hi! "⟩ ∧
      Sayable " Hi! " ∧ Addressed quietStore (Messaging.sent firstMoment ann.id bob.id none " Hi! ") ∧
      (plain.handle firstMoment (paddedAnswer Http.greatestBody) quietStore).1.status = 400 ∧
      (plain.handle firstMoment (paddedAnswer Http.greatestBody) quietStore).2 = quietStore) ∧
    (ancientQuietStore.messages = quietStore.messages ∧ ancientQuietStore.Constrained ∧
      plain.SendsForm ann.id ⟨some bob.id, none, some " Hi! "⟩ firstMoment annAnswer ∧
      Addressed ancientQuietStore (Messaging.sent firstMoment ann.id bob.id none " Hi! ") ∧
      (plain.handle firstMoment annAnswer ancientQuietStore).1.status = 500 ∧
      (plain.handle firstMoment annAnswer ancientQuietStore).2.messages.length = 2) := by
  refine ⟨rfl, by decide, ?_, ?_⟩
  · have known : plain.caller? firstMoment.now (paddedAnswer Http.greatestBody) = some ann.id :=
      ann_known rfl
    have path : Http.Resource.ofPath? (paddedAnswer Http.greatestBody).path = some .messages := by
      change Http.Resource.ofPath? annAnswer.path = some .messages
      exact annAnswer_sends.path
    have refused := handle_of_unread_form (s := quietStore) rfl path known
      (decodeBody_of_padded (Nat.le_refl Http.greatestBody))
    refine ⟨quietStore_sound.constrained, rfl, path, known, ?_, answer_sayable,
      quietStore_addressed, refused⟩
    rw [leading_of_padded]
    exact annAnswer_read
  · obtain ⟨store, status⟩ := handle_of_asked (s := ancientQuietStore)
      (asked?_sendMessage_iff.mpr annAnswer_sends)
    refine ⟨rfl, ancientQuietStore_sound.constrained, annAnswer_sends,
      ancientQuietStore_addressed, ?_, ?_⟩
    · rw [status]
      decide +kernel
    · rw [store]
      decide +kernel

end Server

end GigBoard
