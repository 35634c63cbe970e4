import GigBoard.Proofs.Blindness
import GigBoard.Proofs.Unread

/-!
# Privacy of messages

What is asked of the service by one user, or by nobody known, is answered without a look at messages
between others.  Two stores that agree but for such messages give the same answers, request after
request, and go on to agree.
-/

set_option autoImplicit false

namespace GigBoard

open GigBoard.Action (Blind)
open Http (Request Response)
open Messaging (Message)
open Store (AlikeAfter involves)

variable {c : Uuid} {foreign : Uuid → Prop} {ctx : Context}

/-! ## Calls -/

namespace Account

theorem register_blind (form : Registration) : Blind c foreign ctx (register form) := by
  refine .context (.bind (.ofExcept _) fun u => .bind .connect fun _ => ?_)
  refine .bind (.change fun _ _ => .addUser u) fun _ => ?_
  exact .bind (.reading fun _ _ => rfl) fun _ => .bind (.expect _ _) fun _ => .done _

theorem showSelf_blind (caller : Uuid) : Blind c foreign ctx (showSelf caller) := by
  refine .bind .connect fun _ => .bind (.reading fun _ _ => rfl) fun _ => ?_
  exact .bind (.expect _ _) fun _ => .done _

theorem updateSelf_blind (caller : Uuid) (body : Json) :
    Blind c foreign ctx (updateSelf caller body) := by
  refine .bind .connect fun _ => .bind (.reading fun _ _ => rfl) fun _ => ?_
  refine .bind (.expect _ _) fun present => .bind (.ofExcept _) fun change => ?_
  split
  · exact .done _
  · refine .context (.bind (.change fun _ _ => .replaceUser _) fun _ => ?_)
    exact .bind (.reading fun _ _ => rfl) fun _ => .bind (.expect _ _) fun _ => .done _

theorem showProfile_blind (id : Uuid) : Blind c foreign ctx (showProfile id) := by
  refine .bind .connect fun _ => ?_
  refine .bind (.reading fun _ _ => rfl) fun _ => .bind (.expect _ _) fun _ => ?_
  refine .bind (.reading fun _ _ => rfl) fun _ => .bind (.reading fun _ _ => rfl) fun _ => ?_
  refine .bind (.reading fun _ _ => rfl) fun _ => .bind (.reading fun _ _ => rfl) fun _ => ?_
  refine .bind (.ofExcept _) fun _ => ?_
  refine .bind (.reading fun _ _ => rfl) fun _ => .bind (.reading fun _ _ => rfl) fun _ => ?_
  exact .done _

end Account

namespace Hiring

theorem findJob_blind (id : Uuid) : Blind c foreign ctx (findJob id) :=
  .bind (.reading fun _ _ => rfl) fun _ => .expect _ _

theorem viewJob_blind (j : Job) (users : List Uuid) : Blind c foreign ctx (viewJob j users) :=
  .bind (.reading fun _ _ => rfl) fun _ => .bind (.reading fun _ _ => rfl) fun _ => .done _

theorem searchJobs_blind (q : JobQuery) : Blind c foreign ctx (searchJobs q) := by
  refine .bind (.ofExcept _) fun _ => .bind .connect fun _ => ?_
  refine .bind (.reading fun _ _ => rfl) fun _ => .bind (.ofExcept _) fun _ => ?_
  refine .bind (.reading fun _ _ => rfl) fun _ => .bind (.reading fun _ _ => rfl) fun _ => ?_
  refine .bind (.reading fun _ _ => rfl) fun _ => .bind (.reading fun _ _ => rfl) fun _ => ?_
  exact .ofExcept _

theorem showJob_blind (id : Uuid) : Blind c foreign ctx (showJob id) := by
  refine .bind .connect fun _ => .bind (findJob_blind id) fun _ => ?_
  refine .bind (.reading fun _ _ => rfl) fun _ => .bind (.reading fun _ _ => rfl) fun _ => ?_
  refine .bind (.reading fun _ _ => rfl) fun _ => .bind (.ofExcept _) fun _ => ?_
  exact .done _

theorem postJob_blind (caller : Uuid) (form : JobForm) :
    Blind c foreign ctx (postJob caller form) := by
  refine .context (.bind (.ofExcept _) ?_)
  rintro ⟨job, milestones⟩
  refine .bind .connect fun _ => .bind (.transaction ?_) fun _ => ?_
  · refine .bind (.change fun _ _ => .addJob job) fun _ => ?_
    split
    · exact .done _
    · exact .change fun _ _ => .addMilestones milestones
  · exact .bind (findJob_blind _) fun _ => viewJob_blind _ _

theorem updateJob_blind (caller id : Uuid) (form : JobChangeForm) :
    Blind c foreign ctx (updateJob caller id form) := by
  refine .bind .connect fun _ => .bind (findJob_blind id) fun _ => ?_
  refine .bind (.require _ _) fun _ => .bind (.ofExcept _) fun _ => .context ?_
  refine .bind (.change fun _ _ => .replaceJob _) fun _ => ?_
  exact .bind (findJob_blind id) fun _ => viewJob_blind _ _

theorem removeJob_blind (caller id : Uuid) : Blind c foreign ctx (removeJob caller id) := by
  refine .bind .connect fun _ => .bind (findJob_blind id) fun _ => .bind (.require _ _) fun _ => ?_
  exact .bind (.change fun _ _ => .removeJob id) fun _ => .require _ _

theorem applyForJob_blind (caller id : Uuid) (form : ApplicationForm) :
    Blind c foreign ctx (applyForJob caller id form) := by
  refine .bind .connect fun _ => .bind (findJob_blind id) fun _ => ?_
  refine .bind (.ofExcept _) fun _ => .bind (.ofExcept _) fun _ => .context ?_
  refine .bind (.change fun _ _ => .addApplication _) fun _ => ?_
  refine .bind (.reading fun _ _ => rfl) fun _ => .bind (.expect _ _) fun _ => ?_
  exact .bind (.reading fun _ _ => rfl) fun _ => .ofExcept _

theorem listApplications_blind (id : Uuid) (q : PageQuery) :
    Blind c foreign ctx (listApplications id q) := by
  refine .bind .connect fun _ => .bind (findJob_blind id) fun _ => ?_
  refine .bind (.reading fun _ _ => rfl) fun _ => .bind (.ofExcept _) fun _ => ?_
  refine .bind (.reading fun _ _ => rfl) fun _ => .bind (.reading fun _ _ => rfl) fun _ => ?_
  exact .bind (.ofExcept _) fun _ => .ofExcept _

theorem listOwnApplications_blind (caller : Uuid) (q : PageQuery) :
    Blind c foreign ctx (listOwnApplications caller q) := by
  refine .bind .connect fun _ => .bind (.reading fun _ _ => rfl) fun _ => ?_
  exact .bind (.ofExcept _) fun _ => .bind (.reading fun _ _ => rfl) fun _ => .ofExcept _

theorem carryOut_blind (caller id : Uuid) (decision : Decision) :
    Blind c foreign ctx (carryOut caller id decision) := by
  refine .bind (.reading fun _ _ => rfl) fun _ => .bind (.expect _ _) ?_
  rintro ⟨application, job⟩
  refine .bind (.require _ _) fun _ => .bind (.require _ _) fun _ => .context ?_
  refine .bind (.change fun _ _ => .setApplicationStatus _ _ _) fun _ => ?_
  have reload : Blind c foreign ctx (Action.query (Store.application? id) >>= fun updated =>
      Action.expect (.store .noRow) updated) :=
    .bind (.reading fun _ _ => rfl) fun _ => .expect _ _
  cases decision with
  | accept =>
      exact .bind (.bind (.change fun _ _ => .assignJob _ _ _) fun _ => .require _ _) fun _ => reload
  | reject => exact .bind (.done ()) fun _ => reload

theorem decideApplication_blind (caller id : Uuid) (form : StatusForm) :
    Blind c foreign ctx (decideApplication caller id form) := by
  refine .bind (.ofExcept _) fun _ => .bind .connect fun _ => ?_
  refine .bind (.transaction (carryOut_blind _ _ _)) fun _ => ?_
  exact .bind (.reading fun _ _ => rfl) fun _ => .ofExcept _

end Hiring

namespace Delivery

theorem listMilestones_blind (jobId : Uuid) : Blind c foreign ctx (listMilestones jobId) := by
  refine .bind .connect fun _ => .bind (Hiring.findJob_blind jobId) fun _ => ?_
  exact .bind (.reading fun _ _ => rfl) fun _ => .done _

theorem moveMilestone_blind (caller id : Uuid) (form : Hiring.StatusForm) :
    Blind c foreign ctx (moveMilestone caller id form) := by
  refine .bind (.ofExcept _) fun _ => .bind .connect fun _ => ?_
  refine .bind (.transaction (.bind (.reading fun _ _ => rfl) fun _ => ?_)) fun _ => .done _
  refine .bind (.expect _ _) ?_
  rintro ⟨milestone, job⟩
  refine .bind (.expect _ _) fun _ => .bind (.require _ _) fun _ => .bind (.ofExcept _) fun _ => ?_
  refine .context (.bind (.change fun _ _ => .setMilestoneStatus _ _ _) fun _ => ?_)
  exact .bind (.reading fun _ _ => rfl) fun _ => .expect _ _

end Delivery

namespace Reputation

theorem writeReview_blind (caller : Uuid) (form : ReviewForm) :
    Blind c foreign ctx (writeReview caller form) := by
  refine .bind (.ofExcept _) fun _ => .bind .connect fun _ => ?_
  refine .bind (Hiring.findJob_blind _) fun _ => .bind (.ofExcept _) fun _ => .context ?_
  refine .bind (.change fun _ _ => .addReview _) fun _ => ?_
  refine .bind (.reading fun _ _ => rfl) fun _ => .bind (.expect _ _) fun _ => ?_
  refine .bind (.reading fun _ _ => rfl) fun _ => .bind (.expect _ _) fun _ => ?_
  exact .ofExcept _

theorem listReviews_blind (user : Uuid) (q : PageQuery) :
    Blind c foreign ctx (listReviews user q) := by
  refine .bind .connect fun _ => .bind (.reading fun _ _ => rfl) fun _ => ?_
  refine .bind (.require _ _) fun _ => .bind (.reading fun _ _ => rfl) fun _ => ?_
  refine .bind (.ofExcept _) fun _ => .bind (.reading fun _ _ => rfl) fun _ => ?_
  refine .bind (.reading fun _ _ => rfl) fun _ => .bind (.ofExcept _) fun _ => ?_
  exact .ofExcept _

end Reputation

/-! ## Calls about messages -/

namespace Messaging

variable {m : Message}

theorem involves_of_sender (own : m.senderId = c) : involves c m = true := by
  simp [involves, own]

theorem involves_of_receiver (own : m.receiverId = c) : involves c m = true := by
  simp [involves, own]

theorem involves_of_thread {other : Uuid} {job : Option Uuid}
    (passes : (Store.isBetween c other m && job.all fun j => decide (m.jobId = some j)) = true) :
    involves c m = true := by
  simp only [Bool.and_eq_true, Store.isBetween, Bool.or_eq_true, decide_eq_true_eq] at passes
  rcases passes.1 with ⟨isSender, _⟩ | ⟨_, isReceiver⟩
  · exact involves_of_sender isSender
  · exact involves_of_receiver isReceiver

theorem send_blind (form : MessageForm) (notForeign : ¬ foreign (ctx.freshId 0)) :
    Blind c foreign ctx (send c form) := by
  refine .bind (.ofExcept _) ?_
  rintro ⟨receiver, content⟩
  refine .context (.bind .connect fun _ => ?_)
  refine .bind (.change fun _ _ => .addMessage (involves_of_sender rfl) notForeign) fun _ => ?_
  refine .bind (.query fun _ _ alike => ?_) fun _ => .bind (.expect _ _) fun _ => ?_
  · exact congrArg (Store.readRow Message.isReadable) (alike.messages.find?_eq notForeign)
  · exact .bind (.reading fun _ _ => rfl) fun _ => .ofExcept _

theorem loadThread_blind (other : Uuid) (job : Option Uuid) :
    Blind c foreign ctx (loadThread c other job) := by
  refine .bind (.query fun _ _ alike => ?_) fun _ => ?_
  · exact congrArg (Store.readRows Message.isReadable)
      (alike.messages.oldestFirst_eq fun _ => involves_of_thread)
  · exact .bind (.reading fun _ _ => rfl) fun _ => .ofExcept _

theorem loadConversations_blind : Blind c foreign ctx (loadConversations c) := by
  refine .bind (.query fun _ _ alike => ?_) fun _ => ?_
  · exact congrArg (Store.readRows Message.isReadable)
      (alike.messages.newestFirst_eq fun _ involved => involved)
  · refine .bind (.reading fun _ _ => rfl) fun _ => .bind (.reading fun _ _ => rfl) fun _ => ?_
    exact .ofExcept _

theorem showInbox_blind (q : InboxQuery) : Blind c foreign ctx (showInbox c q) := by
  refine .bind .connect fun _ => ?_
  split
  · exact .bind (loadThread_blind _ _) fun _ => .done _
  · exact .bind loadConversations_blind fun _ => .done _

theorem countUnread_blind : Blind c foreign ctx (countUnread c) := by
  refine .bind .connect fun _ => .query fun _ _ alike => ?_
  refine congrArg Except.ok (alike.messages.countP_eq fun m unread => ?_)
  simp only [Message.isUnreadBy, Bool.and_eq_true, decide_eq_true_eq] at unread
  exact involves_of_receiver unread.1

theorem openThread_blind (other : Uuid) (job : Option Uuid) :
    Blind c foreign ctx (openThread c other job) := by
  refine .bind .connect fun _ => .bind (loadThread_blind other job) fun _ => ?_
  refine .bind (.change fun _ _ => .markRead fun m due => ?_) fun _ => .done _
  simp only [isDueOnOpening, Bool.and_eq_true, decide_eq_true_eq] at due
  exact involves_of_receiver due.1.1.2

theorem markRead_blind (id : Uuid) : Blind c foreign ctx (markRead c id) := by
  refine .bind .connect fun _ => ?_
  refine .bind (.change fun _ _ => .markRead fun m due => ?_) fun _ => .require _ _
  simp only [Bool.and_eq_true, decide_eq_true_eq] at due
  exact involves_of_receiver due.2

end Messaging

theorem Action.Blind.answering {α : Type} {act : Action α} (blind : Blind c foreign ctx act)
    (answer : α → Answer) : Blind c foreign ctx (Call.answering act answer) :=
  .bind blind fun _ => .done _

/-- Whatever a user asks, or somebody unknown, is answered without a look at messages of others. -/
theorem Call.perform_blind {call : Call} (own : ∀ u, call.caller? = some u → u = c)
    (notForeign : ¬ foreign (ctx.freshId 0)) : Blind c foreign ctx call.perform := by
  cases call with
  | health => exact .done _
  | whoAmI => exact .done _
  | register => exact .answering (Account.register_blind _) _
  | showSelf => exact .answering (Account.showSelf_blind _) _
  | updateSelf => exact .answering (Account.updateSelf_blind _ _) _
  | showProfile => exact .answering (Account.showProfile_blind _) _
  | listReviews => exact .answering (Reputation.listReviews_blind _ _) _
  | searchJobs => exact .answering (Hiring.searchJobs_blind _) _
  | postJob => exact .answering (Hiring.postJob_blind _ _) _
  | showJob => exact .answering (Hiring.showJob_blind _) _
  | updateJob => exact .answering (Hiring.updateJob_blind _ _ _) _
  | removeJob => exact .answering (Hiring.removeJob_blind _ _) _
  | listMilestones => exact .answering (Delivery.listMilestones_blind _) _
  | applyForJob => exact .answering (Hiring.applyForJob_blind _ _ _) _
  | listApplications => exact .answering (Hiring.listApplications_blind _ _) _
  | listOwnApplications => exact .answering (Hiring.listOwnApplications_blind _ _) _
  | decideApplication => exact .answering (Hiring.decideApplication_blind _ _ _) _
  | moveMilestone => exact .answering (Delivery.moveMilestone_blind _ _ _) _
  | writeReview => exact .answering (Reputation.writeReview_blind _ _) _
  | showInbox caller =>
      cases own caller rfl
      exact .answering (Messaging.showInbox_blind _) _
  | sendMessage caller =>
      cases own caller rfl
      exact .answering (Messaging.send_blind _ notForeign) _
  | countUnread caller =>
      cases own caller rfl
      exact .answering Messaging.countUnread_blind _
  | openThread caller =>
      cases own caller rfl
      exact .answering (Messaging.openThread_blind _ _) _
  | markRead caller =>
      cases own caller rfl
      exact .answering (Messaging.markRead_blind _) _

/-! ## Requests and runs -/

namespace Server

variable {server : Server} {r : Request} {s t : Store} {id : Uuid}

theorem perform_blind {call : Call} (blind : Blind c foreign ctx call.perform)
    (alike : s.Alike c foreign t) :
    (perform call ctx s).1 = (perform call ctx t).1 ∧
      (perform call ctx s).2.Alike c foreign (perform call ctx t).2 := by
  obtain ⟨same, after⟩ := blind s t alike
  unfold perform
  rcases run : call.perform ctx s with ⟨f | answer, s'⟩
  all_goals rcases run' : call.perform ctx t with ⟨f' | answer', t'⟩
  all_goals
    rw [run, run'] at same after
    cases same
  · exact ⟨rfl, after⟩
  · exact ⟨rfl, after⟩

theorem serve_blind (own : ∀ u, server.caller? ctx.now r = some u → u = c)
    (notForeign : ¬ foreign (ctx.freshId 0)) (alike : s.Alike c foreign t) :
    (server.serve ctx r s).1 = (server.serve ctx r t).1 ∧
      (server.serve ctx r s).2.Alike c foreign (server.serve ctx r t).2 := by
  cases asked : server.asked? ctx.now r with
  | some call =>
      rw [serve_of_asked asked, serve_of_asked asked]
      refine perform_blind (Call.perform_blind (fun u isCaller => ?_) notForeign) alike
      exact own u (caller?_of_asked asked isCaller)
  | none =>
      obtain ⟨refusal, _, served⟩ := serve_of_not_asked asked
      rw [served, served]
      exact ⟨rfl, alike⟩

theorem handle_blind (own : ∀ u, server.caller? ctx.now r = some u → u = c)
    (notForeign : ¬ foreign (ctx.freshId 0)) (alike : s.Alike c foreign t) :
    (server.handle ctx r s).1 = (server.handle ctx r t).1 ∧
      (server.handle ctx r s).2.Alike c foreign (server.handle ctx r t).2 := by
  obtain ⟨same, after⟩ := serve_blind own notForeign alike
  unfold handle
  split
  · exact ⟨rfl, alike⟩
  · refine ⟨?_, after⟩
    simp only [same]

def responses (server : Server) : List (Context × Request) → Store → List Response
  | [], _ => []
  | (ctx, r) :: rest, s =>
    (server.handle ctx r s).1 :: server.responses rest (server.handle ctx r s).2

theorem run_blind {steps : List (Context × Request)}
    (own : ∀ step ∈ steps, ∀ u, server.caller? step.1.now step.2 = some u → u = c)
    (notForeign : ∀ step ∈ steps, ¬ foreign (step.1.freshId 0)) (alike : s.Alike c foreign t) :
    server.responses steps s = server.responses steps t ∧
      (server.run steps s).Alike c foreign (server.run steps t) := by
  induction steps generalizing s t with
  | nil => exact ⟨rfl, alike⟩
  | cons step rest ih =>
      obtain ⟨ctx, r⟩ := step
      obtain ⟨ownNow, ownLater⟩ := List.forall_mem_cons.mp own
      obtain ⟨notNow, notLater⟩ := List.forall_mem_cons.mp notForeign
      obtain ⟨same, after⟩ := handle_blind ownNow notNow alike
      obtain ⟨sameLater, afterwards⟩ := ih ownLater notLater after
      exact ⟨congrArg₂ List.cons same sameLater, afterwards⟩

/-- A request is told that there is no such message, and changes nothing. -/
def FindsNoMessage (server : Server) (ctx : Context) (r : Request) (s : Store) : Prop :=
  (server.handle ctx r s).1.status = 404 ∧
    (server.handle ctx r s).1.body = some (.object [("error", .string "message not found")]) ∧
      (server.handle ctx r s).2 = s

/-- Nobody marks a message as read that somebody else received. -/
theorem MarksMessage.findsNoMessage (marks : server.MarksMessage c id ctx r)
    (connected : ctx.connected = true) (others : ∀ m ∈ s.messages, m.id = id → m.receiverId ≠ c) :
    server.FindsNoMessage ctx r s := by
  have none : s.messages.countP (fun m => decide (m.id = id) && decide (m.receiverId = c)) = 0 := by
    rw [List.countP_eq_zero]
    intro m hm due
    simp only [Bool.and_eq_true, decide_eq_true_eq] at due
    exact others m hm due.1 due.2
  have marked : Store.markRead (fun m => decide (m.id = id) && decide (m.receiverId = c)) s =
      .ok (0, s) := by
    rw [Store.markRead, none, Messaging.map_of_countP_eq_zero none]
  have failed : (Call.markRead c id).perform ctx s = (.error (.missing "message"), s) :=
    Action.bind_of_error ((Action.bind_of_ok (Action.connect_of_connected connected)).trans
      (Action.bind_of_ok (Action.change_of_ok marked)))
  have asked := asked?_markRead_iff.mpr marks
  obtain ⟨store, status⟩ := handle_of_asked (s := s) asked
  have notHead : r.method ≠ .head := by
    rw [marks.method]
    simp
  refine ⟨?_, ?_, ?_⟩
  · rw [status, perform, failed]
    rfl
  · rw [body_of_asked_of_not_head notHead asked, perform, failed]
    rfl
  · rw [store, failed]

/-- Let two stores agree but for messages that a user neither sent nor received.  Whatever is asked by
this user or by nobody known, in whatever order, is answered in the same way from both, and they agree
afterwards; in particular a message that the user did not receive is as little found as one that does
not exist.  No identifier that is made up on the way is that of a message of others. -/
theorem messages_stay_private (server : Server) (c : Uuid) (s t : Store) (hs : s.Constrained)
    (ht : t.Constrained) (agrees : s.AgreesFor c t) (steps : List (Context × Request))
    (own : ∀ step ∈ steps, ∀ u, server.caller? step.1.now step.2 = some u → u = c)
    (fresh : ∀ step ∈ steps, ∀ m, m ∈ s.messages ∨ m ∈ t.messages → involves c m = false →
      m.id ≠ step.1.freshId 0) :
    server.responses steps s = server.responses steps t ∧
      (server.run steps s).AgreesFor c (server.run steps t) ∧
        ∀ ctx r id, server.MarksMessage c id ctx r → ctx.connected = true →
          (∀ m ∈ (server.run steps s).messages, m.id = id → m.receiverId ≠ c) →
            server.FindsNoMessage ctx r (server.run steps s) ∧
              server.FindsNoMessage ctx r (server.run steps t) := by
  let foreign (id : Uuid) : Prop :=
    ∃ m, (m ∈ s.messages ∨ m ∈ t.messages) ∧ involves c m = false ∧ m.id = id
  have alike : s.Alike c foreign t := by
    apply agrees.alike hs.sound.keyed ht.sound.keyed
    intro m member notInvolved
    exact ⟨m, member, notInvolved, rfl⟩
  have notForeign : ∀ step ∈ steps, ¬ foreign (step.1.freshId 0) := by
    rintro step isStep ⟨m, member, notInvolved, same⟩
    exact fresh step isStep m member notInvolved same
  obtain ⟨same, after⟩ := run_blind own notForeign alike
  refine ⟨same, after.agreesFor, ?_⟩
  intro ctx r id marks connected others
  refine ⟨marks.findsNoMessage connected others, marks.findsNoMessage connected ?_⟩
  intro m hm isId isReceiver
  have involved := Messaging.involves_of_receiver isReceiver
  exact others m ((after.messages.own m involved).mpr hm) isId isReceiver

def bobsNote : Message := ⟨.ofNat 8, bob.id, bob.id, none, "Call ann", false, ⟨0⟩⟩

def notedStore : Store := { siteStore with messages := [siteMessage, bobsNote] }

def annPrying : Request :=
  { annMarking with target := "/api/messages/00000000-0000-0000-0000-000000000008/read" }

theorem notedStore_sound : notedStore.Sound :=
  Store.addMessage_sound (m := bobsNote) siteStore_sound rfl

theorem annPrying_marks : plain.MarksMessage ann.id bobsNote.id firstMoment annPrying :=
  ⟨rfl, ⟨"00000000-0000-0000-0000-000000000008".toList, by decide +kernel,
    Http.pathId_eq_ok_iff.mpr (by decide +kernel)⟩, ann_known rfl⟩

theorem messages_stay_private_site :
    siteStore.Constrained ∧ notedStore.Constrained ∧ siteStore.AgreesFor ann.id notedStore ∧
      plain.responses [(firstMoment, annInbox), (firstMoment, annMarking)] siteStore =
        plain.responses [(firstMoment, annInbox), (firstMoment, annMarking)] notedStore ∧
      plain.FindsNoMessage firstMoment annPrying
        (plain.run [(firstMoment, annInbox), (firstMoment, annMarking)] siteStore) ∧
      plain.FindsNoMessage firstMoment annPrying
        (plain.run [(firstMoment, annInbox), (firstMoment, annMarking)] notedStore) := by
  have holds := siteStore_sound.constrained
  have holds' := notedStore_sound.constrained
  have agrees : siteStore.AgreesFor ann.id notedStore := by
    refine ⟨rfl, rfl, rfl, rfl, rfl, fun m involved => ?_⟩
    have notNote : m ≠ bobsNote := by
      rintro rfl
      cases involved
    simp [siteStore, notedStore, notNote]
  have own : ∀ step ∈ [(firstMoment, annInbox), (firstMoment, annMarking)],
      ∀ u, plain.caller? step.1.now step.2 = some u → u = ann.id := by
    intro step member u isCaller
    have known : plain.caller? step.1.now step.2 = some ann.id := by
      rcases List.mem_pair.mp member with rfl | rfl
      · exact ann_known rfl
      · exact ann_known rfl
    exact (Option.some.inj (known.symm.trans isCaller)).symm
  have fresh : ∀ step ∈ [(firstMoment, annInbox), (firstMoment, annMarking)],
      ∀ m, m ∈ siteStore.messages ∨ m ∈ notedStore.messages → involves ann.id m = false →
        m.id ≠ step.1.freshId 0 := by
    intro step member m isStored _
    have stored : m = siteMessage ∨ m = bobsNote := by
      rcases isStored with isOld | isNew
      · exact .inl (List.mem_singleton.mp isOld)
      · exact List.mem_pair.mp isNew
    rcases List.mem_pair.mp member with rfl | rfl
    all_goals rcases stored with rfl | rfl
    all_goals decide
  have onlyOld : ∀ m ∈ (plain.run [(firstMoment, annInbox), (firstMoment, annMarking)]
      siteStore).messages, m.id = bobsNote.id → m.receiverId ≠ ann.id := by
    have shown : (plain.handle firstMoment annInbox siteStore).2 = siteStore := by
      rw [(handle_of_asked annInbox_asks.asked).1]
      exact Call.perform_readOnly rfl firstMoment siteStore
    rw [run, shown, run, (handle_of_asked (asked?_markRead_iff.mpr annMarking_marks)).1]
    decide +kernel
  obtain ⟨same, _, unfound⟩ := messages_stay_private plain ann.id siteStore notedStore holds holds'
    agrees _ own fresh
  obtain ⟨first, second⟩ :=
    unfound firstMoment annPrying bobsNote.id annPrying_marks rfl onlyOld
  exact ⟨holds, holds', agrees, same, first, second⟩

end Server

end GigBoard
