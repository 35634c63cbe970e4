import GigBoard.Proofs.Actions
import GigBoard.Proofs.Effect

/-!
# What calls do

Every call either fails and leaves the store alone, or has its effect.  An effect that was followed by
a failure is possible only if the store was broken before or the time cannot be read back: whatever is
loaded after a row was written is there, because of the references of the row.
-/

set_option autoImplicit false

namespace GigBoard

open GigBoard.Action (Commits Ordinary ReadOnly Succeeds)

variable {ctx : Context} {s s' : Store}

/-! ## Loading rows -/

namespace Store

theorem readRow_ok {α : Type} {isReadable : α → Bool} {row : Option α} {r : Option α}
    (ok : readRow isReadable row = .ok r) : row = r := by
  unfold readRow at ok
  split at ok
  · cases ok
    rfl
  · cases ok

theorem readRow_readable {α : Type} {isReadable : α → Bool} {row : Option α} {r : Option α}
    (ok : readRow isReadable row = .ok r) : ∀ a, r = some a → isReadable a = true := by
  unfold readRow at ok
  split at ok
  · rename_i readable
    cases ok
    intro a isRow
    rw [isRow] at readable
    exact readable
  · cases ok

/-- A row that is found in a readable table is loaded. -/
theorem readRow_of_found {α : Type} {isReadable : α → Bool} {rows : List α} {p : α → Bool} {r : α}
    (readable : ∀ q ∈ rows, isReadable q = true) (found : rows.find? p = some r) :
    readRow isReadable (rows.find? p) = .ok (some r) := by
  have isRead := readable r (List.mem_of_find?_eq_some found)
  rw [found]
  simp [readRow, isRead]

theorem readRows_of_all {α : Type} {isReadable : α → Bool} {rows : List α}
    (readable : ∀ r ∈ rows, isReadable r = true) : readRows isReadable rows = .ok rows := by
  rw [readRows, if_pos (List.all_eq_true.mpr readable)]

/-- Who is there is found. -/
theorem user_of_known {id : Uuid} (known : s.hasUser id = true) :
    ∃ u, s.users.find? (fun v => decide (v.id = id)) = some u := by
  apply Option.isSome_iff_exists.mp
  rw [List.find?_isSome]
  exact List.any_eq_true.mp known

/-- A row is loaded together with its job only if both are found. -/
theorem readPair_ok {α : Type} {isReadable : α → Bool} {rows : List α} {p : α → Bool} {r : α}
    {job : α → Uuid} {j : Hiring.Job}
    (read : readPair isReadable Hiring.Job.isReadable ((rows.find? p).bind fun q =>
      (s.jobs.find? fun k => decide (k.id = job q)).map fun k => (q, k)) = .ok (some (r, j))) :
    rows.find? p = some r ∧ s.FindsJob (job r) j := by
  have both := readRow_ok read
  obtain ⟨q, found, rest⟩ := Option.bind_eq_some_iff.mp both
  obtain ⟨k, of, same⟩ := Option.map_eq_some_iff.mp rest
  cases same
  exact ⟨found, of⟩

theorem usersWithIds_of_readable (readable : s.Readable) (ids : List Uuid) :
    usersWithIds ids s = .ok (s.users.filter fun u => ids.contains u.id) :=
  readRows_of_all fun u hu => readable.users u (List.mem_filter.mp hu).1

theorem milestonesOf_of_readable (readable : s.Readable) (ids : List Uuid) :
    ∃ ms, milestonesOf ids s = .ok ms := by
  refine ⟨_, readRows_of_all ?_⟩
  intro m hm
  rw [List.mem_mergeSort] at hm
  exact readable.milestones m (List.mem_filter.mp hm).1

/-- Among the users loaded by some identifiers is everybody asked for who exists. -/
theorem among_loaded {id : Uuid} {ids : List Uuid} (known : s.hasUser id = true)
    (asked : id ∈ ids) :
    ∃ u, Account.among (s.users.filter fun u => ids.contains u.id) id = some u := by
  obtain ⟨u, hu, same⟩ := (hasUser_iff s id).mp known
  apply Option.isSome_iff_exists.mp
  rw [Account.among, List.find?_isSome]
  exact ⟨u, List.mem_filter.mpr ⟨hu, by simpa [same] using asked⟩, by simpa using same⟩

end Store

namespace Hiring

theorem findJob_readOnly (id : Uuid) : (findJob id).ReadOnly :=
  .bind (.query _) fun _ => .expect _ _

theorem findJob_ok {id : Uuid} {j : Job} (ok : findJob id ctx s = (.ok j, s')) :
    s.FindsJob id j ∧ s' = s := by
  obtain ⟨row, _, read, taken⟩ := Action.steps_ok ok
  obtain ⟨selected, rfl⟩ := Action.query_ok read
  obtain ⟨rfl, rfl⟩ := Action.expect_ok taken
  exact ⟨Store.readRow_ok selected, rfl⟩

theorem findJob_of_found {id : Uuid} {j : Job} (readable : s.Readable)
    (found : s.FindsJob id j) : findJob id ctx s = (.ok j, s) := by
  have read : Store.job? id s = .ok (some j) := Store.readRow_of_found readable.jobs found
  exact Action.bind_of_ok (Action.query_of_ok read)

theorem viewJob_readOnly (j : Job) (users : List Uuid) : (viewJob j users).ReadOnly :=
  .bind (.query _) fun _ => .bind (.query _) fun _ => .done _

theorem viewJob_succeeds (readable : s.Readable) (j : Job) (users : List Uuid) :
    (viewJob j users).Succeeds ctx s := by
  obtain ⟨ms, read⟩ := Store.milestonesOf_of_readable readable [j.id]
  refine .bind (Action.query_of_ok read) ?_
  refine .bind (Action.query_of_ok (Store.usersWithIds_of_readable readable users)) ?_
  exact .done

end Hiring

theorem Action.Commits.findJob {β : Type} {id : Uuid} {next : Hiring.Job → Action β}
    {effect : Store → Prop}
    (rest : ∀ j, s.FindsJob id j → (next j).Commits ctx s effect) :
    (Hiring.findJob id >>= next).Commits ctx s effect :=
  .after (Hiring.findJob_readOnly id) fun j ok => rest j (Hiring.findJob_ok ok).1

/-! ## Accounts -/

namespace Account

theorem showSelf_readOnly (caller : Uuid) : (showSelf caller).ReadOnly := by
  refine .bind .connect fun _ => ?_
  refine .bind (.query _) fun _ => ?_
  refine .bind (.expect _ _) fun _ => ?_
  exact .done _

theorem showProfile_readOnly (id : Uuid) : (showProfile id).ReadOnly := by
  refine .bind .connect fun _ => ?_
  refine .bind (.query _) fun _ => .bind (.expect _ _) fun _ => ?_
  refine .bind (.query _) fun _ => .bind (.query _) fun _ => ?_
  refine .bind (.query _) fun _ => .bind (.query _) fun _ => ?_
  refine .bind (.ofExcept _) fun _ => ?_
  refine .bind (.query _) fun _ => .bind (.query _) fun _ => ?_
  exact .done _

theorem register_commits (form : Registration) :
    (register form).Commits ctx s (Effect ctx s (.register form)) := by
  refine .context (.ofExcept fun u made => .connect ?_)
  refine .writing (.change _ _) (fun _ => ?_) ?_
  · exact .bind (.query _) fun _ => .bind (.expect _ _) fun _ => .done _
  · intro _ s' wrote
    have added := Action.change_ok wrote
    have effect := Effect.registered made added
    refine ⟨effect, fun ordinary => ?_⟩
    have readable := effect.readable ordinary.readable ordinary.timely
    obtain ⟨_, fresh, rfl⟩ := Store.addUser_ok added
    -- The identifier was nobody's, so it finds the new row behind all others.
    have found := Rows.find?_append_one User.id fun v hv => (fresh v hv).1
    refine .bind (Action.query_of_ok (Store.readRow_of_found readable.users found)) ?_
    exact .done

theorem updateSelf_commits (caller : Uuid) (body : Json) :
    (updateSelf caller body).Commits ctx s (Effect ctx s (.updateSelf caller body)) := by
  refine .connect (.query fun row read => .expect fun u isRow => .ofExcept fun change asked => ?_)
  subst isRow
  have found := Store.readRow_ok read
  split
  · exact .of_readOnly (.done _) (.nothing _)
  · refine .context (.writing (.change _ _) (fun _ => ?_) ?_)
    · exact .bind (.query _) fun _ => .bind (.expect _ _) fun _ => .done _
    · intro _ s' wrote
      have replaced := Action.change_ok wrote
      have effect := Effect.accountChanged found asked replaced
      refine ⟨effect, fun ordinary => ?_⟩
      have readable := effect.readable ordinary.readable ordinary.timely
      obtain ⟨_, _, rfl⟩ := Store.replaceUser_ok replaced
      have again := Rows.find?_map_update User.id _
        (Rows.key_replace User.id (change.apply u ctx.now)) found
      refine .bind (Action.query_of_ok (Store.readRow_of_found readable.users again)) ?_
      exact .done

end Account

/-! ## Jobs -/

namespace Hiring

theorem searchJobs_readOnly (q : JobQuery) : (searchJobs q).ReadOnly := by
  refine .bind (.ofExcept _) fun _ => .bind .connect fun _ => ?_
  refine .bind (.query _) fun _ => .bind (.ofExcept _) fun _ => ?_
  refine .bind (.query _) fun _ => .bind (.query _) fun _ => ?_
  refine .bind (.query _) fun _ => .bind (.query _) fun _ => ?_
  exact .ofExcept _

theorem showJob_readOnly (id : Uuid) : (showJob id).ReadOnly := by
  refine .bind .connect fun _ => .bind (findJob_readOnly id) fun _ => ?_
  refine .bind (.query _) fun _ => .bind (.query _) fun _ => ?_
  refine .bind (.query _) fun _ => .bind (.ofExcept _) fun _ => ?_
  exact .done _

/-- Adding no milestones changes nothing. -/
theorem storeJob_eq (job : Job) (ms : List Delivery.Milestone) :
    storeJob job ms = Action.change (Store.addJob job) .store >>= fun _ =>
      Action.change (Store.addMilestones ms) .store := by
  cases ms with
  | nil =>
      have nothing : Action.change (Store.addMilestones []) .store = Action.done () := by
        funext ctx s
        exact Action.change_of_ok (Store.addMilestones_nil s)
      rw [nothing]
      rfl
  | cons m ms => rfl

theorem storeJob_ensures (job : Job) (milestones : List Delivery.Milestone) :
    (storeJob job milestones).Ensures ctx s fun _ s' =>
      ∃ s₁, Store.addJob job s = .ok ((), s₁) ∧
        Store.addMilestones milestones s₁ = .ok ((), s') := by
  rw [storeJob_eq]
  refine .change fun _ s₁ added => ?_
  intro _ s' ok
  exact ⟨s₁, added, Action.change_ok ok⟩

theorem postJob_commits (caller : Uuid) (form : JobForm) :
    (postJob caller form).Commits ctx s (Effect ctx s (.postJob caller form)) := by
  refine .context (.ofExcept ?_)
  rintro ⟨job, milestones⟩ made
  refine .connect (.writing (.transaction _) (fun _ => ?_) ?_)
  · exact .bind (findJob_readOnly _) fun _ => viewJob_readOnly _ _
  · intro _ s' wrote
    obtain ⟨s₁, added, planned⟩ := storeJob_ensures job milestones () s' (Action.transaction_ok wrote)
    have effect := Effect.jobPosted made added planned
    refine ⟨effect, fun ordinary => ?_⟩
    have readable := effect.readable ordinary.readable ordinary.timely
    obtain ⟨_, fresh, _, _, rfl⟩ := Store.addJob_ok added
    obtain ⟨_, _, _, _, rfl⟩ := Store.addMilestones_ok planned
    have found := Rows.find?_append_one Job.id fresh
    exact .bind (findJob_of_found readable found) (viewJob_succeeds readable _ _)

theorem updateJob_commits (caller id : Uuid) (form : JobChangeForm) :
    (updateJob caller id form).Commits ctx s (Effect ctx s (.updateJob caller id form)) := by
  refine .connect (.findJob fun job found => .require fun owned => ?_)
  refine .ofExcept fun change asked => .context (.writing (.change _ _) (fun _ => ?_) ?_)
  · exact .bind (findJob_readOnly _) fun _ => viewJob_readOnly _ _
  · intro _ s' wrote
    have replaced := Action.change_ok wrote
    have effect := Effect.jobChanged found (of_decide_eq_true owned) asked replaced
    refine ⟨effect, fun ordinary => ?_⟩
    have readable := effect.readable ordinary.readable ordinary.timely
    obtain ⟨_, rfl⟩ := Store.replaceJob_ok replaced
    have again := Rows.find?_map_update Job.id _
      (Rows.key_replace Job.id (change.apply job ctx.now)) found
    exact .bind (findJob_of_found readable again) (viewJob_succeeds readable _ _)

theorem removeJob_commits (caller id : Uuid) :
    (removeJob caller id).Commits ctx s (Effect ctx s (.removeJob caller id)) := by
  refine .connect (.findJob fun job found => .require fun owned => ?_)
  refine .writing (.change _ _) (fun _ => .require _ _) ?_
  intro count s' wrote
  have removed := Action.change_ok wrote
  refine ⟨.jobRemoved found (of_decide_eq_true owned) removed, fun _ => ?_⟩
  -- The job was found, so there is something to remove.
  have some : 0 < s.jobs.countP fun j => decide (j.id = id) :=
    List.countP_pos_iff.mpr ⟨job, found.mem, decide_eq_true found.id_eq⟩
  have counted : count ≠ 0 := by
    rw [(Store.removeJob_ok removed).1]
    omega
  rw [show decide (count ≠ 0) = true from decide_eq_true counted]
  exact .done

/-! ## Applications -/

theorem listApplications_readOnly (id : Uuid) (q : PageQuery) :
    (listApplications id q).ReadOnly := by
  refine .bind .connect fun _ => .bind (findJob_readOnly id) fun _ => ?_
  refine .bind (.query _) fun _ => .bind (.ofExcept _) fun _ => ?_
  refine .bind (.query _) fun _ => .bind (.query _) fun _ => ?_
  refine .bind (.ofExcept _) fun _ => ?_
  exact .ofExcept _

theorem listOwnApplications_readOnly (caller : Uuid) (q : PageQuery) :
    (listOwnApplications caller q).ReadOnly := by
  refine .bind .connect fun _ => .bind (.query _) fun _ => ?_
  refine .bind (.ofExcept _) fun _ => .bind (.query _) fun _ => ?_
  exact .ofExcept _

/-- The freelancer of an application can be shown if there is one. -/
theorem withFreelancer_succeeds {a : Application} {ids : List Uuid}
    (known : s.hasUser a.freelancerId = true) (asked : a.freelancerId ∈ ids) :
    (Action.ofExcept (ApplicationView.withFreelancer
      (s.users.filter fun u => ids.contains u.id) .ofUser a)).Succeeds ctx s := by
  obtain ⟨u, loaded⟩ := Store.among_loaded known asked
  rw [ApplicationView.withFreelancer, loaded]
  exact .done

theorem applyForJob_commits (caller id : Uuid) (form : ApplicationForm) :
    (applyForJob caller id form).Commits ctx s (Effect ctx s (.applyForJob caller id form)) := by
  refine .connect (.findJob fun job found => .ofExcept fun _ free => ?_)
  refine .ofExcept fun budget offered => .context (.writing (.change _ _) (fun _ => ?_) ?_)
  · refine .bind (.query _) fun _ => .bind (.expect _ _) fun _ => ?_
    exact .bind (.query _) fun _ => .ofExcept _
  · intro _ s' wrote
    have added := Action.change_ok wrote
    have effect := Effect.applied found free offered added
    refine ⟨effect, fun ordinary => ?_⟩
    have readable := effect.readable ordinary.readable ordinary.timely
    obtain ⟨_, fresh, _, known, rfl⟩ := Store.addApplication_ok added
    have again := Rows.find?_append_one Application.id fun b hb => (fresh b hb).1
    refine .bind (Action.query_of_ok (Store.readRow_of_found readable.applications again)) ?_
    refine .bind rfl ?_
    refine .bind (Action.query_of_ok (Store.usersWithIds_of_readable readable _)) ?_
    exact withFreelancer_succeeds known (List.mem_singleton.mpr rfl)

theorem assign_ensures (application : Application) (job : Job) (now : Timestamp) :
    (assign application job now).Ensures ctx s fun _ s' =>
      ∃ n, Store.assignJob job.id application.freelancerId now s = .ok (n, s') ∧ n ≠ 0 := by
  refine .change fun count s₁ assigned => ?_
  intro _ s' ok
  obtain ⟨counted, rfl⟩ := Action.require_ok ok
  exact ⟨count, assigned, of_decide_eq_true counted⟩

/-- What was found and done when a decision was carried out. -/
theorem carryOut_ensures {caller id : Uuid} {form : StatusForm} {decision : Decision}
    (asked : Decision.ofForm form = .ok decision) :
    (carryOut caller id decision).Ensures ctx s fun a s' =>
      Effect ctx s (.decideApplication caller id form) s' ∧
        s'.applications.find? (fun b => decide (b.id = id)) = some a := by
  refine .query fun row read => .expect ?_
  rintro ⟨old, job⟩ rfl
  obtain ⟨found, of⟩ := Store.readPair_ok read
  refine .require fun owned => .require fun allowed => .context (.change fun _ s₁ set => ?_)
  have isOwner := of_decide_eq_true owned
  have pending := ApplicationStatus.pending_of_mayBecome allowed
  cases decision with
  | accept =>
      refine .bind fun _ s₂ assigning => ?_
      obtain ⟨count, assigned, counted⟩ := assign_ensures old job ctx.now () s₂ assigning
      refine .query fun row read => .expect_last fun a isRow => ?_
      subst isRow
      exact ⟨.accepted asked found of isOwner pending set assigned counted, Store.readRow_ok read⟩
  | reject =>
      refine .bind fun _ s₂ nothing => ?_
      cases nothing
      refine .query fun row read => .expect_last fun a isRow => ?_
      subst isRow
      exact ⟨.rejected asked found of isOwner pending set, Store.readRow_ok read⟩

theorem decideApplication_commits (caller id : Uuid) (form : StatusForm) :
    (decideApplication caller id form).Commits ctx s
      (Effect ctx s (.decideApplication caller id form)) := by
  refine .ofExcept fun decision asked => .connect (.writing (.transaction _) (fun _ => ?_) ?_)
  · exact .bind (.query _) fun _ => .ofExcept _
  · intro a s' wrote
    obtain ⟨effect, found⟩ := carryOut_ensures asked a s' (Action.transaction_ok wrote)
    refine ⟨effect, fun ordinary => ?_⟩
    -- The decision is committed; showing it needs the freelancer, who is there by reference.
    have readable := effect.readable ordinary.readable ordinary.timely
    have sound := effect.sound ordinary.sound
    refine .bind (Action.query_of_ok (Store.usersWithIds_of_readable readable _)) ?_
    apply withFreelancer_succeeds
    · exact sound.linked.applicationFreelancer a (Rows.mem_of_found found)
    · exact List.mem_singleton.mpr rfl

end Hiring

/-! ## Milestones -/

namespace Delivery

theorem listMilestones_readOnly (jobId : Uuid) : (listMilestones jobId).ReadOnly := by
  refine .bind .connect fun _ => .bind (Hiring.findJob_readOnly jobId) fun _ => ?_
  exact .bind (.query _) fun _ => .done _

/-- What was found and checked when a milestone was moved. -/
theorem move_ensures {caller id : Uuid} {form : Hiring.StatusForm} {target : MilestoneStatus}
    (asked : statusOfForm form = .ok target) :
    (move caller id target).Ensures ctx s fun _ s' =>
      Effect ctx s (.moveMilestone caller id form) s' := by
  refine .query fun row read => .expect ?_
  rintro ⟨m, job⟩ rfl
  obtain ⟨found, of⟩ := Store.readPair_ok read
  refine .expect fun party side => .require fun running => .ofExcept fun _ allowed => ?_
  refine .context (.change fun _ s₁ set => ?_)
  refine .query fun row read => .expect_last fun _ _ => ?_
  exact .milestoneMoved asked found of side (of_decide_eq_true running) (checkMove_ok allowed) set

theorem moveMilestone_commits (caller id : Uuid) (form : Hiring.StatusForm) :
    (moveMilestone caller id form).Commits ctx s
      (Effect ctx s (.moveMilestone caller id form)) := by
  refine .ofExcept fun target asked => .connect (.writing (.transaction _) (fun _ => .done _) ?_)
  intro m s' wrote
  exact ⟨move_ensures asked m s' (Action.transaction_ok wrote), fun _ => .done⟩

end Delivery

/-! ## Reviews -/

namespace Reputation

theorem listReviews_readOnly (user : Uuid) (q : PageQuery) : (listReviews user q).ReadOnly := by
  refine .bind .connect fun _ => .bind (.query _) fun _ => .bind (.require _ _) fun _ => ?_
  refine .bind (.query _) fun _ => .bind (.ofExcept _) fun _ => ?_
  refine .bind (.query _) fun _ => .bind (.query _) fun _ => ?_
  refine .bind (.ofExcept _) fun _ => ?_
  exact .ofExcept _

theorem writeReview_commits (caller : Uuid) (form : ReviewForm) :
    (writeReview caller form).Commits ctx s (Effect ctx s (.writeReview caller form)) := by
  refine .ofExcept fun verdict said => .connect (.findJob fun job found => ?_)
  refine .ofExcept fun _ allowed => .context (.writing (.change _ _) (fun _ => ?_) ?_)
  · refine .bind (.query _) fun _ => .bind (.expect _ _) fun _ => ?_
    exact .bind (.query _) fun _ => .bind (.expect _ _) fun _ => .ofExcept _
  · intro _ s' wrote
    have added := Action.change_ok wrote
    have effect := Effect.reviewed said found allowed added
    refine ⟨effect, fun ordinary => ?_⟩
    have readable := effect.readable ordinary.readable ordinary.timely
    obtain ⟨_, fresh, _, known, _, rfl⟩ := Store.addReview_ok added
    have again := Rows.find?_append_one Review.id fun q hq => (fresh q hq).1
    obtain ⟨u, hu⟩ := Store.user_of_known known
    refine .bind (Action.query_of_ok (Store.readRow_of_found readable.reviews again)) ?_
    refine .bind rfl ?_
    refine .bind (Action.query_of_ok (Store.readRow_of_found readable.users hu)) ?_
    refine .bind rfl ?_
    have shown : Account.among [u] caller = some u := by
      simp [Account.among, Rows.key_of_found hu]
    rw [ReviewView.make, Account.summaryAmong, shown]
    exact .done

end Reputation

/-! ## Messages -/

namespace Messaging

theorem loadThread_readOnly (caller other : Uuid) (jobId : Option Uuid) :
    (loadThread caller other jobId).ReadOnly :=
  .bind (.query _) fun _ => .bind (.query _) fun _ => .ofExcept _

theorem loadConversations_readOnly (caller : Uuid) : (loadConversations caller).ReadOnly := by
  refine .bind (.query _) fun _ => .bind (.query _) fun _ => ?_
  exact .bind (.query _) fun _ => .ofExcept _

theorem showInbox_readOnly (caller : Uuid) (q : InboxQuery) : (showInbox caller q).ReadOnly := by
  refine .bind .connect fun _ => ?_
  split
  · exact .bind (loadThread_readOnly _ _ _) fun _ => .done _
  · exact .bind (loadConversations_readOnly _) fun _ => .done _

theorem countUnread_readOnly (caller : Uuid) : (countUnread caller).ReadOnly :=
  .bind .connect fun _ => .query _

/-- A message can be shown if its sender and its receiver exist. -/
theorem withBoth_succeeds {m : Message} {ids : List Uuid}
    (sender : s.hasUser m.senderId = true) (receiver : s.hasUser m.receiverId = true)
    (senderAsked : m.senderId ∈ ids) (receiverAsked : m.receiverId ∈ ids) :
    (Action.ofExcept
      (MessageView.withBoth (s.users.filter fun u => ids.contains u.id) m)).Succeeds ctx s := by
  obtain ⟨u, loaded⟩ := Store.among_loaded sender senderAsked
  obtain ⟨v, loaded'⟩ := Store.among_loaded receiver receiverAsked
  rw [MessageView.withBoth, MessageView.withSender, Account.summaryAmong, Account.summaryAmong,
    loaded, loaded']
  exact .done

theorem send_commits (caller : Uuid) (form : MessageForm) :
    (send caller form).Commits ctx s (Effect ctx s (.sendMessage caller form)) := by
  refine .ofExcept ?_
  rintro ⟨receiver, content⟩ written
  refine .context (.connect (.writing (.change _ _) (fun _ => ?_) ?_))
  · refine .bind (.query _) fun _ => .bind (.expect _ _) fun _ => ?_
    exact .bind (.query _) fun _ => .ofExcept _
  · intro _ s' wrote
    have added := Action.change_ok wrote
    have effect := Effect.messageSent written added
    refine ⟨effect, fun ordinary => ?_⟩
    have readable := effect.readable ordinary.readable ordinary.timely
    obtain ⟨_, fresh, sender, receiver, _, rfl⟩ := Store.addMessage_ok added
    have again := Rows.find?_append_one Message.id fresh
    refine .bind (Action.query_of_ok (Store.readRow_of_found readable.messages again)) ?_
    refine .bind rfl ?_
    refine .bind (Action.query_of_ok (Store.usersWithIds_of_readable readable _)) ?_
    apply withBoth_succeeds
    · exact sender
    · exact receiver
    · exact List.mem_cons_self
    · exact List.mem_cons_of_mem _ List.mem_cons_self

theorem openThread_commits (caller other : Uuid) (jobId : Option Uuid) :
    (openThread caller other jobId).Commits ctx s
      (Effect ctx s (.openThread caller other jobId)) := by
  refine .connect (.after (loadThread_readOnly _ _ _) fun thread _ => ?_)
  refine .writing (.change _ _) (fun _ => .done _) ?_
  intro count s' wrote
  exact ⟨.threadRead (Action.change_ok wrote), fun _ => .done⟩

/-- Marking no message changes none. -/
theorem map_of_countP_eq_zero {due : Message → Bool} {messages : List Message}
    (none : messages.countP due = 0) :
    messages.map (fun m => if due m then { m with read := true } else m) = messages := by
  apply (List.map_congr_left ?_).trans (List.map_id messages)
  intro m hm
  have notDue := List.countP_eq_zero.mp none m hm
  rw [if_neg notDue]
  rfl

theorem markRead_commits (caller id : Uuid) :
    (markRead caller id).Commits ctx s (Effect ctx s (.markRead caller id)) := by
  refine .connect ?_
  let mine (m : Message) : Bool := m.id = id && m.receiverId = caller
  by_cases none : s.messages.countP mine = 0
  · -- No message is marked, so the failure comes after a change that changed nothing.
    left
    refine ⟨.missing "message", ?_⟩
    have marked : Store.markRead mine s = .ok (0, s) := by
      rw [Store.markRead, none, map_of_countP_eq_zero none]
    refine (Action.bind_of_ok (Action.change_of_ok marked)).trans ?_
    rfl
  · refine .writing (.change _ _) (fun _ => .require _ _) ?_
    intro count s' wrote
    have marked := Action.change_ok wrote
    refine ⟨.messageRead marked, fun _ => ?_⟩
    have counted : count ≠ 0 := by
      rw [(Store.markRead_ok marked).1]
      exact none
    rw [show decide (count ≠ 0) = true from decide_eq_true counted]
    exact .done

end Messaging

/-! ## All calls -/

theorem Action.ReadOnly.answering {α : Type} {act : Action α} (readOnly : act.ReadOnly)
    (answer : α → Answer) : (Call.answering act answer).ReadOnly :=
  .bind readOnly fun _ => .done _

theorem Action.Commits.answering {α : Type} {act : Action α} {effect : Store → Prop}
    (commits : act.Commits ctx s effect) (answer : α → Answer) :
    (Call.answering act answer).Commits ctx s effect := by
  unfold Call.answering
  rcases run : act ctx s with ⟨f | a, s'⟩
  · unfold Commits Succeeds at commits ⊢
    rw [run] at commits
    rw [Action.bind_of_error run]
    rcases commits with ⟨g, same⟩ | ⟨done, ends⟩
    · cases same
      exact .inl ⟨f, rfl⟩
    · refine .inr ⟨done, fun ordinary => ?_⟩
      obtain ⟨a, impossible⟩ := ends ordinary
      cases impossible
  · unfold Commits Succeeds at commits ⊢
    rw [run] at commits
    rw [Action.bind_of_ok run]
    rcases commits with ⟨g, impossible⟩ | ⟨done, _⟩
    · cases impossible
    · exact .inr ⟨done, fun _ => ⟨answer a, rfl⟩⟩

def Call.asks : Call → Bool
  | .register _ => false
  | .updateSelf _ _ => false
  | .postJob _ _ => false
  | .updateJob _ _ _ => false
  | .removeJob _ _ => false
  | .applyForJob _ _ _ => false
  | .decideApplication _ _ _ => false
  | .moveMilestone _ _ _ => false
  | .writeReview _ _ => false
  | .sendMessage _ _ => false
  | .openThread _ _ _ => false
  | .markRead _ _ => false
  | _ => true

theorem Call.perform_readOnly {call : Call} (asks : call.asks = true) : call.perform.ReadOnly := by
  cases call with
  | health => exact .done _
  | whoAmI => exact .done _
  | showSelf => exact .answering (Account.showSelf_readOnly _) _
  | showProfile => exact .answering (Account.showProfile_readOnly _) _
  | listReviews => exact .answering (Reputation.listReviews_readOnly _ _) _
  | searchJobs => exact .answering (Hiring.searchJobs_readOnly _) _
  | showJob => exact .answering (Hiring.showJob_readOnly _) _
  | listMilestones => exact .answering (Delivery.listMilestones_readOnly _) _
  | listApplications => exact .answering (Hiring.listApplications_readOnly _ _) _
  | listOwnApplications => exact .answering (Hiring.listOwnApplications_readOnly _ _) _
  | showInbox => exact .answering (Messaging.showInbox_readOnly _ _) _
  | countUnread => exact .answering (Messaging.countUnread_readOnly _) _
  | _ => cases asks

/-- A call fails without a trace or has its effect. -/
theorem Call.perform_commits (call : Call) (ctx : Context) (s : Store) :
    call.perform.Commits ctx s (Effect ctx s call) := by
  by_cases asks : call.asks = true
  · exact .of_readOnly (perform_readOnly asks) (.nothing call)
  · cases call with
    | register => exact .answering (Account.register_commits _) _
    | updateSelf => exact .answering (Account.updateSelf_commits _ _) _
    | postJob => exact .answering (Hiring.postJob_commits _ _) _
    | updateJob => exact .answering (Hiring.updateJob_commits _ _ _) _
    | removeJob => exact .answering (Hiring.removeJob_commits _ _) _
    | applyForJob => exact .answering (Hiring.applyForJob_commits _ _ _) _
    | decideApplication => exact .answering (Hiring.decideApplication_commits _ _ _) _
    | moveMilestone => exact .answering (Delivery.moveMilestone_commits _ _ _) _
    | writeReview => exact .answering (Reputation.writeReview_commits _ _) _
    | sendMessage => exact .answering (Messaging.send_commits _ _) _
    | openThread => exact .answering (Messaging.openThread_commits _ _ _) _
    | markRead => exact .answering (Messaging.markRead_commits _ _) _
    | _ => exact absurd rfl asks

/-- Whatever a call ends with, the store is as one of its effects leaves it. -/
theorem Call.perform_effect (call : Call) (ctx : Context) (s : Store) :
    Effect ctx s call (call.perform ctx s).2 := by
  rcases call.perform_commits ctx s with ⟨f, failed⟩ | ⟨done, _⟩
  · rw [failed]
    exact .nothing call
  · exact done

/-- Under ordinary circumstances a call that fails leaves no trace. -/
theorem Call.perform_failed {call : Call} {f : Failure} (ordinary : Ordinary ctx s)
    (failed : call.perform ctx s = (.error f, s')) : s' = s := by
  rcases call.perform_commits ctx s with ⟨g, same⟩ | ⟨_, ends⟩
  · rw [failed] at same
    cases same
    rfl
  · obtain ⟨a, succeeded⟩ := ends ordinary
    rw [failed] at succeeded
    cases succeeded

theorem Call.answering_ok {α : Type} {act : Action α} {shown : α → Answer} {answer : Answer}
    (ok : answering act shown ctx s = (.ok answer, s')) : ∃ a, answer = shown a := by
  obtain ⟨a, _, _, last⟩ := Action.steps_ok ok
  cases last
  exact ⟨a, rfl⟩

/-- A call that does not fail is answered with a success. -/
theorem Call.perform_status {call : Call} {answer : Answer}
    (ok : call.perform ctx s = (.ok answer, s')) : answer.status < 400 := by
  have shows : (∃ body, answer = .ok body) ∨ (∃ body, answer = .created body) ∨
      answer = .noContent := by
    cases call with
    | health =>
        cases ok
        exact .inl ⟨_, rfl⟩
    | whoAmI =>
        cases ok
        exact .inl ⟨_, rfl⟩
    | register =>
        obtain ⟨_, rfl⟩ := answering_ok ok
        exact .inr (.inl ⟨_, rfl⟩)
    | postJob =>
        obtain ⟨_, rfl⟩ := answering_ok ok
        exact .inr (.inl ⟨_, rfl⟩)
    | applyForJob =>
        obtain ⟨_, rfl⟩ := answering_ok ok
        exact .inr (.inl ⟨_, rfl⟩)
    | writeReview =>
        obtain ⟨_, rfl⟩ := answering_ok ok
        exact .inr (.inl ⟨_, rfl⟩)
    | sendMessage =>
        obtain ⟨_, rfl⟩ := answering_ok ok
        exact .inr (.inl ⟨_, rfl⟩)
    | markRead =>
        obtain ⟨_, rfl⟩ := answering_ok ok
        exact .inr (.inr rfl)
    | _ =>
        obtain ⟨_, rfl⟩ := answering_ok ok
        exact .inl ⟨_, rfl⟩
  rcases shows with ⟨body, rfl⟩ | ⟨body, rfl⟩ | rfl
  · change 200 < 400
    omega
  · change 201 < 400
    omega
  · change 204 < 400
    omega

end GigBoard
