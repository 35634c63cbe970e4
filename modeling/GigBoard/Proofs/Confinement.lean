import GigBoard.Proofs.Faults
import GigBoard.Proofs.JobViews
import GigBoard.Proofs.Reviews
import GigBoard.Proofs.StorableTexts

/-!
# Calls that fail internally

A call fails internally only if the store refuses a text of it, or more milestones than it adds at
once, or a row of somebody who is not there.  Whatever is loaded to be shown is there, and no count
leaves its range, so no other internal failure is ever met.
-/

set_option autoImplicit false

namespace GigBoard

open Account (ProfileChange Registration)
open Delivery (Milestone)
open Hiring (Application Job JobChange JobChangeForm JobForm JobQuery MilestoneForm StatusForm)
open Messaging (Message MessageForm)
open Reputation (Review ReviewForm)

variable {ctx : Context} {s : Store}

/-! ## Calls at fault -/

/-- A job is posted with more milestones than one statement adds. -/
def Call.Crowded : Call → Prop
  | .postJob _ form => Store.greatestBatch < (form.milestones.getD []).length
  | _ => False

def Call.ByStranger (s : Store) : Call → Prop
  | .postJob caller _ => ¬s.hasUser caller = true
  | .applyForJob caller _ _ => ¬s.hasUser caller = true
  | _ => False

theorem Call.Crowded.exists {call : Call} (crowded : call.Crowded) :
    ∃ caller form, call = .postJob caller form ∧
      Store.greatestBatch < (form.milestones.getD []).length := by
  cases call with
  | postJob caller form => exact ⟨caller, form, rfl, crowded⟩
  | _ => exact crowded.elim

theorem Call.ByStranger.exists {call : Call} (stranger : call.ByStranger s) :
    (∃ caller form, call = .postJob caller form ∧ ∀ u ∈ s.users, u.id ≠ caller) ∨
      ∃ caller id form, call = .applyForJob caller id form ∧ ∀ u ∈ s.users, u.id ≠ caller := by
  have nobody {caller : Uuid} (unknown : ¬s.hasUser caller = true) : ∀ u ∈ s.users, u.id ≠ caller :=
    fun u hu same => unknown ((s.hasUser_iff caller).mpr ⟨u, hu, same⟩)
  cases call with
  | postJob caller form => exact .inl ⟨caller, form, rfl, nobody stranger⟩
  | applyForJob caller id form => exact .inr ⟨caller, id, form, rfl, nobody stranger⟩
  | _ => exact stranger.elim

/-! ## Circumstances -/

/-- The identifiers made up for a request are new, and those that one job and its milestones can use
are all different. -/
structure Context.MintsNew (ctx : Context) (s : Store) : Prop where
  job : ∀ j ∈ s.jobs, j.id ≠ ctx.freshId 0
  message : ∀ m ∈ s.messages, m.id ≠ ctx.freshId 0
  milestone : ∀ m ∈ s.milestones, ∀ n ≤ Store.greatestBatch, m.id ≠ ctx.freshId n
  distinct : ∀ m ≤ Store.greatestBatch, ∀ n ≤ Store.greatestBatch,
    ctx.freshId m = ctx.freshId n → m = n

/-- Nothing but the request itself can be at fault. -/
structure Untroubled (ctx : Context) (s : Store) : Prop where
  sound : s.Sound
  readable : s.Readable
  few : s.FewerThan (2 ^ 62)
  connected : ctx.connected = true
  timely : ctx.now.isRepresentable = true
  mints : ctx.MintsNew s

/-- Milestones of a new job clash with no others if their identifiers do not. -/
theorem Hiring.JobForm.Makes.apart {form : JobForm} {caller : Uuid} {job : Job} {ms : List Milestone}
    (makes : form.Makes caller ctx job ms) (linked : s.Linked)
    (unknown : ∀ j ∈ s.jobs, j.id ≠ job.id)
    (unused : Rows.Unique Milestone.id (s.milestones ++ ms)) :
    Store.anyMilestoneClash s.milestones ms = false := by
  rw [Rows.Unique, List.map_append, List.nodup_append] at unused
  obtain ⟨_, own, new⟩ := unused
  have placesApart : (ms.map Milestone.order).Nodup := by
    rw [makes.places]
    exact List.nodup_range.map Int.ofNat_injective
  refine Store.anyMilestoneClash_of_apart (fun m hm o ho => ?_) ?_
  · refine Store.milestonesClash_eq_false.mpr
      ⟨(new _ (List.mem_map_of_mem ho) _ (List.mem_map_of_mem hm)).symm, fun same => ?_⟩
    -- The job is new, so no stored milestone is one of its own.
    have sameJob : m.jobId = o.jobId := (Prod.ext_iff.mp same).1
    obtain ⟨k, hk, isIts⟩ := (Store.hasJob_iff s o.jobId).mp (linked.milestoneJob o ho)
    exact unknown k hk (isIts.trans (sameJob.symm.trans (makes.its m hm)))
  · have pairwise := (List.pairwise_map.mp own).and (List.pairwise_map.mp placesApart)
    exact pairwise.imp fun apart => Store.milestonesClash_eq_false.mpr
      ⟨apart.1, fun same => apart.2 (Prod.ext_iff.mp same).2⟩

theorem Context.MintsNew.unused (mints : ctx.MintsNew s) (keyed : s.Keyed) {form : JobForm}
    {caller : Uuid} {job : Job} {ms : List Milestone} (makes : form.Makes caller ctx job ms)
    (few : ms.length ≤ Store.greatestBatch) : Rows.Unique Milestone.id (s.milestones ++ ms) := by
  rw [Rows.Unique, List.map_append, makes.ids, List.nodup_append]
  refine ⟨keyed.milestoneId, ?_, ?_⟩
  · refine List.Nodup.map_on (fun m hm n hn same => ?_) List.nodup_range
    rw [List.mem_range] at hm hn
    have := mints.distinct (m + 1) (by omega) (n + 1) (by omega) same
    omega
  · intro id stored id' made
    obtain ⟨o, ho, rfl⟩ := List.mem_map.mp stored
    obtain ⟨place, inRange, rfl⟩ := List.mem_map.mp made
    rw [List.mem_range] at inRange
    exact mints.milestone o ho (place + 1) (by omega)

/-! ## Questions -/

open GigBoard.Action (Confined)

section Questions

variable {refused orphaned : Prop}

/-- What is asked about a job fails only if the job is missing. -/
theorem Action.Confined.ofJob {β : Type} {id : Uuid} {next : Job → Action β}
    (readable : s.Readable) (connected : ctx.connected = true)
    (succeeds : ∀ j, s.FindsJob id j →
      (Action.connect >>= fun _ => Hiring.findJob id >>= next).Succeeds ctx s) :
    (Action.connect >>= fun _ => Hiring.findJob id >>= next).Confined ctx s refused orphaned := by
  by_cases found : ∃ j, s.FindsJob id j
  · obtain ⟨j, found⟩ := found
    exact .of_succeeds (succeeds j found)
  · exact .connect connected (.findJob readable fun j isJob => absurd ⟨j, isJob⟩ found)

theorem Store.newestJobs_of_readable (readable : s.Readable) (limit : Int) (has : Job → Bool) :
    ∃ jobs, newestJobs limit has s = .ok jobs := by
  refine ⟨_, readRows_of_all fun j hj => readable.jobs j ?_⟩
  have member := List.mem_of_mem_drop (List.mem_of_mem_take hj)
  rw [List.mem_mergeSort] at member
  exact (List.mem_filter.mp member).1

theorem Account.showSelf_confined (untroubled : Untroubled ctx s) (caller : Uuid) :
    (showSelf caller).Confined ctx s refused orphaned := by
  have readable := untroubled.readable
  refine .connect untroubled.connected (.query (Store.readRow_of_readable readable.users _) ?_)
  exact .expect nofun fun _ _ => .done

theorem Account.showProfile_confined (untroubled : Untroubled ctx s) (id : Uuid) :
    (showProfile id).Confined ctx s refused orphaned := by
  have readable := untroubled.readable
  refine .connect untroubled.connected (.query (Store.readRow_of_readable readable.users _) ?_)
  refine .expect nofun fun u _ => .query rfl (.query rfl ?_)
  obtain ⟨reviews, views, read, shown⟩ :=
    Reputation.window_shown untroubled.sound.linked readable id 0 profileReviews
  refine .query read (.query (Store.usersWithIds_of_readable readable _) ?_)
  rw [shown]
  obtain ⟨posted, arePosted⟩ :=
    Store.newestJobs_of_readable readable profileJobs fun j => j.clientId = id
  obtain ⟨taken, areTaken⟩ :=
    Store.newestJobs_of_readable readable profileJobs fun j => j.freelancerId = some id
  exact .bind_of_ok rfl (.query arePosted (.query areTaken .done))

theorem Reputation.listReviews_confined (untroubled : Untroubled ctx s) (user : Uuid)
    (q : PageQuery) : (listReviews user q).Confined ctx s refused orphaned := by
  by_cases known : s.hasUser user = true
  · exact .of_succeeds (listReviews_succeeds untroubled.few.reviews untroubled.sound.linked
      untroubled.readable known q untroubled.connected)
  · exact .connect untroubled.connected (.query rfl (.require nofun fun isKnown =>
      absurd isKnown known))

theorem Hiring.searchJobs_confined (untroubled : Untroubled ctx s) (q : JobQuery) :
    (searchJobs q).Confined ctx s (¬(Call.searchJobs q).Storable) orphaned := by
  by_cases sendable : ∃ f, q.filter = .ok f ∧ f.isSendable = true
  · obtain ⟨f, filtered, sendable⟩ := sendable
    exact .of_succeeds (searchJobs_succeeds untroubled.few.jobs untroubled.readable filtered
      sendable untroubled.connected)
  · refine .ofExcept q.filter_candid fun f filtered => .connect untroubled.connected ?_
    have unsendable : ¬f.isSendable = true := fun is => sendable ⟨f, filtered, is⟩
    intro g s' failed
    have counted : Action.query (Store.countJobs f) ctx s = (.error (.store .rejected), s) := by
      rw [Action.query, Store.countJobs, if_neg unsendable]
    rw [Action.bind_of_error counted] at failed
    cases failed
    exact .rejected fun storable => unsendable (JobQuery.filter_isSendable filtered storable)

theorem Messaging.countUnread_confined (untroubled : Untroubled ctx s) (caller : Uuid) :
    (countUnread caller).Confined ctx s refused orphaned :=
  .connect untroubled.connected nofun

theorem Messaging.loadThread_succeeds (linked : s.Linked) (readable : s.Readable)
    (caller other : Uuid) (job : Option Uuid) : (loadThread caller other job).Succeeds ctx s := by
  obtain ⟨views, loaded⟩ : ∃ views, loadThread caller other job ctx s = (.ok views, s) :=
    loadThread_of_readable linked (fun m hm => readable.messages m (mem_threadOf.mp hm).1)
      fun u hu _ => readable.users u hu
  exact ⟨views, congrArg Prod.fst loaded⟩

theorem Messaging.showInbox_confined (untroubled : Untroubled ctx s) (caller : Uuid)
    (q : InboxQuery) : (showInbox caller q).Confined ctx s refused orphaned := by
  have linked := untroubled.sound.linked
  have readable := untroubled.readable
  refine .connect untroubled.connected ?_
  split
  · exact .bind (.of_succeeds (loadThread_succeeds linked readable _ _ _)) fun _ _ _ => .done
  · exact .bind (.of_succeeds (loadConversations_succeeds linked readable caller)) fun _ _ _ => .done

end Questions

/-! ## Requests that change something -/

section Changes

variable {orphaned : Prop}

theorem Account.register_confined (untroubled : Untroubled ctx s) (form : Registration) :
    (register form).Confined ctx s (¬(Call.register form).Storable) orphaned := by
  refine .context (.ofExcept (form.toUser_candid _ _) fun u made => ?_)
  refine .connect untroubled.connected (.change (fun fault refused => ?_) fun _ s' added => ?_)
  · rcases Store.addUser_fault refused with ⟨rfl, unfit⟩ | rfl
    · exact .rejected fun storable => unfit (Registration.toUser_fits made storable)
    · exact .told nofun
  · have readable := (Effect.registered made added).readable untroubled.readable untroubled.timely
    refine .query (Store.readRow_of_readable readable.users _) ?_
    exact .expect nofun fun _ _ => .done

theorem Account.updateSelf_confined (untroubled : Untroubled ctx s) (caller : Uuid) (body : Json) :
    (updateSelf caller body).Confined ctx s (¬(Call.updateSelf caller body).Storable) orphaned := by
  refine .connect untroubled.connected ?_
  refine .query (Store.readRow_of_readable untroubled.readable.users _) ?_
  refine .expect nofun fun u found => ?_
  refine .ofExcept (ProfileChange.ofBody_candid _ _) fun change asked => ?_
  split
  · exact .done
  · refine .context (.change (fun fault refused => ?_) fun _ s' replaced => ?_)
    · rcases Store.replaceUser_fault refused with ⟨rfl, unfit⟩ | rfl
      · have fits := untroubled.sound.fitting.users u (Rows.mem_of_found found)
        exact .rejected fun storable => unfit (ProfileChange.ofBody_fits asked fits storable)
      · exact .told nofun
    · have readable := (Effect.accountChanged found asked replaced).readable untroubled.readable
        untroubled.timely
      refine .query (Store.readRow_of_readable readable.users _) ?_
      exact .expect nofun fun _ _ => .done

section Storing

variable {form : JobForm} {caller : Uuid} {job : Job} {ms : List Milestone}

/-- A job with its milestones is refused only for a text, for their number, or for want of its client. -/
theorem Hiring.storeJob_confined (makes : form.Makes caller ctx job ms) (linked : s.Linked)
    (unknown : ∀ j ∈ s.jobs, j.id ≠ job.id)
    (unused : ms.length ≤ Store.greatestBatch → Rows.Unique Milestone.id (s.milestones ++ ms)) :
    (storeJob job ms).Confined ctx s
      (¬(Call.postJob caller form).Storable ∨ (Call.postJob caller form).Crowded)
      ((Call.postJob caller form).ByStranger s) := by
  rw [storeJob_eq]
  refine .change (fun fault refused => ?_) fun _ s₁ added => .change_last fun fault refused => ?_
  · rcases Store.addJob_fault unknown refused with ⟨rfl, unfit⟩ | ⟨rfl, unlinked⟩
    · exact .rejected (.inl fun storable => unfit (makes.fits_iff.mp storable).1)
    · rw [makes.clientId, makes.freelancerId] at unlinked
      exact .orphaned fun known => unlinked ⟨known, nofun⟩
  · obtain ⟨_, _, _, _, rfl⟩ := Store.addJob_ok added
    have there : ∀ m ∈ ms, { s with jobs := s.jobs ++ [job] }.hasJob m.jobId = true := by
      intro m hm
      rw [makes.its m hm, Store.hasJob_iff]
      exact ⟨job, List.mem_append_right _ List.mem_cons_self, rfl⟩
    have apart (few : ms.length ≤ Store.greatestBatch) :
        Store.anyMilestoneClash { s with jobs := s.jobs ++ [job] }.milestones ms = false :=
      makes.apart (s := s) linked unknown (unused few)
    obtain ⟨rfl, many | unfit⟩ := Store.addMilestones_fault apart there refused
    · refine .rejected (.inr ?_)
      rw [Call.Crowded, makes.length_eq]
      exact many
    · exact .rejected (.inl fun storable => unfit (makes.fits_iff.mp storable).2)

theorem Hiring.storeJob_internal {f : Failure} {s' : Store}
    (failed : storeJob job ms ctx s = (.error f, s')) : f.IsInternal := by
  rw [storeJob_eq] at failed
  cases added : Store.addJob job s with
  | error fault =>
      rw [Action.bind_of_error (Action.change_of_error added)] at failed
      cases failed
      exact Store.addJob_internal added
  | ok stored =>
      rw [Action.bind_of_ok (Action.change_of_ok added)] at failed
      cases planned : Store.addMilestones ms stored.2 with
      | error fault =>
          rw [Action.change_of_error planned] at failed
          cases failed
          exact Store.addMilestones_internal planned
      | ok planned' =>
          rw [Action.change_of_ok planned] at failed
          cases failed

/-- More milestones than one statement adds are never stored. -/
theorem Hiring.storeJob_of_crowd (many : Store.greatestBatch < ms.length) :
    ∃ f s', storeJob job ms ctx s = (.error f, s') ∧ f.IsInternal := by
  rcases ended : storeJob job ms ctx s with ⟨f | _, s'⟩
  · exact ⟨f, s', rfl, storeJob_internal ended⟩
  · obtain ⟨s₁, _, planned⟩ := storeJob_ensures job ms () s' ended
    rw [Store.addMilestones, decide_eq_true many, Bool.true_or, if_pos rfl] at planned
    cases planned

end Storing

theorem Hiring.postJob_of_unstored {caller : Uuid} {form : JobForm} {job : Job} {ms : List Milestone}
    {f : Failure} {s₁ : Store} (connected : ctx.connected = true)
    (made : form.toRows caller ctx = .ok (job, ms))
    (failed : storeJob job ms ctx s = (.error f, s₁)) :
    postJob caller form ctx s = (.error f, s) := by
  unfold postJob
  refine (Action.bind_of_ok rfl).trans ?_
  rw [made]
  refine (Action.bind_of_ok rfl).trans
    ((Action.bind_of_ok (Action.connect_of_connected connected)).trans (Action.bind_of_error ?_))
  rw [Action.transaction, failed]

theorem Hiring.postJob_of_crowd {caller : Uuid} {form : JobForm} {job : Job} {ms : List Milestone}
    (connected : ctx.connected = true) (made : form.toRows caller ctx = .ok (job, ms))
    (crowded : (Call.postJob caller form).Crowded) :
    ∃ f s', postJob caller form ctx s = (.error f, s') ∧ f.IsInternal := by
  rw [Call.Crowded, (JobForm.toRows_eq_ok_iff.mp made).length_eq] at crowded
  obtain ⟨f, s₁, failed, internal⟩ : ∃ f s₁, storeJob job ms ctx s = (.error f, s₁) ∧
      f.IsInternal := storeJob_of_crowd crowded
  exact ⟨f, s, postJob_of_unstored connected made failed, internal⟩

theorem Hiring.postJob_confined (untroubled : Untroubled ctx s) (caller : Uuid) (form : JobForm) :
    (postJob caller form).Confined ctx s
      (¬(Call.postJob caller form).Storable ∨ (Call.postJob caller form).Crowded)
      ((Call.postJob caller form).ByStranger s) := by
  refine .context (.ofExcept (form.toRows_candid _ _) ?_)
  rintro ⟨job, ms⟩ made
  have makes := JobForm.toRows_eq_ok_iff.mp made
  have unknown : ∀ j ∈ s.jobs, j.id ≠ job.id := makes.id ▸ untroubled.mints.job
  have confined := storeJob_confined makes untroubled.sound.linked unknown
    (untroubled.mints.unused untroubled.sound.keyed makes)
  refine .connect untroubled.connected (.bind (.transaction confined) ?_)
  intro _ s' stored
  obtain ⟨s₁, added, planned⟩ := storeJob_ensures job ms () s' (Action.transaction_ok stored)
  have readable := (Effect.jobPosted made added planned).readable untroubled.readable
    untroubled.timely
  exact .findJob readable fun j _ => .of_succeeds (viewJob_succeeds readable j _)

theorem Hiring.updateJob_confined (untroubled : Untroubled ctx s) (caller id : Uuid)
    (form : JobChangeForm) :
    (updateJob caller id form).Confined ctx s (¬(Call.updateJob caller id form).Storable)
      orphaned := by
  refine .connect untroubled.connected (.findJob untroubled.readable fun j found => ?_)
  refine .require nofun fun owned => .ofExcept (JobChange.ofForm_candid _ _) fun change asked => ?_
  refine .context (.change (fun fault refused => ?_) fun _ s' replaced => ?_)
  · obtain ⟨rfl, unfit⟩ := Store.replaceJob_fault refused
    have fits := untroubled.sound.fitting.jobs j found.mem
    exact .rejected fun storable => unfit (JobChange.ofForm_fits asked fits storable)
  · have readable := (Effect.jobChanged found (of_decide_eq_true owned) asked replaced).readable
      untroubled.readable untroubled.timely
    exact .findJob readable fun k _ => .of_succeeds (viewJob_succeeds readable k _)

theorem Hiring.removeJob_confined (untroubled : Untroubled ctx s) (caller id : Uuid)
    {refused : Prop} : (removeJob caller id).Confined ctx s refused orphaned := by
  refine .connect untroubled.connected (.findJob untroubled.readable fun j _ => ?_)
  exact .require nofun fun _ => .change nofun fun _ _ _ => .require_last nofun

theorem Hiring.applyForJob_confined (untroubled : Untroubled ctx s) (caller id : Uuid)
    (form : Hiring.ApplicationForm) :
    (applyForJob caller id form).Confined ctx s (¬(Call.applyForJob caller id form).Storable)
      ((Call.applyForJob caller id form).ByStranger s) := by
  refine .connect untroubled.connected (.findJob untroubled.readable fun job found => ?_)
  refine .ofExcept (checkApplicant_candid _ _) fun _ free => ?_
  refine .ofExcept (positiveAmount_candid _ _) fun budget offered => .context ?_
  refine .change (fun fault refused => ?_) fun _ s' added => ?_
  · rcases Store.addApplication_fault refused with ⟨rfl, unfit⟩ | rfl | ⟨rfl, unlinked⟩
    · refine .rejected fun storable => unfit ?_
      exact (Text.fits_getD (storable _ List.mem_cons_self)).isStorable
    · exact .told nofun
    · exact .orphaned fun known =>
        unlinked ⟨(Store.hasJob_iff s id).mpr ⟨job, found.mem, found.id_eq⟩, known⟩
  · have effect := Effect.applied found free offered added
    have readable := effect.readable untroubled.readable untroubled.timely
    obtain ⟨_, fresh, _, known, rfl⟩ := Store.addApplication_ok added
    have again := Rows.find?_append_one Application.id fun b hb => (fresh b hb).1
    refine .query (Store.readRow_of_found readable.applications again) (.bind_of_ok rfl ?_)
    refine .query (Store.usersWithIds_of_readable readable _) ?_
    exact .of_succeeds (withFreelancer_succeeds known (List.mem_singleton.mpr rfl))

theorem Hiring.carryOut_confined (untroubled : Untroubled ctx s) (caller id : Uuid)
    (decision : Hiring.Decision) {refused : Prop} :
    (carryOut caller id decision).Confined ctx s refused orphaned := by
  obtain ⟨row, read⟩ := Store.readPair_of_readable Application.jobId
    untroubled.readable.applications untroubled.readable.jobs fun a => decide (a.id = id)
  refine .query read (.expect nofun ?_)
  rintro ⟨a, job⟩ rfl
  obtain ⟨found, _⟩ := Store.readPair_ok read
  refine .require nofun fun _ => .require nofun fun _ => .context (.change nofun fun _ s₁ set => ?_)
  have readable := Store.setApplicationStatus_readable untroubled.readable untroubled.timely set
  cases Store.setApplicationStatus_ok set
  cases decision with
  | reject =>
      refine .bind_of_ok rfl (.query (Store.readRow_of_readable readable.applications _) ?_)
      exact .expect_last nofun
  | accept =>
      refine .bind (.change (fun fault refused => ?_) fun _ _ _ => .require_last nofun) ?_
      · -- The freelancer of the application is there by reference.
        have known := untroubled.sound.linked.applicationFreelancer a (Rows.mem_of_found found)
        have unknown := Store.assignJob_fault refused
        exact absurd known unknown
      · intro _ s₂ assigning
        obtain ⟨count, assigned, _⟩ := assign_ensures a job ctx.now () s₂ assigning
        have readable := Store.assignJob_readable readable untroubled.timely assigned
        refine .query (Store.readRow_of_readable readable.applications _) ?_
        exact .expect_last nofun

theorem Hiring.decideApplication_confined (untroubled : Untroubled ctx s) (caller id : Uuid)
    (form : StatusForm) {refused : Prop} :
    (decideApplication caller id form).Confined ctx s refused orphaned := by
  refine .ofExcept (Decision.ofForm_candid form) fun decision asked => ?_
  refine .connect untroubled.connected ?_
  refine .bind (.transaction (carryOut_confined untroubled caller id decision)) fun a s' wrote => ?_
  obtain ⟨effect, found⟩ := carryOut_ensures asked a s' (Action.transaction_ok wrote)
  have readable := effect.readable untroubled.readable untroubled.timely
  have sound := effect.sound untroubled.sound
  refine .query (Store.usersWithIds_of_readable readable _) (.of_succeeds ?_)
  apply withFreelancer_succeeds
  · exact sound.linked.applicationFreelancer a (Rows.mem_of_found found)
  · exact List.mem_singleton.mpr rfl

theorem Delivery.moveMilestone_confined (untroubled : Untroubled ctx s) (caller id : Uuid)
    (form : StatusForm) {refused : Prop} :
    (moveMilestone caller id form).Confined ctx s refused orphaned := by
  refine .ofExcept (statusOfForm_candid form) fun target _ => .connect untroubled.connected ?_
  refine .bind (.transaction ?_) fun _ _ _ => .done
  obtain ⟨row, read⟩ := Store.readPair_of_readable Milestone.jobId
    untroubled.readable.milestones untroubled.readable.jobs fun m => decide (m.id = id)
  refine .query read (.expect nofun ?_)
  rintro ⟨m, job⟩ rfl
  refine .expect nofun fun party _ => .require nofun fun _ => ?_
  refine .ofExcept (checkMove_candid _ _ _) fun _ _ => .context (.change nofun fun _ s₁ set => ?_)
  have readable := Store.setMilestoneStatus_readable untroubled.readable untroubled.timely set
  exact .query (Store.readRow_of_readable readable.milestones _) (.expect_last nofun)

theorem Reputation.ReviewForm.verdict_isRating {form : ReviewForm} {verdict : Reputation.Verdict}
    (said : form.verdict = .ok verdict) : Review.isRating verdict.rating = true := by
  unfold Reputation.ReviewForm.verdict at said
  split at said
  · cases said
  · cases said
  · cases said
  · split at said
    · cases said
      assumption
    · cases said

/-- Both sides of a review that may be written have accounts. -/
theorem Store.Linked.reviewers {q : Review} {j : Job} (linked : s.Linked) (hj : j ∈ s.jobs)
    (between : q.BetweenParties j) :
    s.hasUser q.reviewerId = true ∧ s.hasUser q.revieweeId = true := by
  obtain ⟨f, assigned, ⟨isReviewer, isReviewee⟩ | ⟨isReviewer, isReviewee⟩⟩ := between
  · rw [isReviewer, isReviewee]
    exact ⟨linked.jobClient j hj, linked.jobFreelancer j hj f assigned⟩
  · rw [isReviewer, isReviewee]
    exact ⟨linked.jobFreelancer j hj f assigned, linked.jobClient j hj⟩

theorem Reputation.writeReview_confined (untroubled : Untroubled ctx s) (caller : Uuid)
    (form : ReviewForm) :
    (writeReview caller form).Confined ctx s (¬(Call.writeReview caller form).Storable)
      orphaned := by
  refine .ofExcept form.verdict_candid fun verdict said => .connect untroubled.connected ?_
  refine .findJob untroubled.readable fun job found => ?_
  refine .ofExcept (checkReviewer_candid _ _ _) fun _ allowed => .context ?_
  refine .change (fun fault refused => ?_) fun _ s' added => ?_
  · rcases Store.addReview_fault refused with ⟨rfl, unfit⟩ | rfl | ⟨rfl, unlinked⟩
    · refine .rejected fun storable => unfit ?_
      have comment := (Text.fits_getD (storable _ List.mem_cons_self)).isStorable
      rw [Review.fits, Bool.and_eq_true]
      exact ⟨ReviewForm.verdict_isRating said, comment⟩
    · refine .told fun internal => ?_
      cases internal
    · have known := (Store.hasJob_iff s verdict.jobId).mpr ⟨job, found.mem, found.id_eq⟩
      refine (unlinked ⟨known, untroubled.sound.linked.reviewers found.mem ?_⟩).elim
      exact betweenParties_of_checkReviewer allowed
  · have effect := Effect.reviewed said found allowed added
    have readable := effect.readable untroubled.readable untroubled.timely
    obtain ⟨_, fresh, _, known, _, rfl⟩ := Store.addReview_ok added
    have again := Rows.find?_append_one Review.id fun q hq => (fresh q hq).1
    obtain ⟨u, hu⟩ := Store.user_of_known known
    refine .query (Store.readRow_of_found readable.reviews again) (.bind_of_ok rfl ?_)
    refine .query (Store.readRow_of_found readable.users hu) (.bind_of_ok rfl ?_)
    have shown : Account.among [u] caller = some u := by
      simp [Account.among, Rows.key_of_found hu]
    rw [ReviewView.make, Account.summaryAmong, shown]
    exact .done

theorem Messaging.MessageForm.parts_content {form : MessageForm} {receiver : Uuid}
    {content : String} (written : form.parts = .ok (receiver, content)) :
    form.content = some content := by
  unfold parts at written
  split at written
  · rename_i isContent
    split at written
    · cases written
      exact isContent
    · cases written
  · cases written

theorem Messaging.send_confined (untroubled : Untroubled ctx s) (caller : Uuid)
    (form : MessageForm) :
    (send caller form).Confined ctx s (¬(Call.sendMessage caller form).Storable) orphaned := by
  refine .ofExcept form.parts_candid ?_
  rintro ⟨receiver, content⟩ written
  refine .context (.connect untroubled.connected (.change (fun fault refused => ?_) ?_))
  · rcases Store.addMessage_fault untroubled.mints.message refused with ⟨rfl, unfit⟩ | rfl
    · refine .rejected fun storable => unfit ?_
      exact (storable _ List.mem_cons_self content (MessageForm.parts_content written)).isStorable
    · exact .told nofun
  · intro _ s' added
    have effect := Effect.messageSent written added
    have readable := effect.readable untroubled.readable untroubled.timely
    obtain ⟨_, fresh, sender, receiver, _, rfl⟩ := Store.addMessage_ok added
    have again := Rows.find?_append_one Message.id fresh
    refine .query (Store.readRow_of_found readable.messages again) (.bind_of_ok rfl ?_)
    refine .query (Store.usersWithIds_of_readable readable _) (.of_succeeds ?_)
    apply withBoth_succeeds
    · exact sender
    · exact receiver
    · exact List.mem_cons_self
    · exact List.mem_cons_of_mem _ List.mem_cons_self

theorem Messaging.openThread_confined (untroubled : Untroubled ctx s) (caller other : Uuid)
    (job : Option Uuid) {refused : Prop} :
    (openThread caller other job).Confined ctx s refused orphaned := by
  have readable := untroubled.readable
  refine .connect untroubled.connected ?_
  refine .bind (.of_succeeds (loadThread_succeeds untroubled.sound.linked readable _ _ _)) ?_
  exact fun _ _ _ => .change nofun fun _ _ _ => .done

theorem Messaging.markRead_confined (untroubled : Untroubled ctx s) (caller id : Uuid)
    {refused : Prop} : (markRead caller id).Confined ctx s refused orphaned :=
  .connect untroubled.connected (.change nofun fun _ _ _ => .require_last nofun)

end Changes

/-! ## Calls -/

/-- A call fails internally only if the store refuses a text of it, or more milestones than it adds at
once, or a row of somebody who is not there. -/
theorem Call.perform_confined (untroubled : Untroubled ctx s) (call : Call) :
    call.perform.Confined ctx s (¬call.Storable ∨ call.Crowded) (call.ByStranger s) := by
  have linked := untroubled.sound.linked
  have readable := untroubled.readable
  have few := untroubled.few
  have connected := untroubled.connected
  cases call with
  | health => exact .done
  | whoAmI who => exact .done
  | register form =>
      exact (.answering ((Account.register_confined untroubled form).imp .inl) _)
  | showSelf caller => exact .answering (Account.showSelf_confined untroubled caller) _
  | updateSelf caller body =>
      exact .answering ((Account.updateSelf_confined untroubled caller body).imp .inl) _
  | showProfile user => exact .answering (Account.showProfile_confined untroubled user) _
  | listReviews user page =>
      exact .answering (Reputation.listReviews_confined untroubled user page) _
  | searchJobs query =>
      exact .answering ((Hiring.searchJobs_confined untroubled query).imp .inl) _
  | postJob caller form => exact .answering (Hiring.postJob_confined untroubled caller form) _
  | showJob job =>
      exact .answering (.ofJob readable connected fun j found =>
        Hiring.showJob_succeeds linked readable found connected) _
  | updateJob caller job form =>
      exact .answering ((Hiring.updateJob_confined untroubled caller job form).imp .inl) _
  | removeJob caller job => exact .answering (Hiring.removeJob_confined untroubled caller job) _
  | listMilestones job =>
      exact .answering (.ofJob readable connected fun j found =>
        Hiring.listMilestones_succeeds readable found connected) _
  | applyForJob caller job form =>
      exact .answering ((Hiring.applyForJob_confined untroubled caller job form).imp .inl) _
  | listApplications job page =>
      exact .answering (.ofJob readable connected fun j found =>
        Hiring.listApplications_succeeds few.applications linked readable found page connected) _
  | listOwnApplications caller page =>
      exact .answering (.of_succeeds
        (Hiring.listOwnApplications_succeeds few.applications readable caller page connected)) _
  | decideApplication caller application form =>
      exact .answering (Hiring.decideApplication_confined untroubled caller application form) _
  | moveMilestone caller milestone form =>
      exact .answering (Delivery.moveMilestone_confined untroubled caller milestone form) _
  | writeReview caller form =>
      exact .answering ((Reputation.writeReview_confined untroubled caller form).imp .inl) _
  | showInbox caller query =>
      exact .answering (Messaging.showInbox_confined untroubled caller query) _
  | sendMessage caller form =>
      exact .answering ((Messaging.send_confined untroubled caller form).imp .inl) _
  | countUnread caller => exact .answering (Messaging.countUnread_confined untroubled caller) _
  | openThread caller other job =>
      exact .answering (Messaging.openThread_confined untroubled caller other job) _
  | markRead caller message =>
      exact .answering (Messaging.markRead_confined untroubled caller message) _

end GigBoard
