import GigBoard.Call
import GigBoard.Proofs.Forms
import GigBoard.Proofs.Statements

/-!
# Effects of calls

`Effect ctx s call s'` lists everything that a call can do to the store, with all that was found and
checked before.  Properties of the store that last are shown case by case for it, and never by looking
into a call again; that every call has such an effect is shown in `GigBoard.Proofs.Outcome`.
-/

set_option autoImplicit false

namespace GigBoard

open Hiring (Application Decision Job)
open Messaging (Message)
open Reputation (Review)

/-- The job that an application or a milestone found in the store belongs to, found there too. -/
def Store.FindsJob (s : Store) (id : Uuid) (j : Job) : Prop :=
  s.jobs.find? (fun k => decide (k.id = id)) = some j

theorem Store.FindsJob.mem {s : Store} {id : Uuid} {j : Job} (found : s.FindsJob id j) :
    j ∈ s.jobs :=
  Rows.mem_of_found found

theorem Store.FindsJob.id_eq {s : Store} {id : Uuid} {j : Job} (found : s.FindsJob id j) :
    j.id = id :=
  Rows.key_of_found found

/-- What a call can make of a store. -/
inductive Effect (ctx : Context) (s : Store) : Call → Store → Prop where
  | nothing (call : Call) : Effect ctx s call s
  | registered {form : Account.Registration} {u : Account.User} {s' : Store}
      (made : form.toUser (ctx.freshId 0) ctx.now = .ok u)
      (added : Store.addUser u s = .ok ((), s')) :
      Effect ctx s (.register form) s'
  | accountChanged {caller : Uuid} {body : Json} {u : Account.User}
      {change : Account.ProfileChange} {s' : Store}
      (found : s.users.find? (fun v => decide (v.id = caller)) = some u)
      (asked : Account.ProfileChange.ofBody body u = .ok change)
      (replaced : Store.replaceUser (change.apply u ctx.now) s = .ok ((), s')) :
      Effect ctx s (.updateSelf caller body) s'
  | jobPosted {caller : Uuid} {form : Hiring.JobForm} {job : Job}
      {milestones : List Delivery.Milestone} {s₁ s' : Store}
      (made : form.toRows caller ctx = .ok (job, milestones))
      (added : Store.addJob job s = .ok ((), s₁))
      (planned : Store.addMilestones milestones s₁ = .ok ((), s')) :
      Effect ctx s (.postJob caller form) s'
  | jobChanged {caller id : Uuid} {form : Hiring.JobChangeForm} {job : Job}
      {change : Hiring.JobChange} {s' : Store}
      (found : s.FindsJob id job) (owned : job.clientId = caller)
      (asked : Hiring.JobChange.ofForm form job = .ok change)
      (replaced : Store.replaceJob (change.apply job ctx.now) s = .ok ((), s')) :
      Effect ctx s (.updateJob caller id form) s'
  | jobRemoved {caller id : Uuid} {job : Job} {n : Nat} {s' : Store}
      (found : s.FindsJob id job) (owned : job.clientId = caller)
      (removed : Store.removeJob id s = .ok (n, s')) :
      Effect ctx s (.removeJob caller id) s'
  | applied {caller id : Uuid} {form : Hiring.ApplicationForm} {job : Job} {budget : Binary64}
      {s' : Store}
      (found : s.FindsJob id job) (free : Hiring.checkApplicant job caller = .ok ())
      (offered : Hiring.positiveAmount "proposedBudget" form.proposedBudget = .ok budget)
      (added : Store.addApplication
        { id := ctx.freshId 0
          jobId := id
          freelancerId := caller
          coverLetter := Text.trim (form.coverLetter.getD "")
          proposedBudget := budget
          status := .pending
          createdAt := ctx.now
          updatedAt := ctx.now } s = .ok ((), s')) :
      Effect ctx s (.applyForJob caller id form) s'
  | rejected {caller id : Uuid} {form : Hiring.StatusForm} {a : Application} {job : Job} {s' : Store}
      (asked : Decision.ofForm form = .ok .reject)
      (found : s.applications.find? (fun b => decide (b.id = id)) = some a)
      (of : s.FindsJob a.jobId job) (owned : job.clientId = caller) (pending : a.status = .pending)
      (set : Store.setApplicationStatus id .rejected ctx.now s = .ok ((), s')) :
      Effect ctx s (.decideApplication caller id form) s'
  | accepted {caller id : Uuid} {form : Hiring.StatusForm} {a : Application} {job : Job} {n : Nat}
      {s₁ s' : Store}
      (asked : Decision.ofForm form = .ok .accept)
      (found : s.applications.find? (fun b => decide (b.id = id)) = some a)
      (of : s.FindsJob a.jobId job) (owned : job.clientId = caller) (pending : a.status = .pending)
      (set : Store.setApplicationStatus id .accepted ctx.now s = .ok ((), s₁))
      (assigned : Store.assignJob job.id a.freelancerId ctx.now s₁ = .ok (n, s'))
      (open_ : n ≠ 0) :
      Effect ctx s (.decideApplication caller id form) s'
  | milestoneMoved {caller id : Uuid} {form : Hiring.StatusForm} {target : MilestoneStatus}
      {m : Delivery.Milestone} {job : Job} {party : Party} {s' : Store}
      (asked : Delivery.statusOfForm form = .ok target)
      (found : s.milestones.find? (fun o => decide (o.id = id)) = some m)
      (of : s.FindsJob m.jobId job) (side : job.party? caller = some party)
      (running : job.status = .inProgress)
      (allowed : m.status.mayBecome party target = true)
      (set : Store.setMilestoneStatus id target ctx.now s = .ok ((), s')) :
      Effect ctx s (.moveMilestone caller id form) s'
  | reviewed {caller : Uuid} {form : Reputation.ReviewForm} {verdict : Reputation.Verdict}
      {job : Job} {s' : Store}
      (said : form.verdict = .ok verdict) (found : s.FindsJob verdict.jobId job)
      (allowed : Reputation.checkReviewer job caller verdict.revieweeId = .ok ())
      (added : Store.addReview
        { id := ctx.freshId 0
          jobId := verdict.jobId
          reviewerId := caller
          revieweeId := verdict.revieweeId
          rating := verdict.rating
          comment := Text.trim (form.comment.getD "")
          createdAt := ctx.now } s = .ok ((), s')) :
      Effect ctx s (.writeReview caller form) s'
  | messageSent {caller receiver : Uuid} {form : Messaging.MessageForm} {content : String}
      {s' : Store}
      (written : form.parts = .ok (receiver, content))
      (added : Store.addMessage
        { id := ctx.freshId 0
          senderId := caller
          receiverId := receiver
          jobId := form.jobId
          content := content
          read := false
          createdAt := ctx.now } s = .ok ((), s')) :
      Effect ctx s (.sendMessage caller form) s'
  | threadRead {caller other : Uuid} {job : Option Uuid} {n : Nat} {s' : Store}
      (marked : Store.markRead (Messaging.isDueOnOpening caller other job) s = .ok (n, s')) :
      Effect ctx s (.openThread caller other job) s'
  | messageRead {caller id : Uuid} {n : Nat} {s' : Store}
      (marked : Store.markRead (fun m => m.id = id && m.receiverId = caller) s = .ok (n, s')) :
      Effect ctx s (.markRead caller id) s'

variable {ctx : Context} {s s' : Store} {call : Call}

/-- A call keeps the store sound. -/
theorem Effect.sound (effect : Effect ctx s call s') (sound : s.Sound) : s'.Sound := by
  cases effect with
  | nothing => exact sound
  | registered _ added => exact Store.addUser_sound sound added
  | accountChanged found _ replaced =>
      refine Store.replaceUser_sound sound ⟨_, Rows.mem_of_found found, ?_, ?_⟩ replaced
      · rfl
      · rfl
  | jobPosted _ added planned =>
      exact Store.addMilestones_sound (Store.addJob_sound sound added) planned
  | jobChanged found _ _ replaced =>
      refine Store.replaceJob_sound sound ⟨_, found.mem, ?_, ?_⟩ replaced
      · rfl
      · rfl
  | jobRemoved _ _ removed => exact Store.removeJob_sound sound removed
  | applied _ _ _ added => exact Store.addApplication_sound sound added
  | rejected _ _ _ _ _ set => exact Store.setApplicationStatus_sound sound set
  | accepted _ _ _ _ _ set assigned =>
      exact Store.assignJob_sound (Store.setApplicationStatus_sound sound set) assigned
  | milestoneMoved _ _ _ _ _ _ set => exact Store.setMilestoneStatus_sound sound set
  | reviewed _ _ _ added => exact Store.addReview_sound sound added
  | messageSent _ added => exact Store.addMessage_sound sound added
  | threadRead marked => exact Store.markRead_sound sound marked
  | messageRead marked => exact Store.markRead_sound sound marked

/-- A call at a time that can be read back keeps all times so. -/
theorem Effect.readable (effect : Effect ctx s call s') (readable : s.Readable)
    (timely : ctx.now.isRepresentable = true) : s'.Readable := by
  cases effect with
  | nothing => exact readable
  | registered made added =>
      obtain ⟨_, created, updated⟩ := Account.Registration.toUser_ok made
      apply Store.addUser_readable readable _ added
      rw [Account.User.isReadable, created, updated, timely]
      rfl
  | @accountChanged _ _ u change _ found _ replaced =>
      apply Store.replaceUser_readable readable _ replaced
      -- The time of the registration is that of the old row, and only the other one is new.
      have before := readable.users u (Rows.mem_of_found found)
      rw [Account.User.isReadable, Bool.and_eq_true] at before ⊢
      exact ⟨before.1, timely⟩
  | jobPosted made added planned =>
      have makes := Hiring.JobForm.toRows_eq_ok_iff.mp made
      refine Store.addMilestones_readable (Store.addJob_readable readable ?_ added) ?_ planned
      · rw [makes.isReadable, timely]
      · intro m hm
        rw [makes.milestone_isReadable m hm, timely]
  | @jobChanged _ _ _ job change _ found _ _ replaced =>
      apply Store.replaceJob_readable readable _ replaced
      have before := readable.jobs job found.mem
      rw [Job.isReadable, Bool.and_eq_true] at before ⊢
      exact ⟨before.1, timely⟩
  | jobRemoved _ _ removed => exact Store.removeJob_readable readable removed
  | applied _ _ _ added =>
      apply Store.addApplication_readable readable _ added
      rw [Application.isReadable, timely]
      rfl
  | rejected _ _ _ _ _ set => exact Store.setApplicationStatus_readable readable timely set
  | accepted _ _ _ _ _ set assigned =>
      have decided := Store.setApplicationStatus_readable readable timely set
      exact Store.assignJob_readable decided timely assigned
  | milestoneMoved _ _ _ _ _ _ set => exact Store.setMilestoneStatus_readable readable timely set
  | reviewed _ _ _ added =>
      apply Store.addReview_readable readable _ added
      rw [Review.isReadable]
      exact timely
  | messageSent _ added =>
      apply Store.addMessage_readable readable _ added
      rw [Message.isReadable]
      exact timely
  | threadRead marked => exact Store.markRead_readable readable marked
  | messageRead marked => exact Store.markRead_readable readable marked

def Hiring.Job.posting (j : Job) : Uuid × Timestamp := (j.id, j.createdAt)

theorem map_posting_of_kept {f : Job → Job} {jobs : List Job}
    (kept : ∀ j ∈ jobs, (f j).posting = j.posting) :
    (jobs.map f).map Job.posting = jobs.map Job.posting := by
  rw [List.map_map]
  exact List.map_congr_left kept

/-- The jobs that are there were there, or there is one more, with the identifier made up for the request
and its time. -/
theorem Effect.posting_sublist (sound : s.Sound) (effect : Effect ctx s call s') :
    (s'.jobs.map Job.posting).Sublist (s.jobs.map Job.posting ++ [(ctx.freshId 0, ctx.now)]) := by
  have same {t : Store} (unchanged : t.jobs.map Job.posting = s.jobs.map Job.posting) :
      (t.jobs.map Job.posting).Sublist (s.jobs.map Job.posting ++ [(ctx.freshId 0, ctx.now)]) := by
    rw [unchanged]
    exact List.sublist_append_left _ _
  cases effect with
  | nothing => exact same rfl
  | registered _ added =>
      obtain ⟨_, _, rfl⟩ := Store.addUser_ok added
      exact same rfl
  | accountChanged _ _ replaced =>
      obtain ⟨_, _, rfl⟩ := Store.replaceUser_ok replaced
      exact same rfl
  | jobPosted made added planned =>
      have makes := Hiring.JobForm.toRows_eq_ok_iff.mp made
      obtain ⟨_, _, _, _, rfl⟩ := Store.addJob_ok added
      obtain ⟨_, _, _, _, rfl⟩ := Store.addMilestones_ok planned
      rw [List.map_append, List.map_singleton, Job.posting, makes.createdAt, makes.id]
  | @jobChanged _ _ _ job change _ found _ _ replaced =>
      obtain ⟨_, rfl⟩ := Store.replaceJob_ok replaced
      refine same (map_posting_of_kept fun k hk => ?_)
      split
      · rename_i isIt
        rw [sound.keyed.jobId.eq_of_same hk found.mem isIt]
        rfl
      · rfl
  | jobRemoved _ _ removed =>
      obtain ⟨_, rfl⟩ := Store.removeJob_ok removed
      exact (List.filter_sublist.map _).trans (List.sublist_append_left _ _)
  | applied _ _ _ added =>
      obtain ⟨_, _, _, _, rfl⟩ := Store.addApplication_ok added
      exact same rfl
  | rejected _ _ _ _ _ set =>
      cases Store.setApplicationStatus_ok set
      exact same rfl
  | accepted _ _ _ _ _ set assigned =>
      cases Store.setApplicationStatus_ok set
      obtain ⟨_, _, rfl⟩ := Store.assignJob_ok assigned
      refine same (map_posting_of_kept fun k _ => ?_)
      unfold Store.assignedRow
      split <;> rfl
  | milestoneMoved _ _ _ _ _ _ set =>
      cases Store.setMilestoneStatus_ok set
      exact same rfl
  | reviewed _ _ _ added =>
      obtain ⟨_, _, _, _, _, rfl⟩ := Store.addReview_ok added
      exact same rfl
  | messageSent _ added =>
      obtain ⟨_, _, _, _, _, rfl⟩ := Store.addMessage_ok added
      exact same rfl
  | threadRead marked =>
      obtain ⟨_, rfl⟩ := Store.markRead_ok marked
      exact same rfl
  | messageRead marked =>
      obtain ⟨_, rfl⟩ := Store.markRead_ok marked
      exact same rfl

end GigBoard
