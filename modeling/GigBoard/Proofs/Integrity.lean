import GigBoard.Proofs.Rows
import GigBoard.Store.Social

/-!
# Integrity of the store

`Sound` says that a store satisfies all constraints of its tables: keys without repetition, references
to rows that exist, and values that fit their columns.  `Readable` says that all its times can be read
back.  That the statements which write keep both is shown in `GigBoard.Proofs.Statements`.
-/

set_option autoImplicit false

namespace GigBoard.Store

open Account (User)
open Delivery (Milestone)
open Hiring (Application Job)
open Messaging (Message)
open Reputation (Review)
open Rows (Unique)

/-- No key and no other unique column has a value twice. -/
structure Keyed (s : Store) : Prop where
  userId : Unique User.id s.users
  wallet : Unique User.walletAddress s.users
  username : Unique User.username s.users
  jobId : Unique Job.id s.jobs
  milestoneId : Unique Milestone.id s.milestones
  milestonePlace : Unique (fun m => (m.jobId, m.order)) s.milestones
  applicationId : Unique Application.id s.applications
  applicant : Unique (fun a => (a.jobId, a.freelancerId)) s.applications
  messageId : Unique Message.id s.messages
  reviewId : Unique Review.id s.reviews
  reviewer : Unique (fun r => (r.jobId, r.reviewerId)) s.reviews

/-- Whatever a row refers to is there. -/
structure Linked (s : Store) : Prop where
  jobClient : ∀ j ∈ s.jobs, s.hasUser j.clientId
  jobFreelancer : ∀ j ∈ s.jobs, ∀ f, j.freelancerId = some f → s.hasUser f
  milestoneJob : ∀ m ∈ s.milestones, s.hasJob m.jobId
  applicationJob : ∀ a ∈ s.applications, s.hasJob a.jobId
  applicationFreelancer : ∀ a ∈ s.applications, s.hasUser a.freelancerId
  messageSender : ∀ m ∈ s.messages, s.hasUser m.senderId
  messageReceiver : ∀ m ∈ s.messages, s.hasUser m.receiverId
  messageJob : ∀ m ∈ s.messages, ∀ j, m.jobId = some j → s.hasJob j
  reviewJob : ∀ r ∈ s.reviews, s.hasJob r.jobId
  reviewReviewer : ∀ r ∈ s.reviews, s.hasUser r.reviewerId
  reviewReviewee : ∀ r ∈ s.reviews, s.hasUser r.revieweeId

structure Every (user : User → Bool) (job : Job → Bool) (milestone : Milestone → Bool)
    (application : Application → Bool) (message : Message → Bool) (review : Review → Bool)
    (s : Store) : Prop where
  users : ∀ u ∈ s.users, user u = true
  jobs : ∀ j ∈ s.jobs, job j = true
  milestones : ∀ m ∈ s.milestones, milestone m = true
  applications : ∀ a ∈ s.applications, application a = true
  messages : ∀ m ∈ s.messages, message m = true
  reviews : ∀ r ∈ s.reviews, review r = true

def Fitting (s : Store) : Prop :=
  s.Every User.fits Job.fits Milestone.fits Application.fits Message.fits Review.fits

def Readable (s : Store) : Prop :=
  s.Every User.isReadable Job.isReadable Milestone.isReadable Application.isReadable
    Message.isReadable Review.isReadable

/-- A store that satisfies all constraints of its tables. -/
structure Sound (s : Store) : Prop where
  keyed : s.Keyed
  linked : s.Linked
  fitting : s.Fitting

theorem empty_sound : empty.Sound where
  keyed := by constructor <;> exact List.nodup_nil
  linked := by constructor <;> intro _ member <;> cases member
  fitting := by constructor <;> intro _ member <;> cases member

theorem empty_readable : empty.Readable := by
  constructor <;> intro _ member <;> cases member

/-! ## References -/

theorem hasUser_iff (s : Store) (id : Uuid) : s.hasUser id ↔ ∃ u ∈ s.users, u.id = id := by
  simp [hasUser]

theorem hasJob_iff (s : Store) (id : Uuid) : s.hasJob id ↔ ∃ j ∈ s.jobs, j.id = id := by
  simp [hasJob]

/-- Who is there depends on the identifiers of the users only. -/
theorem hasUser_congr {s s' : Store} (same : s'.users.map User.id = s.users.map User.id)
    (id : Uuid) : s'.hasUser id = s.hasUser id := by
  have byIds : ∀ t : Store, t.hasUser id = (t.users.map User.id).any (· = id) := by
    intro t
    simp [hasUser, List.any_map, Function.comp_def]
  rw [byIds, byIds, same]

theorem hasJob_congr {s s' : Store} (same : s'.jobs.map Job.id = s.jobs.map Job.id)
    (id : Uuid) : s'.hasJob id = s.hasJob id := by
  have byIds : ∀ t : Store, t.hasJob id = (t.jobs.map Job.id).any (· = id) := by
    intro t
    simp [hasJob, List.any_map, Function.comp_def]
  rw [byIds, byIds, same]

/-- References stay good as long as no user goes. -/
theorem Linked.changeUsers {s : Store} (linked : s.Linked) (users : List User)
    (stay : ∀ id, s.hasUser id → { s with users := users }.hasUser id) :
    { s with users := users }.Linked where
  jobClient j hj := stay _ (linked.jobClient j hj)
  jobFreelancer j hj f hf := stay _ (linked.jobFreelancer j hj f hf)
  milestoneJob := linked.milestoneJob
  applicationJob := linked.applicationJob
  applicationFreelancer a ha := stay _ (linked.applicationFreelancer a ha)
  messageSender m hm := stay _ (linked.messageSender m hm)
  messageReceiver m hm := stay _ (linked.messageReceiver m hm)
  messageJob := linked.messageJob
  reviewJob := linked.reviewJob
  reviewReviewer r hr := stay _ (linked.reviewReviewer r hr)
  reviewReviewee r hr := stay _ (linked.reviewReviewee r hr)

/-- References stay good as long as no job goes and the jobs refer to users who are there. -/
theorem Linked.changeJobs {s : Store} (linked : s.Linked) (jobs : List Job)
    (stay : ∀ id, s.hasJob id → { s with jobs := jobs }.hasJob id)
    (clients : ∀ j ∈ jobs, s.hasUser j.clientId)
    (freelancers : ∀ j ∈ jobs, ∀ f, j.freelancerId = some f → s.hasUser f) :
    { s with jobs := jobs }.Linked where
  jobClient := clients
  jobFreelancer := freelancers
  milestoneJob m hm := stay _ (linked.milestoneJob m hm)
  applicationJob a ha := stay _ (linked.applicationJob a ha)
  applicationFreelancer := linked.applicationFreelancer
  messageSender := linked.messageSender
  messageReceiver := linked.messageReceiver
  messageJob m hm j hj := stay _ (linked.messageJob m hm j hj)
  reviewJob r hr := stay _ (linked.reviewJob r hr)
  reviewReviewer := linked.reviewReviewer
  reviewReviewee := linked.reviewReviewee

end GigBoard.Store
