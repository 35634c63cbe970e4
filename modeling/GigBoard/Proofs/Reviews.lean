import GigBoard.Proofs.Milestones
import GigBoard.Proofs.Requests

/-!
# Reviews over runs

That a review is by one party to its job about the other is checked when it is written and never again.
It stays true all the same: a job keeps its client and, once it is assigned, its freelancer, whatever
else happens to it, and a review goes only together with its job.
-/

set_option autoImplicit false

namespace GigBoard

open Hiring (Job)
open Http (Request)
open Reputation (Review checkReviewer counterpart?)
open Store (Coherent)

variable {ctx : Context} {r : Request} {s s' : Store} {call : Call} {q : Review}

/-! ## What one call makes of the reviews -/

/-- All that a call can make of the reviews, with what was checked on the way. -/
inductive ReviewsBecome (s : Store) : Call → Store → Prop where
  | same {call : Call} {s' : Store} (unchanged : s'.reviews = s.reviews) : ReviewsBecome s call s'
  | written {call : Call} {s' : Store} {q : Review} {job : Job} (of : s.FindsJob q.jobId job)
      (allowed : checkReviewer job q.reviewerId q.revieweeId = .ok ()) (jobs : s'.jobs = s.jobs)
      (added : s'.reviews = s.reviews ++ [q]) : ReviewsBecome s call s'
  | dropped {caller id : Uuid} {s' : Store} (left : s'.reviews = s.reviews.filter (·.jobId ≠ id)) :
      ReviewsBecome s (.removeJob caller id) s'

theorem Effect.reviewsBecome (effect : Effect ctx s call s') : ReviewsBecome s call s' := by
  cases effect with
  | nothing => exact .same rfl
  | registered _ added =>
      obtain ⟨_, _, rfl⟩ := Store.addUser_ok added
      exact .same rfl
  | accountChanged _ _ replaced =>
      obtain ⟨_, _, rfl⟩ := Store.replaceUser_ok replaced
      exact .same rfl
  | jobPosted _ added planned =>
      obtain ⟨_, _, _, _, rfl⟩ := Store.addJob_ok added
      obtain ⟨_, _, _, _, rfl⟩ := Store.addMilestones_ok planned
      exact .same rfl
  | jobChanged _ _ _ replaced =>
      obtain ⟨_, rfl⟩ := Store.replaceJob_ok replaced
      exact .same rfl
  | jobRemoved _ _ removed =>
      obtain ⟨_, rfl⟩ := Store.removeJob_ok removed
      exact .dropped rfl
  | applied _ _ _ added =>
      obtain ⟨_, _, _, _, rfl⟩ := Store.addApplication_ok added
      exact .same rfl
  | rejected _ _ _ _ _ set =>
      cases Store.setApplicationStatus_ok set
      exact .same rfl
  | accepted _ _ _ _ _ set assigned =>
      cases Store.setApplicationStatus_ok set
      obtain ⟨_, _, rfl⟩ := Store.assignJob_ok assigned
      exact .same rfl
  | milestoneMoved _ _ _ _ _ _ set =>
      cases Store.setMilestoneStatus_ok set
      exact .same rfl
  | reviewed _ found allowed added =>
      obtain ⟨_, _, _, _, _, rfl⟩ := Store.addReview_ok added
      exact .written found allowed rfl rfl
  | messageSent _ added =>
      obtain ⟨_, _, _, _, _, rfl⟩ := Store.addMessage_ok added
      exact .same rfl
  | threadRead marked =>
      obtain ⟨_, rfl⟩ := Store.markRead_ok marked
      exact .same rfl
  | messageRead marked =>
      obtain ⟨_, rfl⟩ := Store.markRead_ok marked
      exact .same rfl

/-! ## Parties -/

namespace Reputation

/-- A review of an assigned job is by one of its two parties about the other. -/
def Review.BetweenParties (q : Review) (j : Job) : Prop :=
  ∃ f, j.freelancerId = some f ∧
    ((q.reviewerId = j.clientId ∧ q.revieweeId = f) ∨
      (q.reviewerId = f ∧ q.revieweeId = j.clientId))

theorem betweenParties_of_checkReviewer {j : Job}
    (allowed : checkReviewer j q.reviewerId q.revieweeId = .ok ()) : q.BetweenParties j := by
  unfold checkReviewer at allowed
  split at allowed
  · cases allowed
  split at allowed
  · cases allowed
  rename_i party side
  split at allowed
  · cases allowed
  rename_i other isOther
  split at allowed
  · rename_i isReviewee
    rcases Job.party?_eq side with ⟨rfl, isClient⟩ | ⟨rfl, isFreelancer⟩
    · exact ⟨other, isOther, .inl ⟨isClient.symm, isReviewee.symm⟩⟩
    · have isClient : j.clientId = other := Option.some.inj isOther
      exact ⟨q.reviewerId, isFreelancer, .inr ⟨rfl, (isClient.trans isReviewee).symm⟩⟩
  · cases allowed

end Reputation

/-- A job keeps its client, and its freelancer if it has one. -/
theorem Store.LeadsTo.keepsParties {j j' : Job} (leads : s.LeadsTo s') (hj : j ∈ s.jobs)
    (hj' : j' ∈ s'.jobs) (same : j'.id = j.id) (between : q.BetweenParties j) :
    q.BetweenParties j' := by
  obtain ⟨f, assigned, directed⟩ := between
  refine ⟨f, ?_, ?_⟩
  · rcases leads.jobAssigned j hj j' hj' same with ⟨stays, _⟩ | ⟨_, free, _⟩
    · exact stays.trans assigned
    · rw [assigned] at free
      cases free
  · rw [(leads.jobKept j hj j' hj' same).1]
    exact directed

def Store.Attributed (s : Store) : Prop :=
  ∀ q ∈ s.reviews, ∀ j ∈ s.jobs, j.id = q.jobId → q.BetweenParties j

/-! ## Requests -/

namespace Server

variable {server : Server}

theorem handle_reviewsBecome (server : Server) (ctx : Context) (r : Request) (s : Store) :
    (server.handle ctx r s).2 = s ∨ ∃ call, server.asked? ctx.now r = some call ∧
      ReviewsBecome s call (server.handle ctx r s).2 := by
  rcases server.handle_effect ctx r s with same | ⟨call, asked, effect⟩
  · exact .inl same
  · exact .inr ⟨call, asked, effect.reviewsBecome⟩

/-- A review that is found after a request was there before, or was just written and checked. -/
theorem review_before (coherent : s.Coherent) (hq : q ∈ (server.handle ctx r s).2.reviews) :
    q ∈ s.reviews ∨ ∀ j ∈ (server.handle ctx r s).2.jobs, j.id = q.jobId → q.BetweenParties j := by
  rcases server.handle_reviewsBecome ctx r s with same | ⟨call, _, become⟩
  · rw [same] at hq
    exact .inl hq
  · cases become with
    | same unchanged =>
        rw [unchanged] at hq
        exact .inl hq
    | dropped left =>
        rw [left] at hq
        exact .inl (List.mem_filter.mp hq).1
    | written of allowed jobs added =>
        rw [added, List.mem_append] at hq
        rcases hq with old | new
        · exact .inl old
        · right
          cases List.mem_singleton.mp new
          intro j hj isIts
          rw [jobs] at hj
          rw [coherent.sound.keyed.jobId.eq_of_same hj of.mem (isIts.trans of.id_eq.symm)]
          exact Reputation.betweenParties_of_checkReviewer allowed

theorem handle_attributed (server : Server) (ctx : Context) (r : Request) (coherent : s.Coherent)
    (attributed : s.Attributed) : (server.handle ctx r s).2.Attributed := by
  intro q hq j' hj' isIts
  rcases review_before coherent hq with old | new
  · obtain ⟨j, hj, isJob⟩ := (s.hasJob_iff q.jobId).mp (coherent.sound.linked.reviewJob q old)
    have leads := server.handle_leadsTo ctx r coherent
    exact leads.keepsParties hj hj' (isIts.trans isJob.symm) (attributed q old j hj isJob)
  · exact new j' hj' isIts

theorem run_attributed (server : Server) (steps : List (Context × Request)) :
    (server.run steps .empty).Attributed := by
  have both := server.run_keeps (p := fun t => t.Coherent ∧ t.Attributed) ?_ steps (s := .empty)
    ⟨Store.empty_coherent, fun q hq => nomatch hq⟩
  · exact both.2
  · rintro ctx r t ⟨coherent, attributed⟩
    exact ⟨server.handle_coherent ctx r coherent, server.handle_attributed ctx r coherent attributed⟩

/-- What becomes of a review: it stays as it is, unless the client removes its job. -/
structure ReviewLasts (server : Server) (ctx : Context) (r : Request) (s : Store) (q : Review) :
    Prop where
  unchanged : ∀ q' ∈ (server.handle ctx r s).2.reviews, q'.id = q.id → q' = q
  there : q ∈ (server.handle ctx r s).2.reviews ↔
    (server.handle ctx r s).2.hasJob q.jobId = true
  gone : q ∉ (server.handle ctx r s).2.reviews → ∃ j ∈ s.jobs, j.id = q.jobId ∧
    server.RemovesJob j.clientId j.id ctx r ∧ (server.handle ctx r s).1.status = 200

/-- A review goes only when its client's request to remove its job succeeds. -/
theorem removesJob_of_gone (hq : q ∈ s.reviews) (gone : q ∉ (server.handle ctx r s).2.reviews) :
    (server.handle ctx r s).2.hasJob q.jobId = false ∧ ∃ j ∈ s.jobs, j.id = q.jobId ∧
      server.RemovesJob j.clientId j.id ctx r ∧ (server.handle ctx r s).1.status = 200 := by
  rcases server.handle_reviewsBecome ctx r s with same | ⟨call, asked, become⟩
  · rw [same] at gone
    exact absurd hq gone
  · cases become with
    | same unchanged =>
        rw [unchanged] at gone
        exact absurd hq gone
    | written _ _ _ added =>
        rw [added] at gone
        exact absurd (List.mem_append_left _ hq) gone
    | @dropped caller id _ left =>
        have removes := asked?_removeJob_iff.mp asked
        have isIts : q.jobId = id := by
          by_contra other
          rw [left] at gone
          exact gone (List.mem_filter.mpr ⟨hq, decide_eq_true other⟩)
        rcases removes.cases s with ⟨_, same⟩ | ⟨⟨j, found, owned⟩, status, after⟩
        · rw [same] at gone
          exact absurd hq gone
        · cases owned
          cases found.id_eq
          refine ⟨?_, j, found.mem, isIts.symm, removes, status⟩
          rw [after, isIts, Store.hasJob, List.any_eq_false]
          intro k hk
          simpa using (List.mem_filter.mp hk).2

theorem reviewLasts (server : Server) (ctx : Context) (r : Request) (sound : s.Sound)
    (hq : q ∈ s.reviews) : server.ReviewLasts ctx r s q where
  unchanged q' hq' same := by
    rcases (server.handle_differences ctx r sound).reviews.changed q hq q' hq' same with is | never
    · exact is
    · exact never.elim
  there := by
    constructor
    · intro stays
      exact (server.handle_sound ctx r sound).linked.reviewJob q stays
    · intro kept
      by_contra gone
      rw [(removesJob_of_gone hq gone).1] at kept
      cases kept
  gone := fun gone => (removesJob_of_gone hq gone).2

/-- A review stays as it is as long as its job is there. -/
theorem run_keeps_review {steps : List (Context × Request)} (coherent : s.Coherent)
    (kept : server.KeepsJob steps s q.jobId) (hq : q ∈ s.reviews) :
    q ∈ (server.run steps s).reviews := by
  apply run_keeps_with_job q.jobId (p := fun t => q ∈ t.reviews)
  · intro ctx r t before _ there member
    exact (server.reviewLasts ctx r before.sound member).there.mpr there
  · exact coherent
  · exact kept
  · exact hq

end Server

/-! ## Reviews of all jobs -/

/-- Reviews are of jobs that are there, between the client and the freelancer whom the job has now, at
most one in each direction, with one to five points. -/
structure Store.ReviewsConsistent (s : Store) : Prop where
  ofJob : ∀ q ∈ s.reviews, ∃! j, j ∈ s.jobs ∧ j.id = q.jobId
  betweenParties : ∀ q ∈ s.reviews, ∀ j ∈ s.jobs, j.id = q.jobId → q.BetweenParties j
  differentUsers : ∀ q ∈ s.reviews, s.hasUser q.reviewerId = true ∧ s.hasUser q.revieweeId = true ∧
    q.reviewerId ≠ q.revieweeId
  rating : ∀ q ∈ s.reviews, 1 ≤ q.rating ∧ q.rating ≤ 5
  oncePerDirection : ∀ job reviewer reviewee, s.reviews.countP (fun q =>
    decide (q.jobId = job ∧ q.reviewerId = reviewer ∧ q.revieweeId = reviewee)) ≤ 1
  atMostTwo : ∀ job, s.reviews.countP (fun q => decide (q.jobId = job)) ≤ 2

namespace Store

/-- Nobody works for themselves. -/
theorem Coherent.freelancer_ne_client {j : Job} {f : Uuid} (coherent : s.Coherent) (hj : j ∈ s.jobs)
    (assigned : j.freelancerId = some f) : f ≠ j.clientId := by
  obtain ⟨a, ha, of, by_, _⟩ := (coherent.agreed.assigned j hj f).mp assigned
  rw [← by_]
  exact coherent.agreed.others j hj a ha of

/-- The reviews of a job are the client's and the freelancer's, and nobody reviews a job twice. -/
theorem countP_reviews_le (sound : s.Sound) (attributed : s.Attributed) (job : Uuid) :
    s.reviews.countP (fun q => decide (q.jobId = job)) ≤ 2 := by
  by_cases known : ∃ j ∈ s.jobs, j.id = job
  · obtain ⟨j, hj, isJob⟩ := known
    rw [List.countP_eq_countP_filter_add s.reviews _ fun q => decide (q.reviewerId = j.clientId)]
    have byClient : (s.reviews.filter fun q => decide (q.reviewerId = j.clientId)).countP
        (fun q => decide (q.jobId = job)) ≤ 1 := by
      apply (sound.keyed.reviewer.filter _).countP_le_one
      intro a ha b hb ofA ofB
      rw [of_decide_eq_true ofA, of_decide_eq_true ofB,
        of_decide_eq_true (List.mem_filter.mp ha).2, of_decide_eq_true (List.mem_filter.mp hb).2]
    have byFreelancer : (s.reviews.filter fun q => !decide (q.reviewerId = j.clientId)).countP
        (fun q => decide (q.jobId = job)) ≤ 1 := by
      apply (sound.keyed.reviewer.filter _).countP_le_one
      -- Whoever is not the client is the freelancer, in both reviews the same one.
      have reviewer : ∀ a ∈ s.reviews.filter fun q => !decide (q.reviewerId = j.clientId),
          decide (a.jobId = job) = true → j.freelancerId = some a.reviewerId := by
        intro a ha ofA
        obtain ⟨member, notClient⟩ := List.mem_filter.mp ha
        obtain ⟨f, assigned, ⟨isClient, _⟩ | ⟨isFreelancer, _⟩⟩ :=
          attributed a member j hj (isJob.trans (of_decide_eq_true ofA).symm)
        · simp [isClient] at notClient
        · rw [assigned, isFreelancer]
      intro a ha b hb ofA ofB
      have same := (reviewer a ha ofA).symm.trans (reviewer b hb ofB)
      rw [of_decide_eq_true ofA, of_decide_eq_true ofB, Option.some.inj same]
    omega
  · have none : s.reviews.countP (fun q => decide (q.jobId = job)) = 0 := by
      rw [List.countP_eq_zero]
      intro q hq isIts
      obtain ⟨j, hj, isJob⟩ := (s.hasJob_iff q.jobId).mp (sound.linked.reviewJob q hq)
      exact known ⟨j, hj, isJob.trans (of_decide_eq_true isIts)⟩
    omega

theorem Coherent.reviewsConsistent (coherent : s.Coherent) (attributed : s.Attributed) :
    s.ReviewsConsistent where
  ofJob q hq := by
    obtain ⟨j, hj, isJob⟩ :=
      (s.hasJob_iff q.jobId).mp (coherent.sound.linked.reviewJob q hq)
    refine ⟨j, ⟨hj, isJob⟩, ?_⟩
    rintro k ⟨hk, isIts⟩
    exact coherent.sound.keyed.jobId.eq_of_same hk hj (isIts.trans isJob.symm)
  betweenParties := attributed
  differentUsers q hq := by
    refine ⟨coherent.sound.linked.reviewReviewer q hq, coherent.sound.linked.reviewReviewee q hq, ?_⟩
    obtain ⟨j, hj, isJob⟩ :=
      (s.hasJob_iff q.jobId).mp (coherent.sound.linked.reviewJob q hq)
    obtain ⟨f, assigned, directed⟩ := attributed q hq j hj isJob
    have different := coherent.freelancer_ne_client hj assigned
    rcases directed with ⟨reviewer, reviewee⟩ | ⟨reviewer, reviewee⟩
    · rw [reviewer, reviewee]
      exact different.symm
    · rw [reviewer, reviewee]
      exact different
  rating := coherent.sound.constrained.ratings
  oncePerDirection job reviewer reviewee := by
    apply coherent.sound.keyed.reviewer.countP_le_one
    intro a _ b _ isA isB
    obtain ⟨ofA, byA, _⟩ := of_decide_eq_true isA
    obtain ⟨ofB, byB, _⟩ := of_decide_eq_true isB
    rw [ofA, ofB, byA, byB]
  atMostTwo := countP_reviews_le coherent.sound attributed

end Store

/-- In every store that the service reaches, the reviews of each job are between the parties it has now,
at most one in each direction.  Whatever is asked next, a review stays as it is and goes only when its
job is removed, and so it does over runs. -/
theorem Server.reviews_over_runs (server : Server) (past : List (Context × Request)) :
    (server.run past .empty).ReviewsConsistent ∧
    (∀ ctx r, ∀ q ∈ (server.run past .empty).reviews,
      server.ReviewLasts ctx r (server.run past .empty) q) ∧
    (∀ future, ∀ q ∈ (server.run past .empty).reviews,
      server.KeepsJob future (server.run past .empty) q.jobId →
        q ∈ (server.run (past ++ future) .empty).reviews) := by
  have coherent := server.run_coherent past
  refine ⟨coherent.reviewsConsistent (server.run_attributed past), ?_, ?_⟩
  · intro ctx r q hq
    exact server.reviewLasts ctx r coherent.sound hq
  · intro future q hq kept
    rw [run_append]
    exact run_keeps_review coherent kept hq

end GigBoard
