import GigBoard.Proofs.Confinement
import GigBoard.Proofs.Gains
import GigBoard.Proofs.Moving

/-!
# Writing reviews

What a request to write a review is answered with: what speaks against it is looked for in the form,
then in the job, then in the store, and the first of these is told.  A review that is written reaches
the list of the user whom it is about, and no other.
-/

set_option autoImplicit false

namespace GigBoard

open Hiring (Job)
open Http (Request)
open Reputation (Review ReviewForm ReviewView Verdict checkReviewer counterpart?)
open Text (HoldsNul)

variable {ctx : Context} {r : Request} {s s' : Store} {caller id : Uuid} {form : ReviewForm}
  {v : Verdict} {q : Review} {j : Job}

/-! ## What a form gives -/

namespace Reputation

/-- A form gives the job and the user whom a review is about, and one to five points. -/
structure ReviewForm.Gives (form : ReviewForm) (v : Verdict) : Prop where
  jobId : form.jobId = some v.jobId
  revieweeId : form.revieweeId = some v.revieweeId
  rating : form.rating = some v.rating
  least : 1 ≤ v.rating
  greatest : v.rating ≤ 5

theorem ReviewForm.verdict_eq_ok_iff : form.verdict = .ok v ↔ form.Gives v := by
  constructor
  · intro said
    have points := verdict_isRating said
    unfold verdict at said
    split at said
    · cases said
    · cases said
    · cases said
    · rename_i isJob isReviewee isRating
      split at said
      · cases said
        rw [Review.isRating, Bool.and_eq_true, decide_eq_true_eq, decide_eq_true_eq] at points
        exact ⟨isJob, isReviewee, isRating, points.1, points.2⟩
      · cases said
  · rintro ⟨isJob, isReviewee, isRating, least, greatest⟩
    have points : Review.isRating v.rating = true := by
      rw [Review.isRating, Bool.and_eq_true, decide_eq_true_eq, decide_eq_true_eq]
      exact ⟨least, greatest⟩
    rw [verdict, isJob, isReviewee, isRating]
    exact if_pos points

theorem ReviewForm.verdict_tells (form : ReviewForm) : Tells 400 form.verdict := by
  unfold verdict
  split
  · exact .error rfl
  · exact .error rfl
  · exact .error rfl
  · split
    · exact .ok _
    · exact .error rfl

def ReviewForm.review (form : ReviewForm) (ctx : Context) (caller : Uuid) (v : Verdict) : Review where
  id := ctx.freshId 0
  jobId := v.jobId
  reviewerId := caller
  revieweeId := v.revieweeId
  rating := v.rating
  comment := Text.trim (form.comment.getD "")
  createdAt := ctx.now

theorem ReviewForm.review_fits_iff (gives : form.Gives v) :
    (form.review ctx caller v).fits = true ↔ ¬HoldsNul form.comment := by
  have points : Review.isRating (form.review ctx caller v).rating = true :=
    verdict_isRating (verdict_eq_ok_iff.mpr gives)
  rw [Review.fits, Bool.and_eq_true, and_iff_right points]
  exact Text.isStorable_trim_getD_iff

/-! ## Who may review whom -/

theorem checkReviewer_of_incomplete (incomplete : j.status ≠ .completed) (reviewee : Uuid) :
    checkReviewer j caller reviewee = .error .jobNotCompleted :=
  if_pos incomplete

section Completed

variable (completed : j.status = .completed)

include completed

theorem checkReviewer_of_stranger (stranger : ¬j.IsParty caller) (reviewee : Uuid) :
    checkReviewer j caller reviewee = .error .notReviewer := by
  rw [checkReviewer, if_neg (not_not.mpr completed), Job.party?_of_stranger stranger]

theorem checkReviewer_of_between (between : q.BetweenParties j) :
    checkReviewer j q.reviewerId q.revieweeId = .ok () := by
  rw [checkReviewer, if_neg (not_not.mpr completed)]
  obtain ⟨f, assigned, ⟨isClient, isFreelancer⟩ | ⟨isFreelancer, isClient⟩⟩ := between
  · have side : j.party? q.reviewerId = some .client := if_pos isClient.symm
    have other : counterpart? j .client = some q.revieweeId := by
      rw [isFreelancer]
      exact assigned
    simp only [side, other, if_true]
  · by_cases same : j.clientId = q.reviewerId
    · -- The client took the job, and is both sides of it.
      have side : j.party? q.reviewerId = some .client := if_pos same
      have other : counterpart? j .client = some q.revieweeId := by
        rw [isClient, same, isFreelancer]
        exact assigned
      simp only [side, other, if_true]
    · have side : j.party? q.reviewerId = some .freelancer := by
        rw [Job.party?, if_neg same, if_pos (isFreelancer ▸ assigned)]
      have other : counterpart? j .freelancer = some q.revieweeId := by
        rw [isClient]
        rfl
      simp only [side, other, if_true]

/-- A party that names nobody whom it may review is told so with 400. -/
theorem checkReviewer_of_apart (isParty : j.IsParty q.reviewerId)
    (apart : ¬q.BetweenParties j) :
    ∃ f, checkReviewer j q.reviewerId q.revieweeId = .error f ∧ f.problem.status = 400 := by
  have tells : Tells 400 (checkReviewer j q.reviewerId q.revieweeId) := by
    rw [checkReviewer, if_neg (not_not.mpr completed), Job.party?_of_isParty isParty]
    dsimp only
    split
    · exact .error rfl
    · split
      · exact .ok _
      · exact .error rfl
  exact tells.failed fun _ allowed => apart (betweenParties_of_checkReviewer allowed)

end Completed

end Reputation

/-! ## The row of a review -/

def Reputation.Review.viewWith (q : Review) (reviewer : Account.User) : ReviewView :=
  ⟨q.id, q.jobId, q.reviewerId, q.revieweeId, q.rating, q.comment, q.createdAt, .ofUser reviewer⟩

namespace Store

def withReview (s : Store) (q : Review) : Store := { s with reviews := s.reviews ++ [q] }

def HasReviewed (s : Store) (reviewer id : Uuid) : Prop :=
  ∃ q ∈ s.reviews, q.jobId = id ∧ q.reviewerId = reviewer

section Adding

variable (fits : q.fits = true)

theorem addReview_of_unfit (unfit : ¬q.fits = true) : addReview q s = .error .rejected := by
  rw [addReview, if_pos (by simpa using unfit)]

include fits

theorem addReview_of_taken
    (taken : s.HasReviewed q.reviewerId q.jobId ∨ ∃ p ∈ s.reviews, p.id = q.id) :
    addReview q s = .error .duplicate := by
  rw [addReview, if_neg (by simpa using fits), if_pos]
  rw [List.any_eq_true]
  rcases taken with ⟨p, hp, same⟩ | ⟨p, hp, same⟩
  · exact ⟨p, hp, by simp [same]⟩
  · exact ⟨p, hp, by simp [same]⟩

theorem addReview_of_first (first : ¬s.HasReviewed q.reviewerId q.jobId)
    (fresh : ∀ p ∈ s.reviews, p.id ≠ q.id) (isJob : s.hasJob q.jobId = true)
    (known : s.hasUser q.reviewerId = true ∧ s.hasUser q.revieweeId = true) :
    addReview q s = .ok ((), s.withReview q) := by
  have new : ¬(s.reviews.any fun p =>
      p.id = q.id || (p.jobId = q.jobId && p.reviewerId = q.reviewerId)) = true := by
    rw [List.any_eq_true]
    rintro ⟨p, hp, same⟩
    rw [Bool.or_eq_true, Bool.and_eq_true, decide_eq_true_eq, decide_eq_true_eq,
      decide_eq_true_eq] at same
    exact same.elim (fresh p hp) fun written => first ⟨p, hp, written⟩
  rw [addReview, if_neg (by simpa using fits), if_neg new, isJob, known.1, known.2]
  rfl

end Adding

end Store

/-! ## Writing a review -/

namespace Reputation

/-- A review is read again after it was added, and shown with its reviewer. -/
def showWritten (reviewer id : Uuid) : Action ReviewView := do
  let q ← Action.expect (.store .noRow) (← Action.query (Store.review? id))
  let u ← Action.expect (.store .noRow) (← Action.query (Store.user? reviewer))
  Action.ofExcept (ReviewView.make [u] q)

/-- What was added is shown if its time and the row of its reviewer can be read back. -/
theorem showWritten_eq {u : Account.User} (unique : Rows.Unique Account.User.id s.users)
    (fresh : ∀ p ∈ s.reviews, p.id ≠ q.id) (hu : u ∈ s.users) (own : u.id = q.reviewerId) :
    showWritten q.reviewerId q.id ctx (s.withReview q) =
      if q.isReadable = true ∧ u.isReadable = true then (.ok (q.viewWith u), s.withReview q)
      else (.error (.store .unreadable), s.withReview q) := by
  have readReview : Store.review? q.id (s.withReview q) =
      Store.readRow Review.isReadable (some q) :=
    congrArg _ (Rows.find?_append_one Review.id fresh)
  have readUser : Store.user? q.reviewerId (s.withReview q) =
      Store.readRow Account.User.isReadable (some u) :=
    congrArg _ (unique.find?_eq hu own)
  have made : ReviewView.make [u] q = .ok (q.viewWith u) := by
    have found : Account.among [u] q.reviewerId = some u :=
      List.find?_cons_of_pos (decide_eq_true own)
    rw [ReviewView.make, Account.summaryAmong, found]
    rfl
  refine (Action.loadRow readReview).trans ?_
  rw [Action.loadRow readUser, made]
  by_cases timely : q.isReadable = true
  · by_cases readable : u.isReadable = true
    · rw [if_pos timely, if_pos readable, if_pos ⟨timely, readable⟩]
      rfl
    · rw [if_pos timely, if_neg readable, if_neg fun both => readable both.2]
  · rw [if_neg timely, if_neg fun both => timely both.1]

section Given

variable (gives : form.Gives v)

include gives

theorem writeReview_of_lost (lost : ctx.connected = false) :
    writeReview caller form ctx s = (.error (.store .unavailable), s) := by
  rw [writeReview, ReviewForm.verdict_eq_ok_iff.mpr gives]
  exact (Action.bind_of_ok rfl).trans (Action.bind_of_error (Action.connect_of_lost lost))

variable (connected : ctx.connected = true)

include connected

theorem writeReview_of_unfound {f : Failure}
    (failed : Hiring.findJob v.jobId ctx s = (.error f, s)) :
    writeReview caller form ctx s = (.error f, s) := by
  rw [writeReview, ReviewForm.verdict_eq_ok_iff.mpr gives]
  exact (Action.bind_of_ok rfl).trans
    ((Action.bind_of_ok (Action.connect_of_connected connected)).trans (Action.bind_of_error failed))

variable (loaded : Hiring.findJob v.jobId ctx s = (.ok j, s))

include loaded

theorem writeReview_of_refused {f : Failure}
    (refused : checkReviewer j caller v.revieweeId = .error f) :
    writeReview caller form ctx s = (.error f, s) := by
  rw [writeReview, ReviewForm.verdict_eq_ok_iff.mpr gives]
  refine (Action.bind_of_ok rfl).trans
    ((Action.bind_of_ok (Action.connect_of_connected connected)).trans
      ((Action.bind_of_ok loaded).trans ?_))
  rw [refused]
  exact Action.bind_of_error rfl

variable (allowed : checkReviewer j caller v.revieweeId = .ok ())

include allowed

theorem writeReview_of_allowed :
    writeReview caller form ctx s =
      (Action.change (Store.addReview (form.review ctx caller v))
        Failure.alreadyReviewed.onDuplicate >>= fun _ =>
          showWritten caller (ctx.freshId 0)) ctx s := by
  rw [writeReview, ReviewForm.verdict_eq_ok_iff.mpr gives]
  refine (Action.bind_of_ok rfl).trans
    ((Action.bind_of_ok (Action.connect_of_connected connected)).trans
      ((Action.bind_of_ok loaded).trans ?_))
  rw [allowed]
  exact (Action.bind_of_ok rfl).trans (Action.bind_of_ok rfl)

theorem writeReview_of_fault {fault : StoreFault}
    (refused : Store.addReview (form.review ctx caller v) s = .error fault) :
    writeReview caller form ctx s = (.error (Failure.alreadyReviewed.onDuplicate fault), s) := by
  rw [writeReview_of_allowed gives connected loaded allowed]
  exact Action.bind_of_error (Action.change_of_error refused)

theorem writeReview_of_added
    (added : Store.addReview (form.review ctx caller v) s = .ok ((), s')) :
    writeReview caller form ctx s = showWritten caller (ctx.freshId 0) ctx s' := by
  rw [writeReview_of_allowed gives connected loaded allowed]
  exact Action.bind_of_ok (Action.change_of_ok added)

end Given

end Reputation

namespace Server

variable {server : Server}

/-! ## Answers -/

/-- What a request to write a review for a job that is there is answered with.  When the review is stored
it is answered with 500 all the same if the time or the row of the reviewer cannot be read back. -/
def AnswersReviewFor (server : Server) (caller : Uuid) (form : ReviewForm) (v : Verdict) (j : Job)
    (ctx : Context) (r : Request) (s : Store) : Prop :=
  FirstOf [
    (¬j.isReadable = true, server.Ends ctx r s 500 s),
    (j.status ≠ .completed, server.Ends ctx r s 400 s),
    (¬j.IsParty caller, server.Ends ctx r s 403 s),
    (¬(form.review ctx caller v).BetweenParties j, server.Ends ctx r s 400 s),
    (HoldsNul form.comment, server.Ends ctx r s 500 s),
    (s.HasReviewed caller j.id, server.Ends ctx r s 409 s),
    (∃ q ∈ s.reviews, q.id = ctx.freshId 0, server.Ends ctx r s 409 s)]
  (∃ u ∈ s.users, u.id = caller ∧
    FirstOf [
      (¬(ctx.now.isRepresentable = true ∧ u.isReadable = true),
        server.Ends ctx r s 500 (s.withReview (form.review ctx caller v)))]
    (server.EndsWith ctx r s 201 ((form.review ctx caller v).viewWith u).toJson
      (s.withReview (form.review ctx caller v))))

def AnswersReview (server : Server) (caller : Uuid) (form : ReviewForm) (ctx : Context) (r : Request)
    (s : Store) : Prop :=
  FirstOf [
    (∀ v, ¬form.Gives v, server.Ends ctx r s 400 s),
    (ctx.connected = false, server.Ends ctx r s 500 s),
    (∀ j ∈ s.jobs, form.jobId ≠ some j.id, server.Ends ctx r s 404 s)]
  (∃ v, form.Gives v ∧ ∃ j ∈ s.jobs, j.id = v.jobId ∧
    server.AnswersReviewFor caller form v j ctx r s)

namespace WritesReview

variable (writes : server.WritesReview caller form ctx r)

include writes

theorem ends_of_error {f : Failure}
    (failed : Reputation.writeReview caller form ctx s = (.error f, s')) :
    server.Ends ctx r s f.problem.status s' :=
  Server.ends_of_error (asked?_writeReview_iff.mpr writes) (Action.bind_of_error failed)

theorem endsWith_of_ok {view : ReviewView}
    (shown : Reputation.writeReview caller form ctx s = (.ok view, s')) :
    server.EndsWith ctx r s 201 view.toJson s' :=
  Server.endsWith_of_ok (by rw [writes.method]; decide) (asked?_writeReview_iff.mpr writes)
    (Action.bind_of_ok shown) rfl

/-- What a request is answered with when the review is stored. -/
theorem answersStored {u : Account.User} (sound : s.Sound)
    (fresh : ∀ p ∈ s.reviews, p.id ≠ ctx.freshId 0) (hu : u ∈ s.users) (own : u.id = caller)
    (stored : Reputation.writeReview caller form ctx s =
      Reputation.showWritten caller (ctx.freshId 0) ctx (s.withReview (form.review ctx caller v))) :
    FirstOf [
      (¬(ctx.now.isRepresentable = true ∧ u.isReadable = true),
        server.Ends ctx r s 500 (s.withReview (form.review ctx caller v)))]
    (server.EndsWith ctx r s 201 ((form.review ctx caller v).viewWith u).toJson
      (s.withReview (form.review ctx caller v))) := by
  have shown := @Reputation.showWritten_eq ctx _ (form.review ctx caller v) _ sound.keyed.userId
    fresh hu own
  refine ⟨fun hidden => ?_, fun visible => ?_⟩
  · exact writes.ends_of_error (stored.trans (shown.trans (if_neg hidden)))
  · exact writes.endsWith_of_ok (stored.trans (shown.trans (if_pos (not_not.mp visible))))

theorem answersReviewFor (sound : s.Sound) (gives : form.Gives v) (connected : ctx.connected = true)
    (found : s.FindsJob v.jobId j) : server.AnswersReviewFor caller form v j ctx r s := by
  have isId := found.id_eq
  have refused {f : Failure} (failed : Reputation.writeReview caller form ctx s = (.error f, s)) :
      server.Ends ctx r s f.problem.status s :=
    writes.ends_of_error failed
  refine ⟨fun unreadable => refused (Reputation.writeReview_of_unfound gives connected
    (Hiring.findJob_of_unreadable found unreadable)), fun isReadable => ?_⟩
  have loaded : Hiring.findJob v.jobId ctx s = (.ok j, s) :=
    Hiring.findJob_of_readable found (not_not.mp isReadable)
  have unchecked {f : Failure} (failed : checkReviewer j caller v.revieweeId = .error f) :
      server.Ends ctx r s f.problem.status s :=
    refused (Reputation.writeReview_of_refused gives connected loaded failed)
  refine ⟨fun incomplete =>
    unchecked (Reputation.checkReviewer_of_incomplete incomplete _), fun isCompleted => ?_⟩
  have completed := not_not.mp isCompleted
  refine ⟨fun stranger =>
    unchecked (Reputation.checkReviewer_of_stranger completed stranger _), fun known => ?_⟩
  refine ⟨fun apart => ?_, fun isBetween => ?_⟩
  · obtain ⟨f, failed, told⟩ := Reputation.checkReviewer_of_apart completed (not_not.mp known) apart
    rw [← told]
    exact unchecked failed
  have between := not_not.mp isBetween
  have allowed : checkReviewer j caller v.revieweeId = .ok () :=
    Reputation.checkReviewer_of_between completed between
  have notAdded {fault : StoreFault}
      (refusal : Store.addReview (form.review ctx caller v) s = .error fault) :
      server.Ends ctx r s (Failure.alreadyReviewed.onDuplicate fault).problem.status s :=
    refused (Reputation.writeReview_of_fault gives connected loaded allowed refusal)
  refine ⟨fun holds => notAdded (Store.addReview_of_unfit fun fits =>
    (ReviewForm.review_fits_iff gives).mp fits holds), fun storable => ?_⟩
  have fits : (form.review ctx caller v).fits = true :=
    (ReviewForm.review_fits_iff gives).mpr storable
  rw [isId]
  refine ⟨fun again => notAdded (Store.addReview_of_taken fits (.inl again)), fun first => ?_⟩
  refine ⟨fun used => notAdded (Store.addReview_of_taken fits (.inr used)), fun unused => ?_⟩
  push Not at unused
  -- The constraints of the store see to it that both sides have accounts.
  have known := sound.linked.reviewers found.mem between
  obtain ⟨u, hu, own⟩ := (s.hasUser_iff caller).mp known.1
  have isJob : s.hasJob v.jobId = true := (s.hasJob_iff _).mpr ⟨j, found.mem, isId⟩
  exact ⟨u, hu, own, writes.answersStored sound unused hu own
    (Reputation.writeReview_of_added gives connected loaded allowed
      (Store.addReview_of_first fits first unused isJob known))⟩

theorem answersReview (sound : s.Sound) : server.AnswersReview caller form ctx r s := by
  refine ⟨fun nothing => ?_, fun something => ?_⟩
  · obtain ⟨f, failed, told⟩ := form.verdict_tells.failed fun v ok =>
      nothing v (ReviewForm.verdict_eq_ok_iff.mp ok)
    rw [← told]
    refine writes.ends_of_error ?_
    rw [Reputation.writeReview, failed]
    exact Action.bind_of_error rfl
  push Not at something
  obtain ⟨v, gives⟩ := something
  refine ⟨fun lost => writes.ends_of_error (Reputation.writeReview_of_lost gives lost),
    fun isConnected => ?_⟩
  have connected : ctx.connected = true := by simpa using isConnected
  refine ⟨fun missing => ?_, fun isThere => ?_⟩
  · have unfound : ∀ j ∈ s.jobs, j.id ≠ v.jobId := fun j hj same =>
      missing j hj (gives.jobId.trans (congrArg some same.symm))
    exact writes.ends_of_error (Reputation.writeReview_of_unfound gives connected
      (Hiring.findJob_of_missing unfound))
  · push Not at isThere
    obtain ⟨j, hj, isJob⟩ := isThere
    have isId : j.id = v.jobId := Option.some.inj (isJob.symm.trans gives.jobId)
    exact ⟨v, gives, j, hj, isId,
      writes.answersReviewFor sound gives connected (sound.keyed.jobId.find?_eq hj isId)⟩

/-- What is answered with 201 was added, and can be read back. -/
theorem added_of_created (sound : s.Sound) (created : (server.handle ctx r s).1.status = 201) :
    ∃ v, form.Gives v ∧ ctx.now.isRepresentable = true ∧
      Store.addReview (form.review ctx caller v) s =
        .ok ((), s.withReview (form.review ctx caller v)) ∧
      (server.handle ctx r s).2 = s.withReview (form.review ctx caller v) := by
  -- Every refusal has another status.
  have unsaid {status : Nat} {left : Store} (other : status ≠ 201) :
      ¬server.Ends ctx r s status left := not_ends created other
  obtain ⟨_, v, gives, j, hj, isId, inner⟩ := (writes.answersReview sound).of_unsaid (by
    simp only [List.forall_mem_cons]
    exact ⟨unsaid (by decide), unsaid (by decide), unsaid (by decide), nofun⟩)
  obtain ⟨none, u, hu, own, last⟩ := inner.of_unsaid (by
    simp only [List.forall_mem_cons]
    refine ⟨?_, ?_, ?_, ?_, ?_, ?_, ?_, nofun⟩
    all_goals exact unsaid (by decide))
  obtain ⟨visible, shown⟩ := last.of_unsaid (by
    simp only [List.forall_mem_cons]
    exact ⟨unsaid (by decide), nofun⟩)
  simp only [List.forall_mem_cons] at none visible
  obtain ⟨_, _, _, isBetween, storable, first, unused, _⟩ := none
  push Not at unused
  rw [isId] at first
  exact ⟨v, gives, (not_not.mp visible.1).1,
    Store.addReview_of_first ((ReviewForm.review_fits_iff gives).mpr storable) first unused
      ((s.hasJob_iff _).mpr ⟨j, hj, isId⟩) (sound.linked.reviewers hj (not_not.mp isBetween)),
    shown.ends.2⟩

end WritesReview

/-! ## What comes after -/

/-- What becomes of a review that is added to a store: the list of the user whom it is about gains it,
and the lists of all others are as long as before. -/
structure ReviewCounts (server : Server) (q : Review) (s : Store) : Prop where
  received : server.ListGains s (s.withReview q) (fun _ => ListsReviews q.revieweeId)
    ReviewView.toJson ReviewView.row q (∀ p ∈ s.reviews, p.createdAt < q.createdAt)
  others : ∀ user ≠ q.revieweeId, ∃ n, server.Totals s (fun _ => ListsReviews user) n ∧
    server.Totals (s.withReview q) (fun _ => ListsReviews user) n

/-- A review that is added to a store counts. -/
theorem reviewCounts (server : Server) (sound : s.Sound) (timely : q.isReadable = true)
    (added : Store.addReview q s = .ok ((), s.withReview q)) : server.ReviewCounts q s := by
  have after := Store.addReview_sound sound added
  obtain ⟨_, _, _, _, known, _⟩ := Store.addReview_ok added
  refine ⟨?_, fun user other => ?_⟩
  · refine .of_append (server.lists_reviews s q.revieweeId) (server.lists_reviews _ q.revieweeId)
      after.keyed.reviewId (decide_eq_true rfl) fun readable few ctx page connected => ?_
    have fewer : s.reviews.length < 2 ^ 62 := by
      have more := few.reviews
      rw [Store.withReview, List.length_append] at more
      omega
    exact ⟨Reputation.listReviews_succeeds fewer sound.linked readable known page connected,
      Reputation.listReviews_succeeds few.reviews after.linked
        (Store.addReview_readable readable timely added) known page connected⟩
  · refine ⟨_, (server.lists_reviews s user).totals, ?_⟩
    have kept : Reputation.reviewsOf (s.withReview q) user = Reputation.reviewsOf s user :=
      Store.newestPassing_append_of_fails (decide_eq_false other.symm)
    rw [← kept]
    exact (server.lists_reviews _ user).totals

/-- In a store that satisfies its constraints, a request to write a review is refused for the first thing
that speaks against it.  If nothing does, one review is added, with the points and the trimmed comment of
the form; the list of the user whom it is about gains it, and nobody else's does. -/
theorem reviews_written (server : Server) (s : Store) (holds : s.Constrained) (caller : Uuid)
    (form : ReviewForm) (ctx : Context) (r : Request)
    (writes : server.WritesReview caller form ctx r) :
    server.AnswersReview caller form ctx r s ∧
      ((server.handle ctx r s).1.status = 201 →
        ∃ v, form.Gives v ∧
          (server.handle ctx r s).2 = s.withReview (form.review ctx caller v) ∧
          server.ReviewCounts (form.review ctx caller v) s) := by
  refine ⟨writes.answersReview holds.sound, fun created => ?_⟩
  obtain ⟨v, gives, timely, added, left⟩ := writes.added_of_created holds.sound created
  exact ⟨v, gives, left, server.reviewCounts holds.sound timely added⟩

def finishedJob : Job := { siteJob with status := .completed }

def finishedStore : Store := { annAndBob with jobs := [finishedJob] }

theorem finishedStore_sound : finishedStore.Sound :=
  Store.addJob_sound (j := finishedJob) annAndBob_sound rfl

def annReviews : Request where
  method := .post
  target := "/api/reviews"
  headers := ("content-type", "application/json") :: removal.headers
  body := Text.Utf8.ofString ("\x7b\"jobId\":\"00000000-0000-0000-0000-000000000003\"," ++
    "\"revieweeId\":\"00000000-0000-0000-0000-000000000002\"," ++
    "\"rating\":5,\"comment\":\" Fine \"\x7d")

def annPraises : ReviewForm := ⟨some finishedJob.id, some bob.id, some 5, some " Fine "⟩

theorem annReviews_writes : plain.WritesReview ann.id annPraises firstMoment annReviews where
  method := rfl
  path := by decide +kernel
  caller := ann_known rfl
  body := decodeBody_of_leading (by decide +kernel) (by decide +kernel) (by decide +kernel)

theorem annPraises_gives : annPraises.Gives ⟨finishedJob.id, bob.id, 5⟩ :=
  ⟨rfl, rfl, rfl, by decide, by decide⟩

theorem reviews_written_bob :
    finishedStore.Constrained ∧ plain.WritesReview ann.id annPraises firstMoment annReviews ∧
      plain.AnswersReview ann.id annPraises firstMoment annReviews finishedStore ∧
      (plain.handle firstMoment annReviews finishedStore).1.status = 201 ∧
      plain.ReviewCounts
        (annPraises.review firstMoment ann.id ⟨finishedJob.id, bob.id, 5⟩) finishedStore := by
  have holds := finishedStore_sound.constrained
  obtain ⟨answers, counts⟩ := reviews_written plain finishedStore holds _ _ _ _ annReviews_writes
  have inner := annReviews_writes.answersReviewFor finishedStore_sound annPraises_gives rfl
    (j := finishedJob) rfl
  obtain ⟨u, hu, _, last⟩ := inner.of_otherwise (by
    simp only [List.forall_mem_cons]
    refine ⟨by decide, not_not.mpr rfl, not_not.mpr (.inl rfl),
      not_not.mpr ⟨bob.id, rfl, .inl ⟨rfl, rfl⟩⟩, ?_, by rintro ⟨_, ⟨⟩, _⟩,
      by rintro ⟨_, ⟨⟩, _⟩, nofun⟩
    rintro ⟨_, ⟨⟩, holdsNul⟩
    exact holdsNul (by decide +kernel))
  have readable : ∀ u ∈ finishedStore.users, u.isReadable = true := by decide
  have shown := last.of_otherwise (by
    simp only [List.forall_mem_cons]
    exact ⟨not_not.mpr ⟨rfl, readable u hu⟩, nofun⟩)
  obtain ⟨v, gives, _, made⟩ := counts shown.ends.1
  obtain ⟨job, reviewee, points⟩ := v
  obtain rfl := Option.some.inj (gives.jobId.symm.trans annPraises_gives.jobId)
  obtain rfl := Option.some.inj (gives.revieweeId.symm.trans annPraises_gives.revieweeId)
  obtain rfl := Option.some.inj (gives.rating.symm.trans annPraises_gives.rating)
  exact ⟨holds, annReviews_writes, answers, shown.ends.1, made⟩

/-- Not every review of a job that is not done is answered with 400. -/
theorem ancient_job_review_not_refused :
    ancientStore.Constrained ∧ firstMoment.connected = true ∧
      plain.WritesReview ann.id annPraises firstMoment annReviews ∧
      annPraises.Gives ⟨ancientJob.id, bob.id, 5⟩ ∧ ancientJob ∈ ancientStore.jobs ∧
        ancientJob.status ≠ .completed ∧
          (plain.handle firstMoment annReviews ancientStore).1.status = 500 := by
  have answers := annReviews_writes.answersReviewFor (j := ancientJob) ancientStore_sound
    annPraises_gives rfl rfl
  exact ⟨ancientStore_sound.constrained, rfl, annReviews_writes, annPraises_gives,
    List.mem_cons_self, by decide, (answers.1 (by decide)).1⟩

end Server

end GigBoard
