import GigBoard.Hiring.Views
import GigBoard.Json.Decoder
import GigBoard.Listing
import GigBoard.Reputation.Views
import GigBoard.Text.Blank

/-!
# Reviewing

The client and the freelancer of a completed job may review each other.
-/

set_option autoImplicit false

namespace GigBoard.Reputation

open Hiring (Job)

structure ReviewForm where
  jobId : Option Uuid
  revieweeId : Option Uuid
  rating : Option Int
  comment : Option String
  deriving DecidableEq

namespace ReviewForm

def known : List (Json.Decoder.Member ReviewForm) := [
  .of "jobId" Json.Decoder.uuid.nullable fun f v => { f with jobId := v },
  .of "revieweeId" Json.Decoder.uuid.nullable fun f v => { f with revieweeId := v },
  .of "rating" (Json.Decoder.integer .int32).nullable fun f v => { f with rating := v },
  { Json.Decoder.Member.of "comment" Json.Decoder.text.nullable
      (fun (f : ReviewForm) v => { f with comment := v }) with omissible := true }]

def decoder : Json.Decoder ReviewForm := Json.Decoder.record ⟨none, none, none, none⟩ known

end ReviewForm

/-- What a review must say: the job, the other user, and the points. -/
structure Verdict where
  jobId : Uuid
  revieweeId : Uuid
  rating : Int

def ReviewForm.verdict (f : ReviewForm) : Except Failure Verdict :=
  match f.jobId, f.revieweeId, f.rating with
  | none, _, _ => .error (.required "jobId")
  | some _, none, _ => .error (.required "revieweeId")
  | some _, some _, none => .error (.required "rating")
  | some job, some reviewee, some rating =>
    if Review.isRating rating then .ok ⟨job, reviewee, rating⟩ else .error .ratingOutOfRange

/-- The user that a party to a job may review. -/
def counterpart? (job : Job) : Party → Option Uuid
  | .client => job.freelancerId
  | .freelancer => some job.clientId

def checkReviewer (job : Job) (reviewer reviewee : Uuid) : Except Failure Unit :=
  if job.status ≠ .completed then .error .jobNotCompleted
  else
    match job.party? reviewer with
    | none => .error .notReviewer
    | some party =>
      match counterpart? job party with
      | none => .error .nobodyToReview
      | some other => if other = reviewee then .ok () else .error .wrongReviewee

def writeReview (caller : Uuid) (form : ReviewForm) : Action ReviewView := do
  let verdict ← Action.ofExcept form.verdict
  Action.connect
  let job ← Hiring.findJob verdict.jobId
  Action.ofExcept (checkReviewer job caller verdict.revieweeId)
  let ctx ← Action.context
  let review : Review := {
    id := ctx.freshId 0
    jobId := verdict.jobId
    reviewerId := caller
    revieweeId := verdict.revieweeId
    rating := verdict.rating
    comment := Text.trim (form.comment.getD "")
    createdAt := ctx.now }
  Action.change (Store.addReview review) (Failure.alreadyReviewed.onDuplicate)
  let stored ← Action.expect (.store .noRow) (← Action.query (Store.review? review.id))
  let reviewer ← Action.expect (.store .noRow) (← Action.query (Store.user? caller))
  Action.ofExcept (ReviewView.make [reviewer] stored)

def listReviews (user : Uuid) (q : PageQuery) : Action (Listing ReviewView) := do
  let page := q.resolve
  Action.connect
  let known ← Action.query fun s => .ok (s.hasUser user)
  Action.require known (.missing "user")
  let total ← Action.query (Store.countReviewsOf user)
  let offset ← Action.ofExcept (page.offset.mapError .arithmetic)
  let reviews ← Action.query (Store.reviewsOfWindow user offset page.limit)
  let reviewers ← Action.query (Store.usersWithIds (reviews.map (·.reviewerId)))
  let views ← Action.ofExcept (reviews.mapM (ReviewView.make reviewers))
  Action.ofExcept ((Listing.make views total page).mapError .arithmetic)

end GigBoard.Reputation
