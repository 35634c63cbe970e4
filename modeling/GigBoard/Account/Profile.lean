import GigBoard.Account.Summary
import GigBoard.Hiring.Views
import GigBoard.Reputation.Views

/-!
# Profiles

What a user sees of the own account, and what everybody sees of any user: the reviews received with
their average, and the latest jobs on both sides.
-/

set_option autoImplicit false

namespace GigBoard.Account

structure UserView where
  id : Uuid
  walletAddress : String
  username : String
  email : Option String
  bio : Option String
  avatarUrl : Option String
  role : Role
  createdAt : Timestamp
  deriving DecidableEq

namespace UserView

def ofUser (u : User) : UserView :=
  ⟨u.id, u.walletAddress, u.username, u.email, u.bio, u.avatarUrl, u.role, u.createdAt⟩

def members (v : UserView) : List (String × Json) :=
  [("id", .string v.id.text), ("walletAddress", .string v.walletAddress),
    ("username", .string v.username), ("email", Json.orNull v.email), ("bio", Json.orNull v.bio),
    ("avatarUrl", Json.orNull v.avatarUrl), ("role", .string (Named.name v.role)),
    ("createdAt", .string v.createdAt.text)]

def toJson (v : UserView) : Json := .object v.members

end UserView

structure ProfileView where
  user : UserView
  reviewsReceived : List Reputation.ReviewView
  averageRating : Binary64
  reviewCount : Nat
  clientJobs : List Hiring.JobSummary
  freelancerJobs : List Hiring.JobSummary

def ProfileView.toJson (v : ProfileView) : Json :=
  .object (v.user.members ++
    [("reviewsReceived", .array (v.reviewsReceived.map (·.toJson))),
      ("averageRating", .real v.averageRating), ("reviewCount", .integer v.reviewCount),
      ("clientJobs", .array (v.clientJobs.map (·.toJson))),
      ("freelancerJobs", .array (v.freelancerJobs.map (·.toJson)))])

def profileReviews : Int := 20

def profileJobs : Int := 20

/-- The average of some points in hundredths, the larger of two; zero if there are none. -/
def averageRating (sum count : Nat) : Binary64 :=
  let hundred := Binary64.powerOfTen 2
  let hundredths : Option Binary64 :=
    if count = 0 then none
    else
      (((Binary64.ofRatio sum count).bind (·.mul hundred)).map Binary64.roundToNat).bind
        Binary64.ofNat
  (hundredths.bind (·.div hundred)).getD Binary64.zero

def showSelf (caller : Uuid) : Action UserView := do
  Action.connect
  let user ← Action.expect (.missing "user") (← Action.query (Store.user? caller))
  return .ofUser user

def showProfile (id : Uuid) : Action ProfileView := do
  Action.connect
  let user ← Action.expect (.missing "user") (← Action.query (Store.user? id))
  let sum ← Action.query (Store.sumRatingsOf id)
  let count ← Action.query (Store.countReviewsOf id)
  let received ← Action.query (Store.reviewsOfWindow id 0 profileReviews)
  let reviewers ← Action.query (Store.usersWithIds (received.map (·.reviewerId)))
  let reviews ← Action.ofExcept (received.mapM (Reputation.ReviewView.make reviewers))
  let posted ← Action.query (Store.newestJobs profileJobs fun j => j.clientId = id)
  let taken ← Action.query (Store.newestJobs profileJobs fun j => j.freelancerId = some id)
  return {
    user := .ofUser user
    reviewsReceived := reviews
    averageRating := averageRating sum.toNat count
    reviewCount := count
    clientJobs := posted.map .ofJob
    freelancerJobs := taken.map .ofJob }

end GigBoard.Account
