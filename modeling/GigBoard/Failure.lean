import GigBoard.Account.TextPatch
import GigBoard.Json.Scanner
import GigBoard.Lifecycle
import GigBoard.Page
import GigBoard.Problem

/-!
# Failures

Every reason for which a request can fail, and the problem that is told for it.
-/

set_option autoImplicit false

namespace GigBoard

/-- Why the store refused a statement. -/
inductive StoreFault where
  | noRow
  | duplicate
  | missingReference
  | rejected
  | unreadable
  | unavailable
  deriving DecidableEq, Repr

/-- The problem told for a fault of the store that nobody handled. -/
def StoreFault.problem : StoreFault → Problem
  | .noRow => .notFound
  | _ => .internal

inductive BodyFault where
  | mediaType
  | tooLarge
  | malformed
  | mismatched
  deriving DecidableEq, Repr

def BodyFault.ofJson : Json.Fault → BodyFault
  | .malformed => .malformed
  | .mismatched => .mismatched

def BodyFault.message : BodyFault → String
  | .mediaType => "Expected request with `Content-Type: application/json`"
  | .tooLarge => "Failed to buffer the request body"
  | .malformed => "Failed to parse the request body as JSON"
  | .mismatched => "Failed to deserialize the JSON body into the target type"

inductive Failure where
  | unauthorized
  | invalidPath
  | invalidQuery
  | invalidBody (fault : BodyFault)
  | required (field : String)
  | notPositive (field : String)
  | blank (field : String)
  | notText (field : String)
  | notTextOrNull (field : String) (value : Json)
  | unknownName (name : UnknownName)
  | receiverAndContentRequired
  | ratingOutOfRange
  | notADecision
  | startsByAcceptance
  | cannotReopen
  | jobClosed
  | ownJob
  | alreadyDecided (status : ApplicationStatus)
  | jobNotInProgress
  | impossibleMove (source target : MilestoneStatus)
  | otherPartysMove (source target : MilestoneStatus)
  | jobNotCompleted
  | nobodyToReview
  | wrongReviewee
  | notOwner (deed : String)
  | notDecider
  | notParticipant
  | notReviewer
  | missing (thing : String)
  | alreadyRegistered
  | usernameTaken
  | alreadyApplied
  | jobNoLongerOpen
  | alreadyReviewed
  | store (fault : StoreFault)
  | arithmetic (fault : ArithmeticFault)
  | incomplete

namespace Failure

def moveText (source target : MilestoneStatus) : String :=
  "from " ++ Named.name source ++ " to " ++ Named.name target

def problem : Failure → Problem
  | .unauthorized => .unauthorized
  | .invalidPath => ⟨.badRequest, "Invalid URL"⟩
  | .invalidQuery => ⟨.badRequest, "Failed to deserialize query string"⟩
  | .invalidBody fault => ⟨.badRequest, fault.message⟩
  | .required field => ⟨.badRequest, field ++ " is required"⟩
  | .notPositive field => ⟨.badRequest, field ++ " must be a positive number"⟩
  | .blank field => ⟨.badRequest, field ++ " must not be empty"⟩
  | .notText field => ⟨.badRequest, field ++ " must be a string"⟩
  | .notTextOrNull field value => ⟨.badRequest, Account.TextPatch.refusal field value⟩
  | .unknownName name => ⟨.badRequest, name.message⟩
  | .receiverAndContentRequired => ⟨.badRequest, "receiverId and content are required"⟩
  | .ratingOutOfRange => ⟨.badRequest, "rating must be between 1 and 5"⟩
  | .notADecision => ⟨.badRequest, "status must be ACCEPTED or REJECTED"⟩
  | .startsByAcceptance =>
    ⟨.badRequest, "a job moves to IN_PROGRESS by accepting an application"⟩
  | .cannotReopen => ⟨.badRequest, "a job with an assigned freelancer cannot be reopened"⟩
  | .jobClosed => ⟨.badRequest, "job is not accepting applications"⟩
  | .ownJob => ⟨.badRequest, "cannot apply to your own job"⟩
  | .alreadyDecided status => ⟨.badRequest, "application is already " ++ Named.name status⟩
  | .jobNotInProgress =>
    ⟨.badRequest, "milestones can only change while the job is in progress"⟩
  | .impossibleMove source target =>
    ⟨.badRequest, "cannot move a milestone " ++ moveText source target⟩
  | .otherPartysMove source target =>
    ⟨.forbidden, "only the other party may move a milestone " ++ moveText source target⟩
  | .jobNotCompleted => ⟨.badRequest, "only completed jobs can be reviewed"⟩
  | .nobodyToReview => ⟨.badRequest, "job has no assigned freelancer to review"⟩
  | .wrongReviewee => ⟨.badRequest, "reviewee must be the other participant of the job"⟩
  | .notOwner deed => ⟨.forbidden, "not authorized to " ++ deed ++ " this job"⟩
  | .notDecider => ⟨.forbidden, "not authorized"⟩
  | .notParticipant => ⟨.forbidden, "not a participant of this job"⟩
  | .notReviewer => ⟨.forbidden, "only participants of the job can review it"⟩
  | .missing thing => ⟨.notFound, thing ++ " not found"⟩
  | .alreadyRegistered => ⟨.conflict, "wallet address or username is already registered"⟩
  | .usernameTaken => ⟨.conflict, "username is already taken"⟩
  | .alreadyApplied => ⟨.conflict, "you have already applied to this job"⟩
  | .jobNoLongerOpen => ⟨.conflict, "job is no longer open"⟩
  | .alreadyReviewed => ⟨.conflict, "you have already reviewed this job"⟩
  | .store fault => fault.problem
  | .arithmetic _ => .internal
  | .incomplete => .internal

end Failure

end GigBoard
