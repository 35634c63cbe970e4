import GigBoard.Call
import GigBoard.Http.Input
import GigBoard.Json.Reader

/-!
# Resources

The paths of the service, the methods that each of them knows, and the call that a request for a
resource makes.  An identifier in a path is any segment that is not empty; whether it is one is found
out later.
-/

set_option autoImplicit false

namespace GigBoard.Http

inductive Resource where
  | health
  | identity
  | users
  | ownAccount
  | profile (user : List Char)
  | reviewsOf (user : List Char)
  | jobs
  | job (job : List Char)
  | milestonesOf (job : List Char)
  | applyFor (job : List Char)
  | applicationsFor (job : List Char)
  | ownApplications
  | applicationStatus (application : List Char)
  | milestoneStatus (milestone : List Char)
  | reviews
  | messages
  | unreadCount
  | thread (user : List Char)
  | messageRead (message : List Char)
  deriving DecidableEq, Repr

namespace Resource

def ofUserSegments : List (List Char) → Option Resource
  | [] => some .users
  | [id] => if id = "me".toList then some .ownAccount else some (.profile id)
  | [id, part] => if part = "reviews".toList then some (.reviewsOf id) else none
  | _ => none

def ofJobSegments : List (List Char) → Option Resource
  | [] => some .jobs
  | [id] => some (.job id)
  | [id, part] =>
    if part = "milestones".toList then some (.milestonesOf id)
    else if part = "apply".toList then some (.applyFor id)
    else if part = "applications".toList then some (.applicationsFor id)
    else none
  | _ => none

def ofApplicationSegments : List (List Char) → Option Resource
  | [part] => if part = "mine".toList then some .ownApplications else none
  | [id, part] => if part = "status".toList then some (.applicationStatus id) else none
  | _ => none

def ofMilestoneSegments : List (List Char) → Option Resource
  | [id, part] => if part = "status".toList then some (.milestoneStatus id) else none
  | _ => none

def ofMessageSegments : List (List Char) → Option Resource
  | [] => some .messages
  | [id] => if id = "unread-count".toList then some .unreadCount else some (.thread id)
  | [id, part] => if part = "read".toList then some (.messageRead id) else none
  | _ => none

def ofSegments : List (List Char) → Option Resource
  | [] => none
  | area :: rest =>
    if area = "users".toList then ofUserSegments rest
    else if area = "jobs".toList then ofJobSegments rest
    else if area = "applications".toList then ofApplicationSegments rest
    else if area = "milestones".toList then ofMilestoneSegments rest
    else if area = "messages".toList then ofMessageSegments rest
    else if area = "reviews".toList then if rest.isEmpty then some .reviews else none
    else if area = "auth".toList then if rest = ["me".toList] then some .identity else none
    else if area = "health".toList then if rest.isEmpty then some .health else none
    else none

def ofPath? (path : List Char) : Option Resource :=
  match Text.splitAt '/' path with
  | [] :: root :: rest =>
    if root = "api".toList && rest.all (!·.isEmpty) then ofSegments rest else none
  | _ => none

/-- Whether everything about a resource is for known callers only. -/
def isGuarded : Resource → Bool
  | .ownApplications => true
  | .applicationStatus _ => true
  | .milestoneStatus _ => true
  | .reviews => true
  | .messages => true
  | .unreadCount => true
  | .thread _ => true
  | .messageRead _ => true
  | _ => false

def allow : Resource → String
  | .users => "POST"
  | .ownAccount => "GET,HEAD,PUT"
  | .jobs => "GET,HEAD,POST"
  | .job _ => "GET,HEAD,PUT,DELETE"
  | .applyFor _ => "POST"
  | .applicationStatus _ => "PUT"
  | .milestoneStatus _ => "PUT"
  | .reviews => "POST"
  | .messages => "GET,HEAD,POST"
  | .messageRead _ => "PUT"
  | _ => "GET,HEAD"

inductive Verb where
  | read
  | add
  | change
  | remove
  deriving DecidableEq, Repr

def Verb.ofMethod? : Method → Option Verb
  | .get => some .read
  | .head => some .read
  | .post => some .add
  | .put => some .change
  | .delete => some .remove
  | _ => none

/-- The call that a request makes, for a caller who is known or not; none if the resource does not
know the method.  Of several faults the caller's identity comes first, then the path, then the query
or the body. -/
def callFor? (r : Request) (auth : Except Failure Token.Identity) :
    Resource → Verb → Option (Except Failure Call)
  | .health, .read => some (.ok .health)
  | .identity, .read => some do return .whoAmI (← auth)
  | .users, .add => some do return .register (← r.decodeBody Account.Registration.decoder)
  | .ownAccount, .read => some do return .showSelf (← auth).userId
  | .ownAccount, .change => some do
    let who ← auth
    return .updateSelf who.userId (← r.decodeBody Json.Decoder.json)
  | .profile id, .read => some do return .showProfile (← pathId id)
  | .reviewsOf id, .read => some do
    let id ← pathId id
    return .listReviews id (← pageQuery (Text.Form.pairs r.query))
  | .jobs, .read => some do
    let pairs := Text.Form.pairs r.query
    return .searchJobs ⟨← queryValue pairs "category", ← queryValue pairs "status",
      ← queryValue pairs "search", ← pageQuery pairs⟩
  | .jobs, .add => some do
    let who ← auth
    return .postJob who.userId (← r.decodeBody Hiring.JobForm.decoder)
  | .job id, .read => some do return .showJob (← pathId id)
  | .job id, .change => some do
    let who ← auth
    let id ← pathId id
    return .updateJob who.userId id (← r.decodeBody Hiring.JobChangeForm.decoder)
  | .job id, .remove => some do
    let who ← auth
    return .removeJob who.userId (← pathId id)
  | .milestonesOf id, .read => some do return .listMilestones (← pathId id)
  | .applyFor id, .add => some do
    let who ← auth
    let id ← pathId id
    return .applyForJob who.userId id (← r.decodeBody Hiring.ApplicationForm.decoder)
  | .applicationsFor id, .read => some do
    let _ ← auth
    let id ← pathId id
    return .listApplications id (← pageQuery (Text.Form.pairs r.query))
  | .ownApplications, .read => some do
    let who ← auth
    return .listOwnApplications who.userId (← pageQuery (Text.Form.pairs r.query))
  | .applicationStatus id, .change => some do
    let who ← auth
    let id ← pathId id
    return .decideApplication who.userId id (← r.decodeBody Hiring.StatusForm.decoder)
  | .milestoneStatus id, .change => some do
    let who ← auth
    let id ← pathId id
    return .moveMilestone who.userId id (← r.decodeBody Hiring.StatusForm.decoder)
  | .reviews, .add => some do
    let who ← auth
    return .writeReview who.userId (← r.decodeBody Reputation.ReviewForm.decoder)
  | .messages, .read => some do
    let who ← auth
    let pairs := Text.Form.pairs r.query
    return .showInbox who.userId ⟨← queryId pairs "participantId", ← queryId pairs "jobId"⟩
  | .messages, .add => some do
    let who ← auth
    return .sendMessage who.userId (← r.decodeBody Messaging.MessageForm.decoder)
  | .unreadCount, .read => some do return .countUnread (← auth).userId
  | .thread id, .read => some do
    let who ← auth
    let id ← pathId id
    return .openThread who.userId id (← queryId (Text.Form.pairs r.query) "jobId")
  | .messageRead id, .change => some do
    let who ← auth
    return .markRead who.userId (← pathId id)
  | _, _ => none

end Resource

end GigBoard.Http
