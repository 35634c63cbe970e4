import GigBoard.Account.Registration
import GigBoard.Delivery.Progress
import GigBoard.Hiring.Search
import GigBoard.Messaging.Inbox
import GigBoard.Reputation.Reviewing
import GigBoard.Token

/-!
# Calls

Everything that can be asked of the service, with all that was said along with it.  A call that needs
to know its caller carries the caller's identifier; only the question who one is carries more of a
token.
-/

set_option autoImplicit false

namespace GigBoard

inductive Call where
  | health
  | whoAmI (who : Token.Identity)
  | register (form : Account.Registration)
  | showSelf (caller : Uuid)
  | updateSelf (caller : Uuid) (body : Json)
  | showProfile (user : Uuid)
  | listReviews (user : Uuid) (page : PageQuery)
  | searchJobs (query : Hiring.JobQuery)
  | postJob (caller : Uuid) (form : Hiring.JobForm)
  | showJob (job : Uuid)
  | updateJob (caller job : Uuid) (form : Hiring.JobChangeForm)
  | removeJob (caller job : Uuid)
  | listMilestones (job : Uuid)
  | applyForJob (caller job : Uuid) (form : Hiring.ApplicationForm)
  | listApplications (job : Uuid) (page : PageQuery)
  | listOwnApplications (caller : Uuid) (page : PageQuery)
  | decideApplication (caller application : Uuid) (form : Hiring.StatusForm)
  | moveMilestone (caller milestone : Uuid) (form : Hiring.StatusForm)
  | writeReview (caller : Uuid) (form : Reputation.ReviewForm)
  | showInbox (caller : Uuid) (query : Messaging.InboxQuery)
  | sendMessage (caller : Uuid) (form : Messaging.MessageForm)
  | countUnread (caller : Uuid)
  | openThread (caller other : Uuid) (job : Option Uuid)
  | markRead (caller message : Uuid)

/-- What is answered: a status and, except for an empty answer, a value. -/
structure Answer where
  status : Nat
  body : Option Json

namespace Answer

def ok (body : Json) : Answer := ⟨200, some body⟩

def created (body : Json) : Answer := ⟨201, some body⟩

def noContent : Answer := ⟨204, none⟩

def ofProblem (p : Problem) : Answer := ⟨p.status, some p.body⟩

end Answer

def Token.Identity.toJson (who : Token.Identity) : Json :=
  .object [("userId", .string who.userId.text), ("walletAddress", .string who.walletAddress),
    ("role", .string who.role)]

namespace Call

def answering {α : Type} (act : Action α) (answer : α → Answer) : Action Answer := do
  return answer (← act)

def perform : Call → Action Answer
  | .health => Action.done (.ok (.object [("status", .string "ok")]))
  | .whoAmI who => Action.done (.ok who.toJson)
  | .register form => answering (Account.register form) fun v => .created v.toJson
  | .showSelf caller => answering (Account.showSelf caller) fun v => .ok v.toJson
  | .updateSelf caller body => answering (Account.updateSelf caller body) fun v => .ok v.toJson
  | .showProfile user => answering (Account.showProfile user) fun v => .ok v.toJson
  | .listReviews user page =>
    answering (Reputation.listReviews user page) fun l => .ok (l.toJson (·.toJson))
  | .searchJobs query => answering (Hiring.searchJobs query) fun l => .ok (l.toJson (·.toJson))
  | .postJob caller form => answering (Hiring.postJob caller form) fun v => .created v.toJson
  | .showJob job => answering (Hiring.showJob job) fun v => .ok v.toJson
  | .updateJob caller job form =>
    answering (Hiring.updateJob caller job form) fun v => .ok v.toJson
  | .removeJob caller job =>
    answering (Hiring.removeJob caller job) fun _ =>
      .ok (.object [("message", .string "job deleted")])
  | .listMilestones job =>
    answering (Delivery.listMilestones job) fun ms => .ok (.array (ms.map (·.toJson)))
  | .applyForJob caller job form =>
    answering (Hiring.applyForJob caller job form) fun v => .created v.toJson
  | .listApplications job page =>
    answering (Hiring.listApplications job page) fun l => .ok (l.toJson (·.toJson))
  | .listOwnApplications caller page =>
    answering (Hiring.listOwnApplications caller page) fun l => .ok (l.toJson (·.toJson))
  | .decideApplication caller application form =>
    answering (Hiring.decideApplication caller application form) fun v => .ok v.toJson
  | .moveMilestone caller milestone form =>
    answering (Delivery.moveMilestone caller milestone form) fun v => .ok v.toJson
  | .writeReview caller form =>
    answering (Reputation.writeReview caller form) fun v => .created v.toJson
  | .showInbox caller query => answering (Messaging.showInbox caller query) fun v => .ok v.toJson
  | .sendMessage caller form => answering (Messaging.send caller form) fun v => .created v.toJson
  | .countUnread caller =>
    answering (Messaging.countUnread caller) fun n => .ok (.object [("count", .integer n)])
  | .openThread caller other job =>
    answering (Messaging.openThread caller other job) fun ms => .ok (.array (ms.map (·.toJson)))
  | .markRead caller message =>
    answering (Messaging.markRead caller message) fun _ => .noContent

end Call

end GigBoard
