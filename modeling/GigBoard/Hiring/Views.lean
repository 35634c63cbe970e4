import GigBoard.Account.Summary
import GigBoard.Store.Hiring

/-!
# Jobs, milestones and applications as they are shown
-/

set_option autoImplicit false

namespace GigBoard.Hiring

open Account (User UserSummary)
open Delivery (Milestone)

structure JobSummary where
  id : Uuid
  title : String
  category : String
  budget : Binary64
  status : JobStatus
  createdAt : Timestamp
  deriving DecidableEq

namespace JobSummary

def ofJob (j : Job) : JobSummary := ⟨j.id, j.title, j.category, j.budget, j.status, j.createdAt⟩

def toJson (s : JobSummary) : Json :=
  .object [("id", .string s.id.text), ("title", .string s.title), ("category", .string s.category),
    ("budget", .real s.budget), ("status", .string (Named.name s.status)),
    ("createdAt", .string s.createdAt.text)]

end JobSummary

structure MilestoneView where
  id : Uuid
  jobId : Uuid
  title : String
  description : String
  amount : Binary64
  status : MilestoneStatus
  order : Int
  deriving DecidableEq

namespace MilestoneView

def ofMilestone (m : Milestone) : MilestoneView :=
  ⟨m.id, m.jobId, m.title, m.description, m.amount, m.status, m.order⟩

def toJson (v : MilestoneView) : Json :=
  .object [("id", .string v.id.text), ("jobId", .string v.jobId.text), ("title", .string v.title),
    ("description", .string v.description), ("amount", .real v.amount),
    ("status", .string (Named.name v.status)), ("order", .integer v.order)]

end MilestoneView

structure ApplicationView where
  id : Uuid
  jobId : Uuid
  freelancerId : Uuid
  coverLetter : String
  proposedBudget : Binary64
  status : ApplicationStatus
  createdAt : Timestamp
  updatedAt : Timestamp
  freelancer : Option UserSummary
  job : Option JobSummary
  deriving DecidableEq

namespace ApplicationView

def ofApplication (a : Application) : ApplicationView where
  id := a.id
  jobId := a.jobId
  freelancerId := a.freelancerId
  coverLetter := a.coverLetter
  proposedBudget := a.proposedBudget
  status := a.status
  createdAt := a.createdAt
  updatedAt := a.updatedAt
  freelancer := none
  job := none

/-- The view of an application with its freelancer, who must be among some users. -/
def withFreelancer (users : List User) (summary : User → UserSummary) (a : Application) :
    Except Failure ApplicationView :=
  match Account.among users a.freelancerId with
  | none => .error .incomplete
  | some u => .ok { ofApplication a with freelancer := some (summary u) }

def withJob (a : Application) (j : Job) : ApplicationView :=
  { ofApplication a with job := some (.ofJob j) }

def toJson (v : ApplicationView) : Json :=
  .object ([("id", .string v.id.text), ("jobId", .string v.jobId.text),
    ("freelancerId", .string v.freelancerId.text), ("coverLetter", .string v.coverLetter),
    ("proposedBudget", .real v.proposedBudget), ("status", .string (Named.name v.status)),
    ("createdAt", .string v.createdAt.text), ("updatedAt", .string v.updatedAt.text)] ++
    Json.ifPresent "freelancer" (v.freelancer.map (·.toJson)) ++
    Json.ifPresent "job" (v.job.map (·.toJson)))

end ApplicationView

/-- A job as it is shown, with its two parties and milestones, and in some places with the number of
its applications or the applications themselves. -/
structure JobView where
  id : Uuid
  title : String
  description : String
  budget : Binary64
  category : String
  status : JobStatus
  clientId : Uuid
  freelancerId : Option Uuid
  createdAt : Timestamp
  updatedAt : Timestamp
  client : Option UserSummary
  freelancer : Option UserSummary
  milestones : List MilestoneView
  applicationCount : Option Nat
  applications : Option (List ApplicationView)

namespace JobView

/-- The view of a job: of the milestones those that are its own, and of the users its two parties. -/
def make (j : Job) (milestones : List Milestone) (users : List User)
    (summary : User → UserSummary) : JobView where
  id := j.id
  title := j.title
  description := j.description
  budget := j.budget
  category := j.category
  status := j.status
  clientId := j.clientId
  freelancerId := j.freelancerId
  createdAt := j.createdAt
  updatedAt := j.updatedAt
  client := (Account.among users j.clientId).map summary
  freelancer := (j.freelancerId.bind (Account.among users)).map summary
  milestones := (milestones.filter (·.jobId = j.id)).map .ofMilestone
  applicationCount := none
  applications := none

def toJson (v : JobView) : Json :=
  .object ([("id", .string v.id.text), ("title", .string v.title),
    ("description", .string v.description), ("budget", .real v.budget),
    ("category", .string v.category), ("status", .string (Named.name v.status)),
    ("clientId", .string v.clientId.text),
    ("freelancerId", Json.orNull (v.freelancerId.map (·.text))),
    ("createdAt", .string v.createdAt.text), ("updatedAt", .string v.updatedAt.text)] ++
    Json.ifPresent "client" (v.client.map (·.toJson)) ++
    Json.ifPresent "freelancer" (v.freelancer.map (·.toJson)) ++
    [("milestones", .array (v.milestones.map (·.toJson)))] ++
    Json.ifPresent "applicationCount" (v.applicationCount.map fun n => .integer n) ++
    Json.ifPresent "applications" (v.applications.map fun as => .array (as.map (·.toJson))))

end JobView

def partiesOf (jobs : List Job) : List Uuid :=
  jobs.flatMap fun j => j.clientId :: j.freelancerId.toList

def findJob (id : Uuid) : Action Job := do
  Action.expect (.missing "job") (← Action.query (Store.job? id))

def viewJob (j : Job) (users : List Uuid) : Action JobView := do
  let milestones ← Action.query (Store.milestonesOf [j.id])
  let users ← Action.query (Store.usersWithIds users)
  return .make j milestones users .ofUser

end GigBoard.Hiring
