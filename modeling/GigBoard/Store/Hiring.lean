import GigBoard.Store.Account

/-!
# Statements on jobs, applications and milestones
-/

set_option autoImplicit false

namespace GigBoard.Store

open Delivery (Milestone)
open Hiring (Application Job)

/-- What jobs are searched by: an exact category, a state, and a pattern for title or description. -/
structure JobFilter where
  category : Option String
  status : Option JobStatus
  pattern : Option (List Char)
  deriving DecidableEq, Repr

namespace JobFilter

/-- Whether the texts of a filter can be handed to the store. -/
def isSendable (f : JobFilter) : Bool :=
  f.category.all Text.isStorable && f.pattern.all fun cs => cs.all fun c => c.toNat != 0

def accepts (f : JobFilter) (j : Job) : Bool :=
  f.category.all (· = j.category) && f.status.all (· = j.status) &&
    f.pattern.all fun p =>
      Text.Pattern.matchesText p j.title.toList || Text.Pattern.matchesText p j.description.toList

end JobFilter

/-! ## Jobs -/

def hasJob (s : Store) (id : Uuid) : Bool := s.jobs.any (·.id = id)

def job? (id : Uuid) : Query (Option Job) := fun s =>
  readRow Job.isReadable (s.jobs.find? (·.id = id))

def countJobs (f : JobFilter) : Query Nat := fun s =>
  if f.isSendable then .ok (s.jobs.filter f.accepts).length else .error .rejected

def jobsWindow (f : JobFilter) (offset limit : Int) : Query (List Job) := fun s =>
  if f.isSendable then
    readRows Job.isReadable
      (window offset limit (newestFirst Job.createdAt Job.id (s.jobs.filter f.accepts)))
  else .error .rejected

def newestJobs (limit : Int) (has : Job → Bool) : Query (List Job) := fun s =>
  readRows Job.isReadable
    (window 0 limit ((s.jobs.filter has).mergeSort fun a b => decide (b.createdAt ≤ a.createdAt)))

def jobTitles (ids : List Uuid) : Query (List (Uuid × String)) := fun s =>
  .ok ((s.jobs.filter fun j => ids.contains j.id).map fun j => (j.id, j.title))

/-- Adds a job, whose client must exist. -/
def addJob (j : Job) : Change Unit := fun s =>
  if !j.fits then .error .rejected
  else if s.hasJob j.id then .error .duplicate
  else if !(s.hasUser j.clientId && j.freelancerId.all s.hasUser) then .error .missingReference
  else .ok ((), { s with jobs := s.jobs ++ [j] })

def replaceJob (j : Job) : Change Unit := fun s =>
  if !j.fits then .error .rejected
  else .ok ((), { s with jobs := s.jobs.map fun k => if k.id = j.id then j else k })

/-- Assigns a job to a freelancer if it is still open, and returns how many jobs that were. -/
def assignJob (id freelancer : Uuid) (now : Timestamp) : Change Nat := fun s =>
  let due (j : Job) : Bool := j.id = id && j.status = .opened
  let assigned (j : Job) : Job :=
    { j with freelancerId := some freelancer, status := .inProgress, updatedAt := now }
  let count := s.jobs.countP due
  if count ≠ 0 && !s.hasUser freelancer then .error .missingReference
  else .ok (count, { s with jobs := s.jobs.map fun j => if due j then assigned j else j })

/-- Removes a job together with its milestones, applications and reviews; messages about it stay and
are about no job from now on.  Returns how many jobs that were. -/
def removeJob (id : Uuid) : Change Nat := fun s =>
  .ok (s.jobs.countP (·.id = id),
    { users := s.users
      jobs := s.jobs.filter (·.id ≠ id)
      milestones := s.milestones.filter (·.jobId ≠ id)
      applications := s.applications.filter (·.jobId ≠ id)
      messages := s.messages.map fun m => if m.jobId = some id then { m with jobId := none } else m
      reviews := s.reviews.filter (·.jobId ≠ id) })

/-! ## Milestones -/

/-- The milestones of some jobs, those of one job in their order. -/
def milestonesOf (jobIds : List Uuid) : Query (List Milestone) := fun s =>
  readRows Milestone.isReadable
    ((s.milestones.filter fun m => jobIds.contains m.jobId).mergeSort fun a b =>
      decide (a.order ≤ b.order))

def milestoneWithJob? (id : Uuid) : Query (Option (Milestone × Job)) := fun s =>
  readPair Milestone.isReadable Job.isReadable
    ((s.milestones.find? (·.id = id)).bind fun m =>
      (s.jobs.find? (·.id = m.jobId)).map fun j => (m, j))

def milestone? (id : Uuid) : Query (Option Milestone) := fun s =>
  readRow Milestone.isReadable (s.milestones.find? (·.id = id))

def milestonesClash (a b : Milestone) : Bool := a.id = b.id || (a.jobId = b.jobId && a.order = b.order)

/-- Whether some milestones clash with each other or with stored ones. -/
def anyMilestoneClash (stored : List Milestone) : List Milestone → Bool
  | [] => false
  | m :: ms => stored.any (milestonesClash m) || ms.any (milestonesClash m) ||
      anyMilestoneClash stored ms

/-- How many milestones one statement can add: it takes at most 65535 values, and a new milestone
has seven of them. -/
def greatestBatch : Nat := 65535 / 7

def addMilestones (ms : List Milestone) : Change Unit := fun s =>
  if greatestBatch < ms.length || !ms.all Milestone.fits then .error .rejected
  else if anyMilestoneClash s.milestones ms then .error .duplicate
  else if !ms.all (fun m => s.hasJob m.jobId) then .error .missingReference
  else .ok ((), { s with milestones := s.milestones ++ ms })

def setMilestoneStatus (id : Uuid) (status : MilestoneStatus) (now : Timestamp) : Change Unit :=
  fun s =>
    .ok ((), { s with
      milestones := s.milestones.map fun m =>
        if m.id = id then { m with status := status, updatedAt := now } else m })

/-! ## Applications -/

def application? (id : Uuid) : Query (Option Application) := fun s =>
  readRow Application.isReadable (s.applications.find? (·.id = id))

def applicationWithJob? (id : Uuid) : Query (Option (Application × Job)) := fun s =>
  readPair Application.isReadable Job.isReadable
    ((s.applications.find? (·.id = id)).bind fun a =>
      (s.jobs.find? (·.id = a.jobId)).map fun j => (a, j))

def countApplications (has : Application → Bool) : Query Nat := fun s =>
  .ok (s.applications.countP has)

/-- How many applications there are for each of some jobs; jobs without one are left out. -/
def applicationCounts (jobIds : List Uuid) : Query (List (Uuid × Nat)) := fun s =>
  let ids := (s.applications.map (·.jobId)).filter fun id => jobIds.contains id
  .ok (ids.eraseDups.map fun id => (id, ids.count id))

def applicationsFor (jobId : Uuid) : Query (List Application) := fun s =>
  readRows Application.isReadable
    (newestFirst Application.createdAt Application.id (s.applications.filter (·.jobId = jobId)))

def applicationsWindow (jobId : Uuid) (offset limit : Int) : Query (List Application) := fun s =>
  readRows Application.isReadable
    (window offset limit
      (newestFirst Application.createdAt Application.id (s.applications.filter (·.jobId = jobId))))

def applicationsOfWindow (freelancer : Uuid) (offset limit : Int) :
    Query (List (Application × Job)) := fun s =>
  let joined := (s.applications.filter (·.freelancerId = freelancer)).filterMap fun a =>
    (s.jobs.find? (·.id = a.jobId)).map fun j => (a, j)
  readRows (fun p => p.1.isReadable && p.2.isReadable)
    (window offset limit (newestFirst (fun p => p.1.createdAt) (fun p => p.1.id) joined))

/-- Adds an application, the first of its freelancer for its job; both must exist. -/
def addApplication (a : Application) : Change Unit := fun s =>
  if !a.fits then .error .rejected
  else if s.applications.any fun b =>
      b.id = a.id || (b.jobId = a.jobId && b.freelancerId = a.freelancerId) then
    .error .duplicate
  else if !(s.hasJob a.jobId && s.hasUser a.freelancerId) then .error .missingReference
  else .ok ((), { s with applications := s.applications ++ [a] })

def setApplicationStatus (id : Uuid) (status : ApplicationStatus) (now : Timestamp) :
    Change Unit := fun s =>
  .ok ((), { s with
    applications := s.applications.map fun a =>
      if a.id = id then { a with status := status, updatedAt := now } else a })

end GigBoard.Store
