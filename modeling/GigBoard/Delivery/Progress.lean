import GigBoard.Hiring.Applying

/-!
# Progress of a job

While a job is in progress its two parties move its milestones, each by the moves of its own side.
-/

set_option autoImplicit false

namespace GigBoard.Delivery

open Hiring (Job MilestoneView StatusForm)

def listMilestones (jobId : Uuid) : Action (List MilestoneView) := do
  Action.connect
  let _ ← Hiring.findJob jobId
  let milestones ← Action.query (Store.milestonesOf [jobId])
  return milestones.map .ofMilestone

def statusOfForm (f : StatusForm) : Except Failure MilestoneStatus :=
  match f.status with
  | none => .error (.required "status")
  | some s => (Named.read s).mapError .unknownName

/-- Whether a party may move a milestone, and if not, why. -/
def checkMove (party : Party) (source target : MilestoneStatus) : Except Failure Unit :=
  if source.mayBecome party target then .ok ()
  else if source.mayBecome party.other target then .error (.otherPartysMove source target)
  else .error (.impossibleMove source target)

def move (caller id : Uuid) (target : MilestoneStatus) : Action Milestone := do
  let (milestone, job) ←
    Action.expect (.missing "milestone") (← Action.query (Store.milestoneWithJob? id))
  let party ← Action.expect .notParticipant (job.party? caller)
  Action.require (job.status = .inProgress) .jobNotInProgress
  Action.ofExcept (checkMove party milestone.status target)
  let ctx ← Action.context
  Action.change (Store.setMilestoneStatus id target ctx.now) .store
  Action.expect (.store .noRow) (← Action.query (Store.milestone? id))

def moveMilestone (caller id : Uuid) (form : StatusForm) : Action MilestoneView := do
  let target ← Action.ofExcept (statusOfForm form)
  Action.connect
  let updated ← Action.transaction (move caller id target)
  return .ofMilestone updated

end GigBoard.Delivery
