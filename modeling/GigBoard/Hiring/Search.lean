import GigBoard.Hiring.Views
import GigBoard.Listing
import GigBoard.Text.Blank

/-!
# Finding jobs

Everybody may search the jobs by category, state and text, and look at one with its applications.
-/

set_option autoImplicit false

namespace GigBoard.Hiring

structure JobQuery where
  category : Option String
  status : Option String
  search : Option String
  page : PageQuery
  deriving DecidableEq, Repr

namespace JobQuery

/-- The filter that a query asks for; blank parts do not count. -/
def filter (q : JobQuery) : Except Failure Store.JobFilter := do
  let status ←
    match q.status.bind Text.nonBlank? with
    | none => pure none
    | some s => ((Named.read s).mapError Failure.unknownName).map some
  return {
    category := q.category.bind Text.nonBlank?
    status := status
    pattern := (q.search.bind Text.nonBlank?).map fun s => Text.Pattern.around s.toList }

end JobQuery

/-- The number of applications for a job among the counts of several; none is counted for a job that
is missing there. -/
def countAmong (counts : List (Uuid × Nat)) (id : Uuid) : Nat :=
  ((counts.find? (·.1 = id)).map (·.2)).getD 0

def searchJobs (q : JobQuery) : Action (Listing JobView) := do
  let filter ← Action.ofExcept q.filter
  let page := q.page.resolve
  Action.connect
  let total ← Action.query (Store.countJobs filter)
  let offset ← Action.ofExcept (page.offset.mapError .arithmetic)
  let jobs ← Action.query (Store.jobsWindow filter offset page.limit)
  let milestones ← Action.query (Store.milestonesOf (jobs.map (·.id)))
  let counts ← Action.query (Store.applicationCounts (jobs.map (·.id)))
  let users ← Action.query (Store.usersWithIds (partiesOf jobs))
  let views := jobs.map fun j =>
    { JobView.make j milestones users .ofUser with applicationCount := some (countAmong counts j.id) }
  Action.ofExcept ((Listing.make views total page).mapError .arithmetic)

def showJob (id : Uuid) : Action JobView := do
  Action.connect
  let job ← findJob id
  let milestones ← Action.query (Store.milestonesOf [id])
  let applications ← Action.query (Store.applicationsFor id)
  let users ←
    Action.query (Store.usersWithIds (partiesOf [job] ++ applications.map (·.freelancerId)))
  let views ← Action.ofExcept (applications.mapM (ApplicationView.withFreelancer users .ofUser))
  return { JobView.make job milestones users .withBio with
    applicationCount := some views.length
    applications := some views }

end GigBoard.Hiring
