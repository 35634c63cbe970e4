import GigBoard.Hiring.Posting
import GigBoard.Listing

/-!
# Applying and deciding

A freelancer applies once for an open job of somebody else.  The client of the job accepts or rejects
each application; the first one accepted assigns the job.
-/

set_option autoImplicit false

namespace GigBoard.Hiring

structure ApplicationForm where
  coverLetter : Option String
  proposedBudget : Option Binary64
  deriving DecidableEq, Repr

namespace ApplicationForm

def known : List (Json.Decoder.Member ApplicationForm) := [
  .of "coverLetter" Json.Decoder.text.nullable fun f v => { f with coverLetter := v },
  .of "proposedBudget" Json.Decoder.real.nullable fun f v => { f with proposedBudget := v }]

def decoder : Json.Decoder ApplicationForm := Json.Decoder.record ⟨none, none⟩ known

end ApplicationForm

def checkApplicant (job : Job) (applicant : Uuid) : Except Failure Unit :=
  if job.status ≠ .opened then .error .jobClosed
  else if job.clientId = applicant then .error .ownJob
  else .ok ()

def applyForJob (caller id : Uuid) (form : ApplicationForm) : Action ApplicationView := do
  Action.connect
  let job ← findJob id
  Action.ofExcept (checkApplicant job caller)
  let budget ← Action.ofExcept (positiveAmount "proposedBudget" form.proposedBudget)
  let ctx ← Action.context
  let application : Application := {
    id := ctx.freshId 0
    jobId := id
    freelancerId := caller
    coverLetter := Text.trim (form.coverLetter.getD "")
    proposedBudget := budget
    status := .pending
    createdAt := ctx.now
    updatedAt := ctx.now }
  Action.change (Store.addApplication application) (Failure.alreadyApplied.onDuplicate)
  let stored ←
    Action.expect (.store .noRow) (← Action.query (Store.application? application.id))
  let users ← Action.query (Store.usersWithIds [caller])
  Action.ofExcept (ApplicationView.withFreelancer users .ofUser stored)

def listApplications (id : Uuid) (q : PageQuery) : Action (Listing ApplicationView) := do
  let page := q.resolve
  Action.connect
  let _ ← findJob id
  let total ← Action.query (Store.countApplications (·.jobId = id))
  let offset ← Action.ofExcept (page.offset.mapError .arithmetic)
  let applications ← Action.query (Store.applicationsWindow id offset page.limit)
  let users ← Action.query (Store.usersWithIds (applications.map (·.freelancerId)))
  let views ← Action.ofExcept (applications.mapM (ApplicationView.withFreelancer users .withBio))
  Action.ofExcept ((Listing.make views total page).mapError .arithmetic)

def listOwnApplications (caller : Uuid) (q : PageQuery) : Action (Listing ApplicationView) := do
  let page := q.resolve
  Action.connect
  let total ← Action.query (Store.countApplications (·.freelancerId = caller))
  let offset ← Action.ofExcept (page.offset.mapError .arithmetic)
  let rows ← Action.query (Store.applicationsOfWindow caller offset page.limit)
  let views := rows.map fun (a, j) => ApplicationView.withJob a j
  Action.ofExcept ((Listing.make views total page).mapError .arithmetic)

structure StatusForm where
  status : Option String
  deriving DecidableEq, Repr

def StatusForm.decoder : Json.Decoder StatusForm :=
  Json.Decoder.record ⟨none⟩
    [.of "status" Json.Decoder.text.nullable fun (_ : StatusForm) v => ⟨v⟩]

/-- The two ways to decide an application. -/
inductive Decision where
  | accept
  | reject
  deriving DecidableEq, Repr

namespace Decision

def status : Decision → ApplicationStatus
  | .accept => .accepted
  | .reject => .rejected

def ofForm (f : StatusForm) : Except Failure Decision :=
  match f.status.map Named.read with
  | some (.ok ApplicationStatus.accepted) => .ok .accept
  | some (.ok ApplicationStatus.rejected) => .ok .reject
  | _ => .error .notADecision

end Decision

/-- Assigns the job of an accepted application, if it is still open. -/
def assign (application : Application) (job : Job) (now : Timestamp) : Action Unit := do
  let count ← Action.change (Store.assignJob job.id application.freelancerId now) .store
  Action.require (count ≠ 0) .jobNoLongerOpen

def carryOut (caller id : Uuid) (decision : Decision) : Action Application := do
  let (application, job) ←
    Action.expect (.missing "application") (← Action.query (Store.applicationWithJob? id))
  Action.require (job.clientId = caller) .notDecider
  Action.require (application.status.mayBecome decision.status)
    (.alreadyDecided application.status)
  let ctx ← Action.context
  Action.change (Store.setApplicationStatus id decision.status ctx.now) .store
  match decision with
  | .accept => assign application job ctx.now
  | .reject => Action.done ()
  Action.expect (.store .noRow) (← Action.query (Store.application? id))

def decideApplication (caller id : Uuid) (form : StatusForm) : Action ApplicationView := do
  let decision ← Action.ofExcept (Decision.ofForm form)
  Action.connect
  let updated ← Action.transaction (carryOut caller id decision)
  let users ← Action.query (Store.usersWithIds [updated.freelancerId])
  Action.ofExcept (ApplicationView.withFreelancer users .ofUser updated)

end GigBoard.Hiring
