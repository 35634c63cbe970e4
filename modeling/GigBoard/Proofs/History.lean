import GigBoard.Proofs.Assignment
import GigBoard.Proofs.Differences

/-!
# The life of jobs and applications

What one request may do to a job and to an application, and what follows for whole runs: once a job is
assigned it stays with its freelancer, and once an application is rejected nothing comes of it.
-/

set_option autoImplicit false

namespace GigBoard

open Hiring (Application Job)
open Http (Request Resource)
open Store (Coherent)

def Store.Accepts (s s' : Store) (job freelancer : Uuid) : Prop :=
  ∃ a ∈ s.applications, ∃ a' ∈ s'.applications, a'.id = a.id ∧ a.jobId = job ∧
    a.freelancerId = freelancer ∧ a.status = .pending ∧ a'.status = .accepted

/-- What lasts when one store becomes another: an application is decided at most once and changes in
nothing else, it goes only with its job, and a job keeps its client and its freelancer, whom it gets
when it is started by accepting an application. -/
structure Store.LeadsTo (s s' : Store) : Prop where
  applicationKept : ∀ a ∈ s.applications, ∀ a' ∈ s'.applications, a'.id = a.id →
    a'.jobId = a.jobId ∧ a'.freelancerId = a.freelancerId ∧ a'.coverLetter = a.coverLetter ∧
      a'.proposedBudget = a.proposedBudget ∧ a'.createdAt = a.createdAt
  applicationDecided : ∀ a ∈ s.applications, ∀ a' ∈ s'.applications, a'.id = a.id →
    a'.status = a.status ∨
      (a.status = .pending ∧ (a'.status = .accepted ∨ a'.status = .rejected))
  applicationGone : ∀ a ∈ s.applications, (∀ a' ∈ s'.applications, a'.id ≠ a.id) →
    s.hasJob a.jobId = true ∧ s'.hasJob a.jobId = false
  jobKept : ∀ j ∈ s.jobs, ∀ j' ∈ s'.jobs, j'.id = j.id →
    j'.clientId = j.clientId ∧ j'.createdAt = j.createdAt
  jobAssigned : ∀ j ∈ s.jobs, ∀ j' ∈ s'.jobs, j'.id = j.id →
    (j'.freelancerId = j.freelancerId ∧ ∀ f, ¬ s.Accepts s' j.id f) ∨
      ∃ f, j.freelancerId = none ∧ j'.freelancerId = some f ∧ j.status = .opened ∧
        j'.status = .inProgress ∧ s.Accepts s' j.id f

namespace Differences

variable {s s' : Store} {caller : Option Uuid} {registering : Prop}

theorem application_eq_or_decided (d : Differences caller registering s s') {a a' : Application}
    (ha : a ∈ s.applications) (ha' : a' ∈ s'.applications) (same : a'.id = a.id) :
    a' = a ∨ (a.status = .pending ∧ (a'.status = .accepted ∨ a'.status = .rejected) ∧
      a' = { a with status := a'.status, updatedAt := a'.updatedAt }) := by
  rcases d.applications.changed a ha a' ha' same with unchanged | ⟨pending, decided, rest, _⟩
  · exact .inl unchanged
  · exact .inr ⟨pending, decided, rest⟩

/-- An accepted application was accepted before or is accepted now. -/
theorem accepted_before_or_now (d : Differences caller registering s s') {job f : Uuid}
    (accepted : Hiring.AcceptedFor s'.applications job f) :
    Hiring.AcceptedFor s.applications job f ∨ s.Accepts s' job f := by
  obtain ⟨a', ha', of, by_, isAccepted⟩ := accepted
  by_cases new : ∀ a ∈ s.applications, a.id ≠ a'.id
  · obtain ⟨_, pending⟩ := d.applications.added a' ha' new
    rw [pending] at isAccepted
    cases isAccepted
  · push Not at new
    obtain ⟨a, ha, same⟩ := new
    rcases d.application_eq_or_decided ha ha' same.symm with unchanged | ⟨pending, _, rest⟩
    · rw [unchanged] at of by_ isAccepted
      exact .inl ⟨a, ha, of, by_, isAccepted⟩
    · rw [rest] at of by_
      exact .inr ⟨a, ha, a', ha', same.symm, of, by_, pending, isAccepted⟩

/-- Whose application is accepted is the freelancer of the job afterwards, and was not before. -/
theorem freelancer_of_accepts (before : Coherent s) (after : Coherent s') {j j' : Job} {f : Uuid}
    (d : Differences caller registering s s') (hj : j ∈ s.jobs) (hj' : j' ∈ s'.jobs)
    (same : j'.id = j.id) (accepts : s.Accepts s' j.id f) :
    j.freelancerId ≠ some f ∧ j'.freelancerId = some f := by
  obtain ⟨a, ha, a', ha', sameId, of, by_, pending, accepted⟩ := accepts
  constructor
  · intro isFreelancer
    obtain ⟨b, hb, ofB, byB, acceptedB⟩ := (before.agreed.assigned j hj f).mp isFreelancer
    have isA : b = a := by
      apply before.sound.keyed.applicant.eq_of_same hb ha
      rw [ofB, byB, of, by_]
    rw [isA, pending] at acceptedB
    cases acceptedB
  · apply (after.agreed.assigned j' hj' f).mpr
    -- The row changed, so it is still an application of the same freelancer for the same job.
    rcases d.application_eq_or_decided ha ha' sameId with unchanged | ⟨_, _, rest⟩
    · rw [unchanged, pending] at accepted
      cases accepted
    · refine ⟨a', ha', ?_, ?_, accepted⟩
      · rw [rest, same]
        exact of
      · rw [rest]
        exact by_

theorem leadsTo (d : Differences caller registering s s') (before : Coherent s)
    (after : Coherent s') : s.LeadsTo s' where
  applicationKept a ha a' ha' same := by
    rcases d.application_eq_or_decided ha ha' same with unchanged | ⟨_, _, rest⟩
    · rw [unchanged]
      exact ⟨rfl, rfl, rfl, rfl, rfl⟩
    · rw [rest]
      exact ⟨rfl, rfl, rfl, rfl, rfl⟩
  applicationDecided a ha a' ha' same := by
    rcases d.application_eq_or_decided ha ha' same with unchanged | ⟨pending, decided, _⟩
    · rw [unchanged]
      exact .inl rfl
    · exact .inr ⟨pending, decided⟩
  applicationGone a ha gone := by
    obtain ⟨lost, _⟩ := d.applications.removed a ha gone
    exact ⟨before.sound.linked.applicationJob a ha, lost⟩
  jobKept j hj j' hj' same := by
    rcases d.jobs.changed j hj j' hj' same with unchanged | ⟨_, client, created, _⟩
    · rw [unchanged]
      exact ⟨rfl, rfl⟩
    · exact ⟨client, created⟩
  jobAssigned j hj j' hj' same := by
    have stays : j'.freelancerId = j.freelancerId → ∀ f, ¬ s.Accepts s' j.id f := by
      intro kept f accepts
      obtain ⟨notBefore, now⟩ := freelancer_of_accepts before after d hj hj' same accepts
      exact notBefore (kept.symm.trans now)
    rcases d.jobs.changed j hj j' hj' same with unchanged | ⟨_, _, _, kept | ⟨isOpen, started⟩⟩
    · have kept : j'.freelancerId = j.freelancerId := by rw [unchanged]
      exact .inl ⟨kept, stays kept⟩
    · exact .inl ⟨kept, stays kept⟩
    · right
      have free := before.agreed.opened j hj isOpen
      obtain ⟨f, taken⟩ := Option.ne_none_iff_exists'.mp (after.agreed.inProgress j' hj' started)
      refine ⟨f, free, taken, isOpen, started, ?_⟩
      have accepted := (after.agreed.assigned j' hj' f).mp taken
      rw [same] at accepted
      rcases d.accepted_before_or_now accepted with earlier | now
      · have assigned := (before.agreed.assigned j hj f).mpr earlier
        rw [free] at assigned
        cases assigned
      · exact now

end Differences

/-! ## Runs -/

namespace Server

variable {ctx : Context} {r : Request} {s : Store} {server : Server}

theorem handle_leadsTo (server : Server) (ctx : Context) (r : Request) (coherent : s.Coherent) :
    s.LeadsTo (server.handle ctx r s).2 :=
  (server.handle_differences ctx r coherent.sound).leadsTo coherent
    (server.handle_coherent ctx r coherent)

/-- A job is there from the beginning to the end of a run. -/
def KeepsJob (server : Server) (steps : List (Context × Request)) (s : Store) (id : Uuid) : Prop :=
  ∀ n, (server.run (steps.take n) s).hasJob id = true

theorem KeepsJob.first {steps : List (Context × Request)} {id : Uuid}
    (kept : server.KeepsJob steps s id) : s.hasJob id = true := by
  have atFirst := kept 0
  rw [List.take_zero] at atFirst
  exact atFirst

theorem KeepsJob.rest {steps : List (Context × Request)} {id : Uuid}
    (kept : server.KeepsJob ((ctx, r) :: steps) s id) :
    server.KeepsJob steps (server.handle ctx r s).2 id := by
  intro n
  have later := kept (n + 1)
  rw [List.take_succ_cons] at later
  exact later

/-- What every request keeps as long as a job is there is kept by runs that keep the job. -/
theorem run_keeps_with_job (id : Uuid) {p : Store → Prop}
    (keeps : ∀ ctx r s, s.Coherent → s.hasJob id = true →
      (server.handle ctx r s).2.hasJob id = true → p s → p (server.handle ctx r s).2)
    (steps : List (Context × Request)) {s : Store} (coherent : s.Coherent)
    (kept : server.KeepsJob steps s id) (before : p s) : p (server.run steps s) := by
  -- On the requests that are left; what is kept may rely on a coherent store at each of them.
  induction steps generalizing s with
  | nil => exact before
  | cons step steps ih =>
      obtain ⟨ctx, r⟩ := step
      apply ih (server.handle_coherent ctx r coherent) kept.rest
      exact keeps ctx r s coherent kept.first kept.rest.first before

/-- An assigned job stays with its freelancer. -/
theorem run_keeps_freelancer {steps : List (Context × Request)} {j : Job} {f : Uuid}
    (coherent : s.Coherent) (kept : server.KeepsJob steps s j.id) (hj : j ∈ s.jobs)
    (assigned : j.freelancerId = some f) :
    ∀ k ∈ (server.run steps s).jobs, k.id = j.id → k.freelancerId = some f := by
  apply run_keeps_with_job j.id (p := fun t => ∀ k ∈ t.jobs, k.id = j.id → k.freelancerId = some f)
  · intro ctx r t before there _ assigned k hk same
    obtain ⟨i, hi, isIt⟩ := (t.hasJob_iff j.id).mp there
    have leads := server.handle_leadsTo ctx r before
    rcases leads.jobAssigned i hi k hk (same.trans isIt.symm) with ⟨stays, _⟩ | ⟨g, free, _⟩
    · rw [stays]
      exact assigned i hi isIt
    · rw [assigned i hi isIt] at free
      cases free
  · exact coherent
  · exact kept
  · intro k hk same
    rw [coherent.sound.keyed.jobId.eq_of_same hk hj same]
    exact assigned

/-- A rejected application stays as it is as long as its job is there. -/
theorem run_keeps_rejected {steps : List (Context × Request)} {a : Application}
    (coherent : s.Coherent) (kept : server.KeepsJob steps s a.jobId) (ha : a ∈ s.applications)
    (rejected : a.status = .rejected) : a ∈ (server.run steps s).applications := by
  apply run_keeps_with_job a.jobId (p := fun t => a ∈ t.applications)
  · intro ctx r t before _ there member
    have d := server.handle_differences ctx r before.sound
    by_cases gone : ∀ b ∈ (server.handle ctx r t).2.applications, b.id ≠ a.id
    · rw [((d.leadsTo before (server.handle_coherent ctx r before)).applicationGone a member gone).2]
        at there
      cases there
    · push Not at gone
      obtain ⟨b, hb, same⟩ := gone
      -- Only pending rows change, so the row found under the identifier is the old one.
      rcases d.application_eq_or_decided member hb same with unchanged | ⟨pending, _⟩
      · rw [← unchanged]
        exact hb
      · rw [rejected] at pending
        cases pending
  · exact coherent
  · exact kept
  · exact ha

/-! ## Applications for a job that is not open -/

structure AppliesFor (server : Server) (ctx : Context) (r : Request) (id : Uuid) : Prop where
  connected : ctx.connected = true
  method : r.method = .post
  path : ∃ segment, Resource.ofPath? r.path = some (.applyFor segment) ∧
    Http.pathId segment = .ok id
  known : ∃ who, server.identify ctx.now r = .ok who
  body : ∃ form, r.decodeBody Hiring.ApplicationForm.decoder = .ok form

theorem AppliesFor.asked {id : Uuid} (applies : server.AppliesFor ctx r id) :
    ∃ caller form, server.asked? ctx.now r = some (.applyForJob caller id form) := by
  obtain ⟨segment, isPath, isId⟩ := applies.path
  obtain ⟨who, known⟩ := applies.known
  obtain ⟨form, body⟩ := applies.body
  refine ⟨who.userId, form, ?_⟩
  rw [asked?, isPath, Option.bind_some, callFor?, applies.method, known]
  simp only [Resource.Verb.ofMethod?, Option.bind_some, Resource.callFor?, isId, body]
  rfl

theorem applyForJob_closed {caller id : Uuid} {form : Hiring.ApplicationForm} {j : Job}
    (connected : ctx.connected = true) (readable : s.Readable) (found : s.FindsJob id j)
    (closed : j.status ≠ .opened) :
    Hiring.applyForJob caller id form ctx s = (.error .jobClosed, s) := by
  have connects : Action.connect ctx s = (.ok (), s) := by
    rw [Action.connect, if_pos connected]
  have refuses : Action.ofExcept (Hiring.checkApplicant j caller) ctx s =
      (.error .jobClosed, s) := by
    rw [Hiring.checkApplicant, if_pos closed]
    rfl
  unfold Hiring.applyForJob
  rw [Action.bind_of_ok connects, Action.bind_of_ok (Hiring.findJob_of_found readable found),
    Action.bind_of_error refuses]

theorem application_refused {id : Uuid} {j : Job} (readable : s.Readable)
    (found : s.FindsJob id j) (closed : j.status ≠ .opened)
    (applies : server.AppliesFor ctx r id) :
    (server.handle ctx r s).1.status = 400 ∧ (server.handle ctx r s).2 = s := by
  obtain ⟨caller, form, asked⟩ := applies.asked
  have failed : (Call.applyForJob caller id form).perform ctx s = (.error .jobClosed, s) :=
    Action.bind_of_error (applyForJob_closed applies.connected readable found closed)
  obtain ⟨store, status⟩ := handle_of_asked (s := s) asked
  rw [store, status, perform, failed]
  exact ⟨rfl, rfl⟩

/-! ## Jobs and applications over runs -/

/-- A job is a freelancer's after a run: it is not open, and who applies for it is refused and changes
nothing, provided that the times of the run can be read back. -/
def HoldsFor (server : Server) (steps : List (Context × Request)) (job freelancer : Uuid) : Prop :=
  ∀ k ∈ (server.run steps .empty).jobs, k.id = job →
    k.freelancerId = some freelancer ∧ k.status ≠ .opened ∧
      ((∀ step ∈ steps, step.1.now.isRepresentable = true) →
        ∀ ctx r, server.AppliesFor ctx r job →
          (server.handle ctx r (server.run steps .empty)).1.status = 400 ∧
            (server.handle ctx r (server.run steps .empty)).2 = server.run steps .empty)

/-- Nothing has come of an application after a run: it is there, its freelancer has no other one for
the job, and the job is not that freelancer's. -/
def RejectsFor (server : Server) (steps : List (Context × Request)) (a : Application) : Prop :=
  a ∈ (server.run steps .empty).applications ∧
    (∀ b ∈ (server.run steps .empty).applications,
      b.jobId = a.jobId → b.freelancerId = a.freelancerId → b = a) ∧
    ∀ k ∈ (server.run steps .empty).jobs, k.id = a.jobId → k.freelancerId ≠ some a.freelancerId

theorem holdsFor_of_kept {steps : List (Context × Request)} {job f : Uuid}
    (assigned : ∀ k ∈ (server.run steps .empty).jobs, k.id = job → k.freelancerId = some f) :
    server.HoldsFor steps job f := by
  have coherent := server.run_coherent steps
  intro k hk same
  have taken := assigned k hk same
  have closed : k.status ≠ .opened := by
    intro isOpen
    rw [coherent.agreed.opened k hk isOpen] at taken
    cases taken
  refine ⟨taken, closed, ?_⟩
  intro timely ctx r applies
  have readable := server.run_readable steps Store.empty_readable timely
  have found : (server.run steps .empty).FindsJob job k :=
    coherent.sound.keyed.jobId.find?_eq hk same
  exact application_refused readable found closed applies

theorem rejectsFor_of_kept {steps : List (Context × Request)} {a : Application}
    (stays : a ∈ (server.run steps .empty).applications) (rejected : a.status = .rejected) :
    server.RejectsFor steps a := by
  have coherent := server.run_coherent steps
  have only : ∀ b ∈ (server.run steps .empty).applications,
      b.jobId = a.jobId → b.freelancerId = a.freelancerId → b = a := by
    intro b hb sameJob sameFreelancer
    apply coherent.sound.keyed.applicant.eq_of_same hb stays
    rw [sameJob, sameFreelancer]
  refine ⟨stays, only, ?_⟩
  intro k hk same isFreelancer
  obtain ⟨b, hb, of, by_, accepted⟩ :=
    (coherent.agreed.assigned k hk a.freelancerId).mp isFreelancer
  rw [only b hb (of.trans same) by_, rejected] at accepted
  cases accepted

/-- From every store that the service reaches, each request leads on as told, and so do runs: as long
as a job is there, it is held for the freelancer whom it was assigned to, and an application for it
that was rejected stays so. -/
theorem jobs_and_applications_over_runs (server : Server) (past : List (Context × Request)) :
    (∀ ctx r,
      (server.run past .empty).LeadsTo (server.handle ctx r (server.run past .empty)).2) ∧
    (∀ future, ∀ j ∈ (server.run past .empty).jobs, ∀ f, j.freelancerId = some f →
      server.KeepsJob future (server.run past .empty) j.id →
        server.HoldsFor (past ++ future) j.id f) ∧
    (∀ future, ∀ a ∈ (server.run past .empty).applications, a.status = .rejected →
      server.KeepsJob future (server.run past .empty) a.jobId →
        server.RejectsFor (past ++ future) a) := by
  have coherent := server.run_coherent past
  refine ⟨fun ctx r => server.handle_leadsTo ctx r coherent, ?_, ?_⟩
  · intro future j hj f assigned kept
    apply holdsFor_of_kept
    rw [run_append]
    exact run_keeps_freelancer coherent kept hj assigned
  · intro future a ha rejected kept
    apply rejectsFor_of_kept _ rejected
    rw [run_append]
    exact run_keeps_rejected coherent kept ha rejected

end Server

end GigBoard
