import GigBoard.Proofs.Service

/-!
# Assignment of jobs

The state of a job, its freelancer and the decisions on its applications always agree.  `Agreed` is
what every call keeps; that a job has at most one accepted application, and that its freelancer is not
its client, follow from it because nobody applies twice for one job.
-/

set_option autoImplicit false

namespace GigBoard.Hiring

open Store (assignedRow decidedRow)

def AcceptedFor (applications : List Application) (job freelancer : Uuid) : Prop :=
  ∃ a ∈ applications, a.jobId = job ∧ a.freelancerId = freelancer ∧ a.status = .accepted

/-- Jobs and applications agree: open jobs are nobody's and running ones somebody's, a job belongs to
whose application for it was accepted, and nobody applied for an own job. -/
structure Agreed (jobs : List Job) (applications : List Application) : Prop where
  opened : ∀ j ∈ jobs, j.status = .opened → j.freelancerId = none
  inProgress : ∀ j ∈ jobs, j.status = .inProgress → j.freelancerId ≠ none
  assigned : ∀ j ∈ jobs, ∀ f, j.freelancerId = some f ↔ AcceptedFor applications j.id f
  others : ∀ j ∈ jobs, ∀ a ∈ applications, a.jobId = j.id → a.freelancerId ≠ j.clientId

namespace Agreed

variable {jobs : List Job} {applications : List Application}

/-- A new job is open, and nobody has applied for it yet. -/
theorem post {job : Job} (agreed : Agreed jobs applications) (isOpen : job.status = .opened)
    (free : job.freelancerId = none) (unknown : ∀ a ∈ applications, a.jobId ≠ job.id) :
    Agreed (jobs ++ [job]) applications where
  opened := Rows.forall_mem_append_one agreed.opened fun _ => free
  inProgress := by
    apply Rows.forall_mem_append_one agreed.inProgress
    intro running
    rw [isOpen] at running
    cases running
  assigned := by
    apply Rows.forall_mem_append_one agreed.assigned
    intro f
    rw [free]
    constructor
    · intro assigned
      cases assigned
    · rintro ⟨a, ha, same, _⟩
      exact absurd same (unknown a ha)
  others := by
    apply Rows.forall_mem_append_one agreed.others
    intro a ha same
    exact absurd same (unknown a ha)

/-- Jobs may be changed if they stay assigned as they are and get a state that suits this. -/
theorem changeJobs {update : Job → Job} (agreed : Agreed jobs applications)
    (keeps : ∀ j ∈ jobs, (update j).id = j.id ∧ (update j).clientId = j.clientId ∧
      (update j).freelancerId = j.freelancerId)
    (opens : ∀ j ∈ jobs, (update j).status = .opened → j.freelancerId = none)
    (starts : ∀ j ∈ jobs, (update j).status = .inProgress → j.freelancerId ≠ none) :
    Agreed (jobs.map update) applications where
  opened := by
    refine Rows.forall_mem_update opens ?_
    intro j hj free
    rw [(keeps j hj).2.2]
    exact free
  inProgress := by
    refine Rows.forall_mem_update starts ?_
    intro j hj taken
    rw [(keeps j hj).2.2]
    exact taken
  assigned := by
    refine Rows.forall_mem_update agreed.assigned ?_
    intro j hj before
    rw [(keeps j hj).1, (keeps j hj).2.2]
    exact before
  others := by
    refine Rows.forall_mem_update agreed.others ?_
    intro j hj before
    rw [(keeps j hj).1, (keeps j hj).2.1]
    exact before

/-- With a job go its applications, and with no other job. -/
theorem remove (agreed : Agreed jobs applications) (id : Uuid) :
    Agreed (jobs.filter (·.id ≠ id)) (applications.filter (·.jobId ≠ id)) where
  opened j hj := agreed.opened j (List.mem_filter.mp hj).1
  inProgress j hj := agreed.inProgress j (List.mem_filter.mp hj).1
  assigned j hj f := by
    obtain ⟨hj, different⟩ := List.mem_filter.mp hj
    rw [agreed.assigned j hj f]
    constructor
    · rintro ⟨a, ha, of, by_, accepted⟩
      rw [← of] at different
      exact ⟨a, List.mem_filter.mpr ⟨ha, different⟩, of, by_, accepted⟩
    · rintro ⟨a, ha, rest⟩
      exact ⟨a, (List.mem_filter.mp ha).1, rest⟩
  others j hj a ha := agreed.others j (List.mem_filter.mp hj).1 a (List.mem_filter.mp ha).1

/-- A new application is pending and not for an own job. -/
theorem apply {application : Application} (agreed : Agreed jobs applications)
    (pending : application.status = .pending)
    (other : ∀ j ∈ jobs, application.jobId = j.id → application.freelancerId ≠ j.clientId) :
    Agreed jobs (applications ++ [application]) where
  opened := agreed.opened
  inProgress := agreed.inProgress
  assigned j hj f := by
    rw [agreed.assigned j hj f]
    constructor
    · rintro ⟨a, ha, rest⟩
      exact ⟨a, List.mem_append_left _ ha, rest⟩
    · rintro ⟨a, ha, of, by_, accepted⟩
      rcases List.mem_append.mp ha with ha | ha
      · exact ⟨a, ha, of, by_, accepted⟩
      · rw [List.mem_singleton.mp ha, pending] at accepted
        cases accepted
  others j hj := Rows.forall_mem_append_one (agreed.others j hj) (other j hj)

end Agreed

/-- After a pending application was decided the accepted ones are those from before and, if it was
accepted, this one. -/
theorem acceptedFor_decided {applications : List Application} {id : Uuid}
    {status : ApplicationStatus} {now : Timestamp}
    (pending : ∀ a ∈ applications, a.id = id → a.status = .pending) (job f : Uuid) :
    AcceptedFor (applications.map (decidedRow id status now)) job f ↔
      AcceptedFor applications job f ∨
        (status = .accepted ∧
          ∃ a ∈ applications, a.id = id ∧ a.jobId = job ∧ a.freelancerId = f) := by
  constructor
  · rintro ⟨_, member, of, by_, accepted⟩
    obtain ⟨a, ha, rfl⟩ := List.mem_map.mp member
    by_cases isIt : a.id = id
    · rw [decidedRow, if_pos isIt] at of by_ accepted
      exact .inr ⟨accepted, a, ha, isIt, of, by_⟩
    · rw [decidedRow, if_neg isIt] at of by_ accepted
      exact .inl ⟨a, ha, of, by_, accepted⟩
  · rintro (⟨a, ha, of, by_, accepted⟩ | ⟨isAccepted, a, ha, isIt, of, by_⟩)
    · have notIt : a.id ≠ id := by
        intro isIt
        rw [pending a ha isIt] at accepted
        cases accepted
      refine ⟨a, List.mem_map.mpr ⟨a, ha, ?_⟩, of, by_, accepted⟩
      rw [decidedRow, if_neg notIt]
    · refine ⟨decidedRow id status now a, List.mem_map_of_mem ha, ?_⟩
      rw [decidedRow, if_pos isIt]
      exact ⟨of, by_, isAccepted⟩

theorem others_decided {applications : List Application} {id : Uuid}
    {status : ApplicationStatus} {now : Timestamp} {j : Job}
    (others : ∀ a ∈ applications, a.jobId = j.id → a.freelancerId ≠ j.clientId) :
    ∀ a ∈ applications.map (decidedRow id status now),
      a.jobId = j.id → a.freelancerId ≠ j.clientId := by
  exact Rows.forall_mem_change others fun _ _ _ before => before

namespace Agreed

variable {jobs : List Job} {applications : List Application} {id : Uuid} {now : Timestamp}

theorem reject (agreed : Agreed jobs applications)
    (pending : ∀ a ∈ applications, a.id = id → a.status = .pending) :
    Agreed jobs (applications.map (decidedRow id .rejected now)) where
  opened := agreed.opened
  inProgress := agreed.inProgress
  assigned j hj f := by
    rw [agreed.assigned j hj f, acceptedFor_decided pending]
    constructor
    · intro before
      exact .inl before
    · rintro (before | ⟨impossible, _⟩)
      · exact before
      · cases impossible
  others j hj := others_decided (agreed.others j hj)

/-- An application is accepted together with the assignment of its job, which was open. -/
theorem accept {a : Application} {job : Job} (agreed : Agreed jobs applications)
    (unique : Rows.Unique Job.id jobs) (single : Rows.Unique Application.id applications)
    (hjob : job ∈ jobs) (ha : a ∈ applications) (of : job.id = a.jobId)
    (pending : a.status = .pending) (isOpen : job.status = .opened) :
    Agreed (jobs.map (assignedRow job.id a.freelancerId now))
      (applications.map (decidedRow a.id .accepted now)) := by
  have isPending : ∀ b ∈ applications, b.id = a.id → b.status = .pending := by
    intro b hb same
    rw [single.eq_of_same hb ha same]
    exact pending
  -- Of all jobs only the one applied for is due.
  have isDue : ∀ j ∈ jobs, j.id = job.id → j = job := fun j hj => unique.eq_of_same hj hjob
  constructor
  · refine Rows.forall_mem_change agreed.opened ?_
    intro j _ _ _ impossible
    cases impossible
  · refine Rows.forall_mem_change agreed.inProgress ?_
    intro j _ _ _ _ impossible
    cases impossible
  · refine Rows.forall_mem_update agreed.assigned ?_
    intro j hj before f
    rw [acceptedFor_decided isPending, Store.assignedRow_id, ← before f]
    by_cases same : j.id = job.id
    · rw [isDue j hj same, assignedRow, if_pos ⟨rfl, isOpen⟩, agreed.opened job hjob isOpen]
      constructor
      · intro isFreelancer
        exact .inr ⟨rfl, a, ha, rfl, of.symm, Option.some.inj isFreelancer⟩
      · rintro (impossible | ⟨_, b, hb, isIt, _, by_⟩)
        · cases impossible
        · rw [← by_, single.eq_of_same hb ha isIt]
    · rw [assignedRow, if_neg fun due => same due.1]
      constructor
      · intro isFreelancer
        exact .inl isFreelancer
      · rintro (isFreelancer | ⟨_, b, hb, isIt, ofJ, _⟩)
        · exact isFreelancer
        · rw [single.eq_of_same hb ha isIt, ← of] at ofJ
          exact absurd ofJ.symm same
  · refine Rows.forall_mem_update agreed.others ?_
    intro j _ before
    have decided : ∀ b ∈ applications.map (decidedRow a.id .accepted now),
        b.jobId = j.id → b.freelancerId ≠ j.clientId := others_decided before
    unfold assignedRow
    split <;> exact decided

end Agreed

end GigBoard.Hiring

namespace GigBoard

open Hiring (Agreed Application Job)

variable {ctx : Context} {s s' : Store} {call : Call}

/-- A job whose assignment counted was open. -/
theorem Store.opened_of_assigned {id freelancer : Uuid} {now : Timestamp} {n : Nat} {job : Job}
    (assigned : assignJob id freelancer now s = .ok (n, s')) (counted : n ≠ 0)
    (unique : Rows.Unique Job.id s.jobs) (member : job ∈ s.jobs) (same : job.id = id) :
    job.status = .opened := by
  rw [(assignJob_ok assigned).1] at counted
  obtain ⟨k, hk, due⟩ := List.countP_pos_iff.mp (Nat.pos_of_ne_zero counted)
  obtain ⟨isId, isOpen⟩ := of_decide_eq_true due
  rw [unique.eq_of_same member hk (same.trans isId.symm)]
  exact isOpen

/-- A call keeps jobs and applications in agreement. -/
theorem Effect.agreed (effect : Effect ctx s call s') (sound : s.Sound)
    (agreed : Agreed s.jobs s.applications) : Agreed s'.jobs s'.applications := by
  cases effect with
  | nothing => exact agreed
  | registered _ added =>
      obtain ⟨_, _, rfl⟩ := Store.addUser_ok added
      exact agreed
  | accountChanged _ _ replaced =>
      obtain ⟨_, _, rfl⟩ := Store.replaceUser_ok replaced
      exact agreed
  | @jobPosted _ _ job _ _ _ made added planned =>
      obtain ⟨_, fresh, _, _, rfl⟩ := Store.addJob_ok added
      obtain ⟨_, _, _, _, rfl⟩ := Store.addMilestones_ok planned
      have makes := Hiring.JobForm.toRows_eq_ok_iff.mp made
      apply agreed.post makes.status makes.freelancerId
      -- An application refers to a job that is there, and the identifier of the new one is new.
      intro a ha same
      obtain ⟨j, hj, of⟩ := (s.hasJob_iff a.jobId).mp (sound.linked.applicationJob a ha)
      exact fresh j hj (of.trans same)
  | @jobChanged _ _ _ job change _ found _ asked replaced =>
      obtain ⟨_, rfl⟩ := Store.replaceJob_ok replaced
      obtain ⟨starts, opens⟩ := Hiring.JobChange.checkStatus_ok (Hiring.JobChange.ofForm_ok asked)
      have isJob : ∀ j ∈ s.jobs, j.id = job.id → j = job := by
        intro j hj same
        exact sound.keyed.jobId.eq_of_same hj found.mem same
      apply agreed.changeJobs
      · intro j hj
        split
        · rename_i same
          rw [isJob j hj same]
          exact ⟨rfl, rfl, rfl⟩
        · exact ⟨rfl, rfl, rfl⟩
      · intro j hj isOpen
        split at isOpen
        · rename_i same
          rw [isJob j hj same]
          rcases change.apply_status job ctx.now with asks | keeps
          · exact opens (asks.trans (congrArg some isOpen))
          · exact agreed.opened job found.mem (keeps.symm.trans isOpen)
        · exact agreed.opened j hj isOpen
      · intro j hj running
        split at running
        · rename_i same
          rw [isJob j hj same]
          rcases change.apply_status job ctx.now with asks | keeps
          · exact starts (asks.trans (congrArg some running))
          · exact agreed.inProgress job found.mem (keeps.symm.trans running)
        · exact agreed.inProgress j hj running
  | @jobRemoved _ id _ _ _ _ _ removed =>
      obtain ⟨_, rfl⟩ := Store.removeJob_ok removed
      exact agreed.remove id
  | @applied _ _ _ job _ _ found free _ added =>
      obtain ⟨_, _, _, _, rfl⟩ := Store.addApplication_ok added
      obtain ⟨_, notOwn⟩ := Hiring.checkApplicant_ok free
      apply agreed.apply rfl
      intro j hj same
      rw [sound.keyed.jobId.eq_of_same hj found.mem (same.symm.trans found.id_eq.symm)]
      exact notOwn.symm
  | @rejected _ id _ a _ _ _ found _ _ pending set =>
      rw [Store.setApplicationStatus_ok set]
      apply agreed.reject
      intro b hb same
      have isIt := sound.keyed.applicationId.eq_of_same hb (Rows.mem_of_found found)
        (same.trans (Rows.key_of_found found).symm)
      rw [isIt]
      exact pending
  | @accepted _ id _ a job _ _ _ _ found of _ pending set assigned counted =>
      have decided := Store.setApplicationStatus_ok set
      subst decided
      have isOpen := Store.opened_of_assigned assigned counted sound.keyed.jobId of.mem rfl
      obtain ⟨_, _, rfl⟩ := Store.assignJob_ok assigned
      cases Rows.key_of_found found
      exact agreed.accept sound.keyed.jobId sound.keyed.applicationId of.mem
        (Rows.mem_of_found found) of.id_eq pending isOpen
  | milestoneMoved _ _ _ _ _ _ set =>
      rw [Store.setMilestoneStatus_ok set]
      exact agreed
  | reviewed _ _ _ added =>
      obtain ⟨_, _, _, _, _, rfl⟩ := Store.addReview_ok added
      exact agreed
  | messageSent _ added =>
      obtain ⟨_, _, _, _, _, rfl⟩ := Store.addMessage_ok added
      exact agreed
  | threadRead marked =>
      obtain ⟨_, rfl⟩ := Store.markRead_ok marked
      exact agreed
  | messageRead marked =>
      obtain ⟨_, rfl⟩ := Store.markRead_ok marked
      exact agreed

structure Store.Coherent (s : Store) : Prop where
  sound : s.Sound
  agreed : Agreed s.jobs s.applications

theorem Store.empty_coherent : empty.Coherent where
  sound := empty_sound
  agreed := by constructor <;> intro _ member <;> cases member

theorem Server.handle_coherent (server : Server) (ctx : Context) (r : Http.Request)
    (coherent : s.Coherent) : (server.handle ctx r s).2.Coherent := by
  refine ⟨server.handle_sound ctx r coherent.sound, ?_⟩
  rcases server.handle_effect ctx r s with same | ⟨call, _, effect⟩
  · rw [same]
    exact coherent.agreed
  · exact effect.agreed coherent.sound coherent.agreed

theorem Server.run_coherent (server : Server) (steps : List (Context × Http.Request)) :
    (server.run steps .empty).Coherent :=
  server.run_keeps (fun ctx r _ before => server.handle_coherent ctx r before) steps
    Store.empty_coherent

/-- The state of each job, its freelancer and the decisions on its applications belong together. -/
structure Store.AssignmentsConsistent (s : Store) : Prop where
  openUnassigned : ∀ j ∈ s.jobs, j.status = .opened → j.freelancerId = none
  inProgressAssigned : ∀ j ∈ s.jobs, j.status = .inProgress → ∃ f, j.freelancerId = some f
  assignedIffAccepted : ∀ j ∈ s.jobs, ∀ f, j.freelancerId = some f ↔
    ∃ a ∈ s.applications, a.jobId = j.id ∧ a.freelancerId = f ∧ a.status = .accepted
  acceptedAtMostOnce : ∀ j ∈ s.jobs,
    s.applications.countP (fun a => decide (a.jobId = j.id ∧ a.status = .accepted)) ≤ 1
  noOwnApplication : ∀ j ∈ s.jobs, ∀ a ∈ s.applications, a.jobId = j.id →
    a.freelancerId ≠ j.clientId
  clientNotFreelancer : ∀ j ∈ s.jobs, j.freelancerId ≠ some j.clientId

/-- Whatever is asked of the service, in whatever order, assignments stay consistent. -/
theorem Server.assignments_consistent (server : Server) (steps : List (Context × Http.Request)) :
    (server.run steps .empty).AssignmentsConsistent := by
  obtain ⟨sound, agreed⟩ := server.run_coherent steps
  constructor
  · exact agreed.opened
  · intro j hj running
    exact Option.ne_none_iff_exists'.mp (agreed.inProgress j hj running)
  · exact agreed.assigned
  · intro j hj
    -- Two accepted applications would be by the one freelancer of the job.
    apply sound.keyed.applicant.countP_le_one
    intro a ha b hb isDue isDue'
    obtain ⟨ofA, acceptedA⟩ := of_decide_eq_true isDue
    obtain ⟨ofB, acceptedB⟩ := of_decide_eq_true isDue'
    have byA := (agreed.assigned j hj a.freelancerId).mpr ⟨a, ha, ofA, rfl, acceptedA⟩
    have byB := (agreed.assigned j hj b.freelancerId).mpr ⟨b, hb, ofB, rfl, acceptedB⟩
    rw [byA] at byB
    rw [ofA, ofB, Option.some.inj byB]
  · exact agreed.others
  · intro j hj isClient
    obtain ⟨a, ha, of, by_, _⟩ := (agreed.assigned j hj j.clientId).mp isClient
    exact agreed.others j hj a ha of by_

end GigBoard
