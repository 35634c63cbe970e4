import GigBoard.Proofs.Service

/-!
# What requests change

`Differences caller registering s s'` compares all tables before and after a request row by row: which
rows may be new, changed or gone, given who asked.  It is shown once for all effects of calls; what
lasts over runs and who may change what are read off it.
-/

set_option autoImplicit false

namespace GigBoard

open Account (User)
open Delivery (Milestone)
open Hiring (Application Job)
open Http (Request Resource)
open Messaging (Message)
open Reputation (Review)
open Rows (Differ)

/-- A job is gone, removed by the caller, whose it was. -/
def Store.LosesJob (caller : Option Uuid) (s s' : Store) (id : Uuid) : Prop :=
  s'.hasJob id = false ∧ ∃ j ∈ s.jobs, j.id = id ∧ caller = some j.clientId

/-- All that a request may change.  Only a registration adds a user, and the caller changes the own
account only.  Clients add, change and remove their jobs, the milestones that come with a new job, and
decide pending applications; the parties to a job move its milestones.  Callers add applications,
messages and reviews of their own and mark as read what they received.  With a removed job go its
milestones, applications and reviews, and messages about it are about no job any more. -/
structure Differences (caller : Option Uuid) (registering : Prop) (s s' : Store) : Prop where
  users : Differ User.id s.users s'.users (fun _ => registering)
    (fun u u' => caller = some u.id ∧
      u' = { u with
        username := u'.username
        email := u'.email
        bio := u'.bio
        avatarUrl := u'.avatarUrl
        updatedAt := u'.updatedAt })
    (fun _ => False)
  jobs : Differ Job.id s.jobs s'.jobs
    (fun j => caller = some j.clientId)
    (fun j j' => caller = some j.clientId ∧ j'.clientId = j.clientId ∧ j'.createdAt = j.createdAt ∧
      (j'.freelancerId = j.freelancerId ∨ (j.status = .opened ∧ j'.status = .inProgress)))
    (fun j => caller = some j.clientId)
  milestones : Differ Milestone.id s.milestones s'.milestones
    (fun m => s.hasJob m.jobId = false ∧ ∃ j ∈ s'.jobs, j.id = m.jobId ∧ caller = some j.clientId)
    (fun m m' => m'.status ≠ m.status ∧
      m' = { m with status := m'.status, updatedAt := m'.updatedAt } ∧
        ∃ j ∈ s.jobs, j.id = m.jobId ∧
          ∃ c, caller = some c ∧ (j.clientId = c ∨ j.freelancerId = some c))
    (fun m => s.LosesJob caller s' m.jobId)
  applications : Differ Application.id s.applications s'.applications
    (fun a => caller = some a.freelancerId ∧ a.status = .pending)
    (fun a a' => a.status = .pending ∧ (a'.status = .accepted ∨ a'.status = .rejected) ∧
      a' = { a with status := a'.status, updatedAt := a'.updatedAt } ∧
        ∃ j ∈ s.jobs, j.id = a.jobId ∧ caller = some j.clientId)
    (fun a => s.LosesJob caller s' a.jobId)
  messages : Differ Message.id s.messages s'.messages
    (fun m => caller = some m.senderId)
    (fun m m' => (caller = some m.receiverId ∧ m' = { m with read := true }) ∨
      (∃ id, m.jobId = some id ∧ s.LosesJob caller s' id ∧ m' = { m with jobId := none }))
    (fun _ => False)
  reviews : Differ Review.id s.reviews s'.reviews
    (fun r => caller = some r.reviewerId)
    (fun _ _ => False)
    (fun r => s.LosesJob caller s' r.jobId)

variable {ctx : Context} {s s' : Store} {call : Call} {caller : Option Uuid} {registering : Prop}

/-- A store does not differ from itself. -/
theorem Differences.same (sound : s.Sound) : Differences caller registering s s where
  users := .same sound.keyed.userId
  jobs := .same sound.keyed.jobId
  milestones := .same sound.keyed.milestoneId
  applications := .same sound.keyed.applicationId
  messages := .same sound.keyed.messageId
  reviews := .same sound.keyed.reviewId

/-! ## What the statements change -/

namespace Store

theorem addUser_differences {u : User} (sound : s.Sound) (registers : registering)
    (added : addUser u s = .ok ((), s')) : Differences caller registering s s' := by
  have same : Differences caller registering s s := .same sound
  obtain ⟨_, fresh, rfl⟩ := addUser_ok added
  refine { same with users := ?_ }
  apply Differ.append_one sound.keyed.userId
  · intro v hv
    exact (fresh v hv).1
  · exact registers

theorem replaceUser_differences {u : User} {change : Account.ProfileChange} (sound : s.Sound)
    (member : u ∈ s.users) (own : caller = some u.id)
    (replaced : replaceUser (change.apply u ctx.now) s = .ok ((), s')) :
    Differences caller registering s s' := by
  have same : Differences caller registering s s := .same sound
  obtain ⟨_, _, rfl⟩ := replaceUser_ok replaced
  refine { same with users := ?_ }
  exact Differ.replace sound.keyed.userId member rfl ⟨own, rfl⟩

theorem postJob_differences {job : Job} {milestones : List Milestone} {s₁ : Store}
    (sound : s.Sound) (own : caller = some job.clientId)
    (its : ∀ m ∈ milestones, m.jobId = job.id) (added : addJob job s = .ok ((), s₁))
    (planned : addMilestones milestones s₁ = .ok ((), s')) :
    Differences caller registering s s' := by
  have same : Differences caller registering s s := .same sound
  obtain ⟨_, fresh, _, _, rfl⟩ := addJob_ok added
  obtain ⟨_, apart, _, _, rfl⟩ := addMilestones_ok planned
  -- The milestones are those of a job that was not there before.
  have unknown : s.hasJob job.id = false := by
    rw [hasJob, List.any_eq_false]
    intro k hk
    simpa using fresh k hk
  refine { users := same.users, jobs := ?_, milestones := ?_
           applications := .same sound.keyed.applicationId
           messages := .same sound.keyed.messageId, reviews := .same sound.keyed.reviewId }
  · exact Differ.append_one sound.keyed.jobId fresh own
  · apply Differ.append sound.keyed.milestoneId
    · intro m hm o ho
      exact (milestonesClash_eq_false.mp (apart m hm o ho)).1.symm
    · intro m hm
      rw [its m hm]
      exact ⟨unknown, job, List.mem_append_right _ List.mem_cons_self, rfl, own⟩

theorem replaceJob_differences {job : Job} {change : Hiring.JobChange} (sound : s.Sound)
    (member : job ∈ s.jobs) (own : caller = some job.clientId)
    (replaced : replaceJob (change.apply job ctx.now) s = .ok ((), s')) :
    Differences caller registering s s' := by
  have same : Differences caller registering s s := .same sound
  obtain ⟨_, rfl⟩ := replaceJob_ok replaced
  refine { users := same.users, jobs := ?_, milestones := .same sound.keyed.milestoneId
           applications := .same sound.keyed.applicationId
           messages := .same sound.keyed.messageId, reviews := .same sound.keyed.reviewId }
  exact Differ.replace sound.keyed.jobId member rfl ⟨own, rfl, rfl, .inl rfl⟩

theorem removeJob_losesJob {id : Uuid} {job : Job} {n : Nat} (found : s.FindsJob id job)
    (own : caller = some job.clientId) (removed : removeJob id s = .ok (n, s')) :
    s.LosesJob caller s' id := by
  obtain ⟨_, rfl⟩ := removeJob_ok removed
  refine ⟨?_, job, found.mem, found.id_eq, own⟩
  rw [hasJob, List.any_eq_false]
  intro k hk gone
  have stays := (List.mem_filter.mp hk).2
  simp_all

theorem removeJob_differences {id : Uuid} {job : Job} {n : Nat} (sound : s.Sound)
    (found : s.FindsJob id job) (own : caller = some job.clientId)
    (removed : removeJob id s = .ok (n, s')) : Differences caller registering s s' := by
  have same : Differences caller registering s s := .same sound
  have loses := removeJob_losesJob found own removed
  obtain ⟨_, rfl⟩ := removeJob_ok removed
  refine { users := same.users, jobs := ?_, milestones := ?_, applications := ?_
           messages := ?_, reviews := ?_ }
  · apply Differ.filter sound.keyed.jobId
    intro k hk gone
    have isId : k.id = id := by simpa using gone
    rw [sound.keyed.jobId.eq_of_same hk found.mem (isId.trans found.id_eq.symm)]
    exact own
  · apply Differ.filter sound.keyed.milestoneId
    intro m _ gone
    have isId : m.jobId = id := by simpa using gone
    rw [isId]
    exact loses
  · apply Differ.filter sound.keyed.applicationId
    intro a _ gone
    have isId : a.jobId = id := by simpa using gone
    rw [isId]
    exact loses
  · apply Differ.map sound.keyed.messageId
    · intro m _
      exact detachedFrom_id id m
    · intro m _
      unfold detachedFrom
      split
      · rename_i about
        exact .inr (.inr ⟨id, about, loses, rfl⟩)
      · exact .inl rfl
  · apply Differ.filter sound.keyed.reviewId
    intro r _ gone
    have isId : r.jobId = id := by simpa using gone
    rw [isId]
    exact loses

theorem addApplication_differences {a : Application} (sound : s.Sound)
    (own : caller = some a.freelancerId) (pending : a.status = .pending)
    (added : addApplication a s = .ok ((), s')) : Differences caller registering s s' := by
  have same : Differences caller registering s s := .same sound
  obtain ⟨_, fresh, _, _, rfl⟩ := addApplication_ok added
  refine { same with applications := ?_ }
  apply Differ.append_one sound.keyed.applicationId
  · intro b hb
    exact (fresh b hb).1
  · exact ⟨own, pending⟩

/-- A decision changes the row of the application and no other. -/
theorem decided_differ {a : Application} {status : ApplicationStatus} {now : Timestamp}
    {added : Application → Prop} {changed : Application → Application → Prop}
    {removed : Application → Prop} (sound : s.Sound) (member : a ∈ s.applications)
    (mayChange : changed a { a with status := status, updatedAt := now }) :
    Differ Application.id s.applications (s.applications.map (decidedRow a.id status now))
      added changed removed := by
  apply Differ.update sound.keyed.applicationId member
  · intro b _
    exact decidedRow_id a.id status now b
  · intro b _ other
    exact if_neg other
  · rw [decidedRow, if_pos rfl]
    exact mayChange

theorem reject_differences {a : Application} {job : Job} {now : Timestamp} (sound : s.Sound)
    (member : a ∈ s.applications) (of : s.FindsJob a.jobId job)
    (own : caller = some job.clientId) (pending : a.status = .pending)
    (set : setApplicationStatus a.id .rejected now s = .ok ((), s')) :
    Differences caller registering s s' := by
  have same : Differences caller registering s s := .same sound
  cases setApplicationStatus_ok set
  refine { same with applications := ?_ }
  apply decided_differ sound member
  exact ⟨pending, .inr rfl, rfl, job, of.mem, of.id_eq, own⟩

theorem accept_differences {a : Application} {job : Job} {now : Timestamp} {n : Nat} {s₁ : Store}
    (sound : s.Sound) (member : a ∈ s.applications) (of : s.FindsJob a.jobId job)
    (own : caller = some job.clientId) (pending : a.status = .pending)
    (set : setApplicationStatus a.id .accepted now s = .ok ((), s₁))
    (assigned : assignJob job.id a.freelancerId now s₁ = .ok (n, s')) :
    Differences caller registering s s' := by
  have same : Differences caller registering s s := .same sound
  cases setApplicationStatus_ok set
  obtain ⟨_, _, rfl⟩ := assignJob_ok assigned
  refine { users := same.users, jobs := ?_, milestones := .same sound.keyed.milestoneId
           applications := ?_, messages := .same sound.keyed.messageId
           reviews := .same sound.keyed.reviewId }
  · apply Differ.map sound.keyed.jobId
    · intro j _
      exact assignedRow_id job.id a.freelancerId now j
    · intro j hj
      unfold assignedRow
      split
      · rename_i due
        have isIt : j = job := sound.keyed.jobId.eq_of_same hj of.mem due.1
        subst isIt
        exact .inr ⟨own, rfl, rfl, .inr ⟨due.2, rfl⟩⟩
      · exact .inl rfl
  · apply decided_differ sound member
    exact ⟨pending, .inl rfl, rfl, job, of.mem, of.id_eq, own⟩

theorem setMilestoneStatus_differences {m : Milestone} {job : Job} {target : MilestoneStatus}
    {now : Timestamp} {c : Uuid} (sound : s.Sound) (member : m ∈ s.milestones)
    (of : s.FindsJob m.jobId job) (own : caller = some c)
    (isParty : job.clientId = c ∨ job.freelancerId = some c) (moves : target ≠ m.status)
    (set : setMilestoneStatus m.id target now s = .ok ((), s')) :
    Differences caller registering s s' := by
  have same : Differences caller registering s s := .same sound
  cases setMilestoneStatus_ok set
  refine { same with milestones := ?_ }
  apply Differ.update sound.keyed.milestoneId member
  · intro o _
    exact movedRow_id m.id target now o
  · intro o _ other
    exact if_neg other
  · rw [movedRow, if_pos rfl]
    exact ⟨moves, rfl, job, of.mem, of.id_eq, c, own, isParty⟩

theorem addMessage_differences {m : Message} (sound : s.Sound) (own : caller = some m.senderId)
    (added : addMessage m s = .ok ((), s')) : Differences caller registering s s' := by
  have same : Differences caller registering s s := .same sound
  obtain ⟨_, fresh, _, _, _, rfl⟩ := addMessage_ok added
  refine { same with messages := ?_ }
  exact Differ.append_one sound.keyed.messageId fresh own

theorem markRead_differences {due : Message → Bool} {n : Nat} (sound : s.Sound)
    (own : ∀ m, due m = true → caller = some m.receiverId)
    (marked : markRead due s = .ok (n, s')) : Differences caller registering s s' := by
  have same : Differences caller registering s s := .same sound
  obtain ⟨_, rfl⟩ := markRead_ok marked
  refine { same with messages := ?_ }
  apply Differ.map sound.keyed.messageId
  · intro m _
    exact readRowIf_id due m
  · intro m _
    unfold readRowIf
    split
    · rename_i isDue
      exact .inr (.inl ⟨own m isDue, rfl⟩)
    · exact .inl rfl

theorem addReview_differences {r : Review} (sound : s.Sound) (own : caller = some r.reviewerId)
    (added : addReview r s = .ok ((), s')) : Differences caller registering s s' := by
  have same : Differences caller registering s s := .same sound
  obtain ⟨_, fresh, _, _, _, rfl⟩ := addReview_ok added
  refine { same with reviews := ?_ }
  apply Differ.append_one sound.keyed.reviewId
  · intro q hq
    exact (fresh q hq).1
  · exact own

end Store

/-! ## What calls and requests change -/

theorem Effect.differences (effect : Effect ctx s call s') (sound : s.Sound)
    (own : ∀ c, call.caller? = some c → caller = some c)
    (registers : ∀ form, call = .register form → registering) :
    Differences caller registering s s' := by
  cases effect with
  | nothing => exact .same sound
  | registered _ added => exact Store.addUser_differences sound (registers _ rfl) added
  | accountChanged found _ replaced =>
      have isCaller := Rows.key_of_found found
      refine Store.replaceUser_differences sound (Rows.mem_of_found found) (own _ ?_) replaced
      rw [isCaller]
      rfl
  | jobPosted made added planned =>
      have makes := Hiring.JobForm.toRows_eq_ok_iff.mp made
      refine Store.postJob_differences sound (own _ ?_) makes.its added planned
      rw [makes.clientId]
      rfl
  | jobChanged found owned _ replaced =>
      refine Store.replaceJob_differences sound found.mem (own _ ?_) replaced
      rw [owned]
      rfl
  | jobRemoved found owned removed =>
      refine Store.removeJob_differences sound found (own _ ?_) removed
      rw [owned]
      rfl
  | applied _ _ _ added =>
      exact Store.addApplication_differences sound (own _ rfl) rfl added
  | rejected _ found of owned pending set =>
      cases Rows.key_of_found found
      refine Store.reject_differences sound (Rows.mem_of_found found) of (own _ ?_) pending set
      rw [owned]
      rfl
  | accepted _ found of owned pending set assigned =>
      cases Rows.key_of_found found
      refine Store.accept_differences sound (Rows.mem_of_found found) of (own _ ?_) pending set
        assigned
      rw [owned]
      rfl
  | milestoneMoved _ found of side _ allowed set =>
      cases Rows.key_of_found found
      exact Store.setMilestoneStatus_differences sound (Rows.mem_of_found found) of (own _ rfl)
        (Job.party?_some side) (MilestoneStatus.ne_of_mayBecome allowed) set
  | reviewed _ _ _ added => exact Store.addReview_differences sound (own _ rfl) added
  | messageSent _ added => exact Store.addMessage_differences sound (own _ rfl) added
  | threadRead marked =>
      refine Store.markRead_differences sound (fun m due => own _ ?_) marked
      simp only [Messaging.isDueOnOpening, Bool.and_eq_true, decide_eq_true_eq] at due
      rw [due.1.1.2]
      rfl
  | messageRead marked =>
      refine Store.markRead_differences sound (fun m due => own _ ?_) marked
      simp only [Bool.and_eq_true, decide_eq_true_eq] at due
      rw [due.2]
      rfl

/-- A call without a caller that is no registration changes nothing. -/
theorem Effect.same_of_nobody (effect : Effect ctx s call s') (nobody : call.caller? = none)
    (noRegistration : ∀ form, call ≠ .register form) : s' = s := by
  cases effect with
  | nothing => rfl
  | registered => exact absurd rfl (noRegistration _)
  | _ => cases nobody

namespace Server

def caller? (server : Server) (now : Timestamp) (r : Request) : Option Uuid :=
  (server.identify now r).toOption.map (·.userId)

def isRegistration (r : Request) : Prop := r.method = .post ∧ Resource.ofPath? r.path = some .users

theorem method_of_add {r : Request} (add : Resource.Verb.ofMethod? r.method = some .add) :
    r.method = .post := by
  cases isMethod : r.method with
  | post => rfl
  | _ =>
      rw [isMethod] at add
      cases add

theorem caller?_of_asked {server : Server} {now : Timestamp} {r : Request} {c : Uuid}
    (asked : server.asked? now r = some call) (own : call.caller? = some c) :
    server.caller? now r = some c := by
  obtain ⟨_, _, _, _, fits⟩ := asked?_fits asked
  obtain ⟨who, known, same⟩ := fits.caller c own
  rw [caller?, known, ← same]
  rfl

theorem isRegistration_of_asked {server : Server} {now : Timestamp} {r : Request}
    {form : Account.Registration} (asked : server.asked? now r = some (.register form)) :
    isRegistration r := by
  obtain ⟨resource, verb, isPath, isVerb, fits⟩ := asked?_fits asked
  obtain ⟨rfl, rfl⟩ := fits.registering form rfl
  exact ⟨method_of_add isVerb, isPath⟩

theorem handle_differences (server : Server) (ctx : Context) (r : Request) (sound : s.Sound) :
    Differences (server.caller? ctx.now r) (isRegistration r) s (server.handle ctx r s).2 := by
  rcases server.handle_effect ctx r s with same | ⟨call, asked, effect⟩
  · rw [same]
    exact .same sound
  · apply effect.differences sound
    · intro c own
      exact caller?_of_asked asked own
    · rintro form rfl
      exact isRegistration_of_asked asked

/-- A request without an accepted token that does not register anybody changes nothing. -/
theorem handle_of_nobody {server : Server} {r : Request} (nobody : server.caller? ctx.now r = none)
    (noRegistration : ¬ isRegistration r) : (server.handle ctx r s).2 = s := by
  rcases server.handle_effect ctx r s with same | ⟨call, asked, effect⟩
  · exact same
  · apply effect.same_of_nobody
    · cases own : call.caller? with
      | none => rfl
      | some c =>
          rw [caller?_of_asked asked own] at nobody
          cases nobody
    · rintro form rfl
      exact noRegistration (isRegistration_of_asked asked)

/-- In every store that the service reaches, a request changes nothing but what its caller is entitled
to change. -/
theorem changes_need_entitlement (server : Server) (past : List (Context × Request)) (ctx : Context)
    (r : Request) :
    Differences (server.caller? ctx.now r) (isRegistration r) (server.run past .empty)
        (server.handle ctx r (server.run past .empty)).2 ∧
      (server.caller? ctx.now r = none → ¬ isRegistration r →
        (server.handle ctx r (server.run past .empty)).2 = server.run past .empty) := by
  constructor
  · exact server.handle_differences ctx r (server.run_sound past)
  · intro nobody noRegistration
    exact handle_of_nobody nobody noRegistration

end Server

end GigBoard
