import GigBoard.Proofs.Integrity

/-!
# Statements that write

For each statement that writes: what a successful one found and did (`…_ok`), and that it keeps a store
sound and readable.
-/

set_option autoImplicit false

namespace GigBoard.Store

open Account (User)
open Delivery (Milestone)
open Hiring (Application Job)
open Messaging (Message)
open Reputation (Review)
open Rows (Unique)

variable {s s' : Store}

/-! ## Users -/

theorem addUser_ok {u : User} (added : addUser u s = .ok ((), s')) :
    u.fits = true ∧
      (∀ v ∈ s.users,
        v.id ≠ u.id ∧ v.walletAddress ≠ u.walletAddress ∧ v.username ≠ u.username) ∧
      s' = { s with users := s.users ++ [u] } := by
  unfold addUser at added
  split at added
  · cases added
  · rename_i fits
    split at added
    · cases added
    · rename_i fresh
      cases added
      refine ⟨by simpa using fits, ?_, rfl⟩
      intro v hv
      simp only [List.any_eq_true, not_exists, not_and, Bool.not_eq_true, Bool.or_eq_false_iff,
        decide_eq_false_iff_not] at fresh
      exact ⟨(fresh v hv).1.1, (fresh v hv).1.2, (fresh v hv).2⟩

theorem addUser_sound {u : User} (sound : s.Sound) (added : addUser u s = .ok ((), s')) :
    s'.Sound := by
  obtain ⟨fits, fresh, rfl⟩ := addUser_ok added
  refine ⟨{ sound.keyed with userId := ?_, wallet := ?_, username := ?_ }, ?_,
    { sound.fitting with users := ?_ }⟩
  · exact sound.keyed.userId.append_one fun v hv => (fresh v hv).1
  · exact sound.keyed.wallet.append_one fun v hv => (fresh v hv).2.1
  · exact sound.keyed.username.append_one fun v hv => (fresh v hv).2.2
  · apply sound.linked.changeUsers
    intro id known
    simp only [hasUser, List.any_append, Bool.or_eq_true]
    exact Or.inl known
  · exact Rows.forall_mem_append_one sound.fitting.users fits

theorem addUser_readable {u : User} (readable : s.Readable) (timely : u.isReadable = true)
    (added : addUser u s = .ok ((), s')) : s'.Readable := by
  obtain ⟨_, _, rfl⟩ := addUser_ok added
  exact { readable with
    users := Rows.forall_mem_append_one readable.users timely }

theorem replaceUser_ok {u : User} (replaced : replaceUser u s = .ok ((), s')) :
    u.fits = true ∧ (∀ v ∈ s.users, v.id ≠ u.id → v.username ≠ u.username) ∧
      s' = { s with users := s.users.map fun v => if v.id = u.id then u else v } := by
  unfold replaceUser at replaced
  split at replaced
  · cases replaced
  · rename_i fits
    split at replaced
    · cases replaced
    · rename_i free
      cases replaced
      refine ⟨by simpa using fits, ?_, rfl⟩
      intro v hv other sameName
      apply free
      rw [List.any_eq_true]
      exact ⟨v, hv, by simp [other, sameName]⟩

theorem replaceUser_sound {u : User} (sound : s.Sound)
    (known : ∃ v ∈ s.users, v.id = u.id ∧ v.walletAddress = u.walletAddress)
    (replaced : replaceUser u s = .ok ((), s')) : s'.Sound := by
  obtain ⟨fits, free, rfl⟩ := replaceUser_ok replaced
  obtain ⟨v, hv, sameId, sameWallet⟩ := known
  have keepsId : ∀ q ∈ s.users, (if q.id = u.id then u else q).id = q.id :=
    fun q _ => Rows.key_replace User.id u q
  refine ⟨{ sound.keyed with userId := ?_, wallet := ?_, username := ?_ }, ?_,
    { sound.fitting with users := ?_ }⟩
  · exact sound.keyed.userId.map keepsId
  · apply sound.keyed.wallet.map
    intro q hq
    by_cases same : q.id = u.id
    · have isV : q = v := sound.keyed.userId.eq_of_same hq hv (same.trans sameId.symm)
      rw [if_pos same, isV, sameWallet]
    · rw [if_neg same]
  · exact sound.keyed.username.replace sound.keyed.userId free
  · apply sound.linked.changeUsers
    intro id there
    rw [hasUser_congr (s := s) (Rows.column_map keepsId)]
    exact there
  · exact Rows.forall_mem_change sound.fitting.users fun _ _ _ _ => fits

theorem replaceUser_readable {u : User} (readable : s.Readable) (timely : u.isReadable = true)
    (replaced : replaceUser u s = .ok ((), s')) : s'.Readable := by
  obtain ⟨_, _, rfl⟩ := replaceUser_ok replaced
  exact { readable with
    users := Rows.forall_mem_change readable.users fun _ _ _ _ => timely }

/-! ## Jobs -/

theorem addJob_ok {j : Job} (added : addJob j s = .ok ((), s')) :
    j.fits = true ∧ (∀ k ∈ s.jobs, k.id ≠ j.id) ∧ s.hasUser j.clientId = true ∧
      (∀ f, j.freelancerId = some f → s.hasUser f = true) ∧
      s' = { s with jobs := s.jobs ++ [j] } := by
  unfold addJob at added
  split at added
  · cases added
  · rename_i fits
    split at added
    · cases added
    · rename_i fresh
      split at added
      · cases added
      · rename_i linked
        cases added
        simp only [Bool.not_eq_true, Bool.not_eq_false', Bool.and_eq_true] at linked
        refine ⟨by simpa using fits, ?_, linked.1, ?_, rfl⟩
        · intro k hk sameId
          exact fresh ((hasJob_iff s j.id).mpr ⟨k, hk, sameId⟩)
        · intro f hf
          simpa [hf] using linked.2

theorem addJob_sound {j : Job} (sound : s.Sound) (added : addJob j s = .ok ((), s')) :
    s'.Sound := by
  obtain ⟨fits, fresh, client, freelancer, rfl⟩ := addJob_ok added
  refine ⟨{ sound.keyed with jobId := sound.keyed.jobId.append_one fresh }, ?_,
    { sound.fitting with
      jobs := Rows.forall_mem_append_one sound.fitting.jobs fits }⟩
  apply sound.linked.changeJobs
  · intro id there
    simp only [hasJob, List.any_append, Bool.or_eq_true]
    exact Or.inl there
  · exact Rows.forall_mem_append_one sound.linked.jobClient client
  · exact Rows.forall_mem_append_one sound.linked.jobFreelancer freelancer

theorem addJob_readable {j : Job} (readable : s.Readable) (timely : j.isReadable = true)
    (added : addJob j s = .ok ((), s')) : s'.Readable := by
  obtain ⟨_, _, _, _, rfl⟩ := addJob_ok added
  exact { readable with
    jobs := Rows.forall_mem_append_one readable.jobs timely }

theorem replaceJob_ok {j : Job} (replaced : replaceJob j s = .ok ((), s')) :
    j.fits = true ∧ s' = { s with jobs := s.jobs.map fun k => if k.id = j.id then j else k } := by
  unfold replaceJob at replaced
  split at replaced
  · cases replaced
  · rename_i fits
    cases replaced
    exact ⟨by simpa using fits, rfl⟩

theorem replaceJob_sound {j : Job} (sound : s.Sound)
    (known : ∃ k ∈ s.jobs, k.clientId = j.clientId ∧ k.freelancerId = j.freelancerId)
    (replaced : replaceJob j s = .ok ((), s')) : s'.Sound := by
  obtain ⟨fits, rfl⟩ := replaceJob_ok replaced
  obtain ⟨k, hk, sameClient, sameFreelancer⟩ := known
  have keepsId : ∀ q ∈ s.jobs, (if q.id = j.id then j else q).id = q.id :=
    fun q _ => Rows.key_replace Job.id j q
  refine ⟨{ sound.keyed with jobId := sound.keyed.jobId.map keepsId }, ?_,
    { sound.fitting with jobs := Rows.forall_mem_change sound.fitting.jobs ?_ }⟩
  · apply sound.linked.changeJobs
    · intro id there
      rw [hasJob_congr (s := s) (Rows.column_map keepsId)]
      exact there
    · refine Rows.forall_mem_change sound.linked.jobClient ?_
      intro _ _ _ _
      rw [← sameClient]
      exact sound.linked.jobClient k hk
    · refine Rows.forall_mem_change sound.linked.jobFreelancer ?_
      intro _ _ _ _
      rw [← sameFreelancer]
      exact sound.linked.jobFreelancer k hk
  · intro _ _ _ _
    exact fits

theorem replaceJob_readable {j : Job} (readable : s.Readable) (timely : j.isReadable = true)
    (replaced : replaceJob j s = .ok ((), s')) : s'.Readable := by
  obtain ⟨_, rfl⟩ := replaceJob_ok replaced
  exact { readable with
    jobs := Rows.forall_mem_change readable.jobs fun _ _ _ _ => timely }

/-- A job with an identifier, if it is open, as it is after its assignment to a freelancer. -/
def assignedRow (id freelancer : Uuid) (now : Timestamp) (j : Job) : Job :=
  if j.id = id ∧ j.status = .opened then
    { j with freelancerId := some freelancer, status := .inProgress, updatedAt := now }
  else j

theorem assignedRow_id (id freelancer : Uuid) (now : Timestamp) (j : Job) :
    (assignedRow id freelancer now j).id = j.id := by
  unfold assignedRow
  split <;> rfl

theorem assignJob_ok {id freelancer : Uuid} {now : Timestamp} {n : Nat}
    (assigned : assignJob id freelancer now s = .ok (n, s')) :
    n = s.jobs.countP (fun j => decide (j.id = id ∧ j.status = .opened)) ∧
      (n ≠ 0 → s.hasUser freelancer = true) ∧
      s' = { s with jobs := s.jobs.map (assignedRow id freelancer now) } := by
  unfold assignJob at assigned
  simp only [← Bool.decide_and] at assigned
  split at assigned
  · cases assigned
  · rename_i allowed
    cases assigned
    refine ⟨rfl, ?_, ?_⟩
    · intro some
      by_contra unknown
      apply allowed
      rw [Bool.and_eq_true]
      exact ⟨decide_eq_true some, by simpa using unknown⟩
    · simp [assignedRow]

theorem assignJob_sound {id freelancer : Uuid} {now : Timestamp} {n : Nat} (sound : s.Sound)
    (assigned : assignJob id freelancer now s = .ok (n, s')) : s'.Sound := by
  obtain ⟨count, known, rfl⟩ := assignJob_ok assigned
  have keepsId : ∀ q ∈ s.jobs, (assignedRow id freelancer now q).id = q.id :=
    fun q _ => assignedRow_id id freelancer now q
  refine ⟨{ sound.keyed with jobId := sound.keyed.jobId.map keepsId }, ?_,
    { sound.fitting with jobs := Rows.forall_mem_change sound.fitting.jobs ?_ }⟩
  · apply sound.linked.changeJobs
    · intro other there
      rw [hasJob_congr (s := s) (Rows.column_map keepsId)]
      exact there
    · exact Rows.forall_mem_change sound.linked.jobClient fun _ _ _ before => before
    · refine Rows.forall_mem_change sound.linked.jobFreelancer ?_
      intro q hq due _ f hf
      have positive : 0 < s.jobs.countP fun j => decide (j.id = id ∧ j.status = .opened) :=
        List.countP_pos_iff.mpr ⟨q, hq, decide_eq_true due⟩
      cases hf
      exact known (by omega)
  · intro _ _ _ before
    exact before

theorem assignJob_readable {id freelancer : Uuid} {now : Timestamp} {n : Nat}
    (readable : s.Readable) (timely : now.isRepresentable = true)
    (assigned : assignJob id freelancer now s = .ok (n, s')) : s'.Readable := by
  obtain ⟨_, _, rfl⟩ := assignJob_ok assigned
  refine { readable with jobs := Rows.forall_mem_change readable.jobs ?_ }
  intro q _ _ before
  rw [Job.isReadable, Bool.and_eq_true] at before ⊢
  exact ⟨before.1, timely⟩

/-- What becomes of a message when a job is removed. -/
def detachedFrom (id : Uuid) (m : Message) : Message :=
  if m.jobId = some id then { m with jobId := none } else m

theorem detachedFrom_id (id : Uuid) (m : Message) : (detachedFrom id m).id = m.id := by
  unfold detachedFrom
  split <;> rfl

theorem removeJob_ok {id : Uuid} {n : Nat} (removed : removeJob id s = .ok (n, s')) :
    n = s.jobs.countP (fun j => decide (j.id = id)) ∧
      s' = {
        users := s.users
        jobs := s.jobs.filter (·.id ≠ id)
        milestones := s.milestones.filter (·.jobId ≠ id)
        applications := s.applications.filter (·.jobId ≠ id)
        messages := s.messages.map (detachedFrom id)
        reviews := s.reviews.filter (·.jobId ≠ id) } := by
  unfold removeJob at removed
  cases removed
  exact ⟨rfl, rfl⟩

/-- A test that does not look at the jobs of messages is passed after the removal of a job by all rows
that are left if all rows passed it before. -/
theorem every_removeJob {user : User → Bool} {job : Job → Bool} {milestone : Milestone → Bool}
    {application : Application → Bool} {message : Message → Bool} {review : Review → Bool} {id : Uuid}
    (every : s.Every user job milestone application message review)
    (blind : ∀ m, message (detachedFrom id m) = message m) :
    Every user job milestone application message review {
      users := s.users
      jobs := s.jobs.filter (·.id ≠ id)
      milestones := s.milestones.filter (·.jobId ≠ id)
      applications := s.applications.filter (·.jobId ≠ id)
      messages := s.messages.map (detachedFrom id)
      reviews := s.reviews.filter (·.jobId ≠ id) } where
  users := every.users
  jobs j hj := every.jobs j (List.mem_filter.mp hj).1
  milestones m hm := every.milestones m (List.mem_filter.mp hm).1
  applications a ha := every.applications a (List.mem_filter.mp ha).1
  messages := Rows.forall_mem_update every.messages fun m _ before => (blind m).trans before
  reviews r hr := every.reviews r (List.mem_filter.mp hr).1

theorem removeJob_sound {id : Uuid} {n : Nat} (sound : s.Sound)
    (removed : removeJob id s = .ok (n, s')) : s'.Sound := by
  obtain ⟨_, rfl⟩ := removeJob_ok removed
  obtain ⟨keyed, linked, fitting⟩ := sound
  -- A job that a row still refers to is another one, and stays.
  have stays : ∀ other, other ≠ id → s.hasJob other = true →
      (s.jobs.filter (·.id ≠ id)).any (·.id = other) = true := by
    intro other different there
    obtain ⟨j, hj, rfl⟩ := (hasJob_iff s other).mp there
    rw [List.any_eq_true]
    exact ⟨j, List.mem_filter.mpr ⟨hj, by simpa using different⟩, by simp⟩
  refine ⟨?_, ?_, ?_⟩
  · exact {
      userId := keyed.userId
      wallet := keyed.wallet
      username := keyed.username
      jobId := keyed.jobId.filter _
      milestoneId := keyed.milestoneId.filter _
      milestonePlace := keyed.milestonePlace.filter _
      applicationId := keyed.applicationId.filter _
      applicant := keyed.applicant.filter _
      messageId := keyed.messageId.map fun m _ => detachedFrom_id id m
      reviewId := keyed.reviewId.filter _
      reviewer := keyed.reviewer.filter _ }
  · exact {
      jobClient := fun j hj => linked.jobClient j (List.mem_filter.mp hj).1
      jobFreelancer := fun j hj => linked.jobFreelancer j (List.mem_filter.mp hj).1
      milestoneJob := fun m hm =>
        stays _ (by simpa using (List.mem_filter.mp hm).2)
          (linked.milestoneJob m (List.mem_filter.mp hm).1)
      applicationJob := fun a ha =>
        stays _ (by simpa using (List.mem_filter.mp ha).2)
          (linked.applicationJob a (List.mem_filter.mp ha).1)
      applicationFreelancer := fun a ha =>
        linked.applicationFreelancer a (List.mem_filter.mp ha).1
      messageSender := Rows.forall_mem_change linked.messageSender fun _ _ _ before => before
      messageReceiver := Rows.forall_mem_change linked.messageReceiver fun _ _ _ before => before
      messageJob := Rows.forall_mem_update linked.messageJob fun m _ before => by
        unfold detachedFrom
        split
        · intro j none
          cases none
        · rename_i other
          intro j hj
          exact stays j (fun same => other (same ▸ hj)) (before j hj)
      reviewJob := fun r hr =>
        stays _ (by simpa using (List.mem_filter.mp hr).2)
          (linked.reviewJob r (List.mem_filter.mp hr).1)
      reviewReviewer := fun r hr => linked.reviewReviewer r (List.mem_filter.mp hr).1
      reviewReviewee := fun r hr => linked.reviewReviewee r (List.mem_filter.mp hr).1 }
  · exact every_removeJob fitting fun m => by
      unfold detachedFrom
      split <;> rfl

theorem removeJob_readable {id : Uuid} {n : Nat} (readable : s.Readable)
    (removed : removeJob id s = .ok (n, s')) : s'.Readable := by
  obtain ⟨_, rfl⟩ := removeJob_ok removed
  apply every_removeJob readable
  intro m
  unfold detachedFrom
  split <;> rfl

/-! ## Milestones -/

theorem anyMilestoneClash_eq_false {stored : List Milestone} : ∀ {ms : List Milestone},
    anyMilestoneClash stored ms = false →
      (∀ m ∈ ms, ∀ o ∈ stored, milestonesClash m o = false) ∧
        ms.Pairwise fun m o => milestonesClash m o = false := by
  intro ms
  induction ms with
  | nil => intro _; simp
  | cons m ms ih =>
      intro none
      simp only [anyMilestoneClash, Bool.or_eq_false_iff, List.any_eq_false,
        Bool.not_eq_true] at none
      obtain ⟨apart, distinct⟩ := ih none.2
      exact ⟨List.forall_mem_cons.mpr ⟨none.1.1, apart⟩, distinct.cons none.1.2⟩

theorem milestonesClash_eq_false {m o : Milestone} :
    milestonesClash m o = false ↔ m.id ≠ o.id ∧ (m.jobId, m.order) ≠ (o.jobId, o.order) := by
  simp [milestonesClash]

theorem addMilestones_ok {ms : List Milestone} (added : addMilestones ms s = .ok ((), s')) :
    (∀ m ∈ ms, m.fits = true) ∧
      (∀ m ∈ ms, ∀ o ∈ s.milestones, milestonesClash m o = false) ∧
      ms.Pairwise (fun m o => milestonesClash m o = false) ∧
      (∀ m ∈ ms, s.hasJob m.jobId = true) ∧
      s' = { s with milestones := s.milestones ++ ms } := by
  unfold addMilestones at added
  split at added
  · cases added
  · rename_i fits
    split at added
    · cases added
    · rename_i apart
      split at added
      · cases added
      · rename_i linked
        cases added
        obtain ⟨new, distinct⟩ := anyMilestoneClash_eq_false (by simpa using apart)
        simp only [Bool.or_eq_true, not_or] at fits
        exact ⟨by simpa using fits.2, new, distinct, by simpa using linked, rfl⟩

theorem addMilestones_nil (s : Store) : addMilestones [] s = .ok ((), s) := by
  simp [addMilestones, anyMilestoneClash]

theorem addMilestones_sound {ms : List Milestone} (sound : s.Sound)
    (added : addMilestones ms s = .ok ((), s')) : s'.Sound := by
  obtain ⟨fits, new, distinct, there, rfl⟩ := addMilestones_ok added
  have newApart : ∀ m ∈ ms, ∀ o ∈ s.milestones,
      o.id ≠ m.id ∧ (o.jobId, o.order) ≠ (m.jobId, m.order) := by
    intro m hm o ho
    have apart := milestonesClash_eq_false.mp (new m hm o ho)
    exact ⟨apart.1.symm, apart.2.symm⟩
  refine ⟨{ sound.keyed with milestoneId := ?_, milestonePlace := ?_ },
    { sound.linked with
      milestoneJob := List.forall_mem_append.mpr ⟨sound.linked.milestoneJob, there⟩ },
    { sound.fitting with
      milestones := List.forall_mem_append.mpr ⟨sound.fitting.milestones, fits⟩ }⟩
  · apply sound.keyed.milestoneId.append
    · rw [Rows.unique_iff_pairwise]
      exact distinct.imp fun apart => (milestonesClash_eq_false.mp apart).1
    · exact fun m hm o ho => (newApart m hm o ho).1
  · apply sound.keyed.milestonePlace.append
    · rw [Rows.unique_iff_pairwise]
      exact distinct.imp fun apart => (milestonesClash_eq_false.mp apart).2
    · exact fun m hm o ho => (newApart m hm o ho).2

theorem addMilestones_readable {ms : List Milestone} (readable : s.Readable)
    (timely : ∀ m ∈ ms, m.isReadable = true) (added : addMilestones ms s = .ok ((), s')) :
    s'.Readable := by
  obtain ⟨_, _, _, _, rfl⟩ := addMilestones_ok added
  exact { readable with
    milestones := List.forall_mem_append.mpr ⟨readable.milestones, timely⟩ }

def movedRow (id : Uuid) (status : MilestoneStatus) (now : Timestamp) (m : Milestone) : Milestone :=
  if m.id = id then { m with status := status, updatedAt := now } else m

theorem setMilestoneStatus_ok {id : Uuid} {status : MilestoneStatus} {now : Timestamp}
    (set : setMilestoneStatus id status now s = .ok ((), s')) :
    s' = { s with milestones := s.milestones.map (movedRow id status now) } := by
  unfold setMilestoneStatus at set
  cases set
  rfl

theorem movedRow_id (id : Uuid) (status : MilestoneStatus) (now : Timestamp) (m : Milestone) :
    (movedRow id status now m).id = m.id := by
  unfold movedRow
  split <;> rfl

theorem setMilestoneStatus_sound {id : Uuid} {status : MilestoneStatus} {now : Timestamp}
    (sound : s.Sound) (set : setMilestoneStatus id status now s = .ok ((), s')) : s'.Sound := by
  cases setMilestoneStatus_ok set
  refine ⟨{ sound.keyed with milestoneId := ?_, milestonePlace := ?_ },
    { sound.linked with milestoneJob := ?_ }, { sound.fitting with milestones := ?_ }⟩
  · exact sound.keyed.milestoneId.map fun m _ => movedRow_id id status now m
  · apply sound.keyed.milestonePlace.map
    intro m _
    unfold movedRow
    split <;> rfl
  · exact Rows.forall_mem_change sound.linked.milestoneJob fun _ _ _ before => before
  · exact Rows.forall_mem_change sound.fitting.milestones fun _ _ _ before => before

theorem setMilestoneStatus_readable {id : Uuid} {status : MilestoneStatus} {now : Timestamp}
    (readable : s.Readable) (timely : now.isRepresentable = true)
    (set : setMilestoneStatus id status now s = .ok ((), s')) : s'.Readable := by
  cases setMilestoneStatus_ok set
  refine { readable with milestones := Rows.forall_mem_change readable.milestones ?_ }
  intro m _ _ before
  rw [Milestone.isReadable, Bool.and_eq_true] at before ⊢
  exact ⟨before.1, timely⟩

/-! ## Applications -/

theorem addApplication_ok {a : Application} (added : addApplication a s = .ok ((), s')) :
    a.fits = true ∧
      (∀ b ∈ s.applications,
        b.id ≠ a.id ∧ (b.jobId, b.freelancerId) ≠ (a.jobId, a.freelancerId)) ∧
      s.hasJob a.jobId = true ∧ s.hasUser a.freelancerId = true ∧
      s' = { s with applications := s.applications ++ [a] } := by
  unfold addApplication at added
  split at added
  · cases added
  · rename_i fits
    split at added
    · cases added
    · rename_i new
      split at added
      · cases added
      · rename_i linked
        cases added
        simp only [Bool.not_eq_true, Bool.not_eq_false', Bool.and_eq_true] at linked
        refine ⟨by simpa using fits, ?_, linked.1, linked.2, rfl⟩
        simpa using new

theorem addApplication_sound {a : Application} (sound : s.Sound)
    (added : addApplication a s = .ok ((), s')) : s'.Sound := by
  obtain ⟨fits, new, job, freelancer, rfl⟩ := addApplication_ok added
  refine ⟨{ sound.keyed with applicationId := ?_, applicant := ?_ },
    { sound.linked with applicationJob := ?_, applicationFreelancer := ?_ },
    { sound.fitting with applications := ?_ }⟩
  · exact sound.keyed.applicationId.append_one fun b hb => (new b hb).1
  · exact sound.keyed.applicant.append_one fun b hb => (new b hb).2
  · exact Rows.forall_mem_append_one sound.linked.applicationJob job
  · exact Rows.forall_mem_append_one sound.linked.applicationFreelancer freelancer
  · exact Rows.forall_mem_append_one sound.fitting.applications fits

theorem addApplication_readable {a : Application} (readable : s.Readable)
    (timely : a.isReadable = true) (added : addApplication a s = .ok ((), s')) : s'.Readable := by
  obtain ⟨_, _, _, _, rfl⟩ := addApplication_ok added
  exact { readable with
    applications := Rows.forall_mem_append_one readable.applications timely }

def decidedRow (id : Uuid) (status : ApplicationStatus) (now : Timestamp) (a : Application) :
    Application :=
  if a.id = id then { a with status := status, updatedAt := now } else a

theorem decidedRow_id (id : Uuid) (status : ApplicationStatus) (now : Timestamp)
    (a : Application) : (decidedRow id status now a).id = a.id := by
  unfold decidedRow
  split <;> rfl

theorem setApplicationStatus_ok {id : Uuid} {status : ApplicationStatus} {now : Timestamp}
    (set : setApplicationStatus id status now s = .ok ((), s')) :
    s' = { s with applications := s.applications.map (decidedRow id status now) } := by
  unfold setApplicationStatus at set
  cases set
  rfl

theorem setApplicationStatus_sound {id : Uuid} {status : ApplicationStatus} {now : Timestamp}
    (sound : s.Sound) (set : setApplicationStatus id status now s = .ok ((), s')) :
    s'.Sound := by
  cases setApplicationStatus_ok set
  refine ⟨{ sound.keyed with applicationId := ?_, applicant := ?_ },
    { sound.linked with applicationJob := ?_, applicationFreelancer := ?_ },
    { sound.fitting with applications := ?_ }⟩
  · exact sound.keyed.applicationId.map fun a _ => decidedRow_id id status now a
  · apply sound.keyed.applicant.map
    intro a _
    unfold decidedRow
    split <;> rfl
  · exact Rows.forall_mem_change sound.linked.applicationJob fun _ _ _ before => before
  · exact Rows.forall_mem_change sound.linked.applicationFreelancer fun _ _ _ before => before
  · exact Rows.forall_mem_change sound.fitting.applications fun _ _ _ before => before

theorem setApplicationStatus_readable {id : Uuid} {status : ApplicationStatus} {now : Timestamp}
    (readable : s.Readable) (timely : now.isRepresentable = true)
    (set : setApplicationStatus id status now s = .ok ((), s')) : s'.Readable := by
  cases setApplicationStatus_ok set
  refine { readable with applications := Rows.forall_mem_change readable.applications ?_ }
  intro a _ _ before
  rw [Application.isReadable, Bool.and_eq_true] at before ⊢
  exact ⟨before.1, timely⟩

/-! ## Messages -/

theorem addMessage_ok {m : Message} (added : addMessage m s = .ok ((), s')) :
    m.fits = true ∧ (∀ n ∈ s.messages, n.id ≠ m.id) ∧ s.hasUser m.senderId = true ∧
      s.hasUser m.receiverId = true ∧ (∀ j, m.jobId = some j → s.hasJob j = true) ∧
      s' = { s with messages := s.messages ++ [m] } := by
  unfold addMessage at added
  split at added
  · cases added
  · rename_i fits
    split at added
    · cases added
    · rename_i new
      split at added
      · cases added
      · rename_i linked
        cases added
        simp only [Bool.not_eq_true, Bool.not_eq_false', Bool.and_eq_true] at linked
        refine ⟨by simpa using fits, by simpa using new, linked.1.1, linked.1.2, ?_, rfl⟩
        intro j hj
        simpa [hj] using linked.2

theorem addMessage_sound {m : Message} (sound : s.Sound)
    (added : addMessage m s = .ok ((), s')) : s'.Sound := by
  obtain ⟨fits, new, sender, receiver, job, rfl⟩ := addMessage_ok added
  refine ⟨{ sound.keyed with messageId := sound.keyed.messageId.append_one new },
    { sound.linked with messageSender := ?_, messageReceiver := ?_, messageJob := ?_ },
    { sound.fitting with messages := ?_ }⟩
  · exact Rows.forall_mem_append_one sound.linked.messageSender sender
  · exact Rows.forall_mem_append_one sound.linked.messageReceiver receiver
  · exact Rows.forall_mem_append_one sound.linked.messageJob job
  · exact Rows.forall_mem_append_one sound.fitting.messages fits

theorem addMessage_readable {m : Message} (readable : s.Readable) (timely : m.isReadable = true)
    (added : addMessage m s = .ok ((), s')) : s'.Readable := by
  obtain ⟨_, _, _, _, _, rfl⟩ := addMessage_ok added
  exact { readable with
    messages := Rows.forall_mem_append_one readable.messages timely }

def readRowIf (due : Message → Bool) (m : Message) : Message :=
  if due m = true then { m with read := true } else m

theorem readRowIf_id (due : Message → Bool) (m : Message) : (readRowIf due m).id = m.id := by
  unfold readRowIf
  split <;> rfl

theorem markRead_ok {due : Message → Bool} {n : Nat} (marked : markRead due s = .ok (n, s')) :
    n = s.messages.countP due ∧
      s' = { s with messages := s.messages.map (readRowIf due) } := by
  unfold markRead at marked
  cases marked
  exact ⟨rfl, rfl⟩

theorem markRead_sound {due : Message → Bool} {n : Nat} (sound : s.Sound)
    (marked : markRead due s = .ok (n, s')) : s'.Sound := by
  obtain ⟨_, rfl⟩ := markRead_ok marked
  refine ⟨{ sound.keyed with messageId := ?_ },
    { sound.linked with messageSender := ?_, messageReceiver := ?_, messageJob := ?_ },
    { sound.fitting with messages := ?_ }⟩
  · exact sound.keyed.messageId.map fun m _ => readRowIf_id due m
  · exact Rows.forall_mem_change sound.linked.messageSender fun _ _ _ before => before
  · exact Rows.forall_mem_change sound.linked.messageReceiver fun _ _ _ before => before
  · exact Rows.forall_mem_change sound.linked.messageJob fun _ _ _ before => before
  · exact Rows.forall_mem_change sound.fitting.messages fun _ _ _ before => before

theorem markRead_readable {due : Message → Bool} {n : Nat} (readable : s.Readable)
    (marked : markRead due s = .ok (n, s')) : s'.Readable := by
  obtain ⟨_, rfl⟩ := markRead_ok marked
  exact { readable with
    messages := Rows.forall_mem_change readable.messages fun _ _ _ before => before }

/-! ## Reviews -/

theorem addReview_ok {r : Review} (added : addReview r s = .ok ((), s')) :
    r.fits = true ∧
      (∀ q ∈ s.reviews, q.id ≠ r.id ∧ (q.jobId, q.reviewerId) ≠ (r.jobId, r.reviewerId)) ∧
      s.hasJob r.jobId = true ∧ s.hasUser r.reviewerId = true ∧
      s.hasUser r.revieweeId = true ∧ s' = { s with reviews := s.reviews ++ [r] } := by
  unfold addReview at added
  split at added
  · cases added
  · rename_i fits
    split at added
    · cases added
    · rename_i new
      split at added
      · cases added
      · rename_i linked
        cases added
        simp only [Bool.not_eq_true, Bool.not_eq_false', Bool.and_eq_true] at linked
        refine ⟨by simpa using fits, by simpa using new, linked.1.1, linked.1.2, linked.2, rfl⟩

theorem addReview_sound {r : Review} (sound : s.Sound) (added : addReview r s = .ok ((), s')) :
    s'.Sound := by
  obtain ⟨fits, new, job, reviewer, reviewee, rfl⟩ := addReview_ok added
  refine ⟨{ sound.keyed with reviewId := ?_, reviewer := ?_ },
    { sound.linked with reviewJob := ?_, reviewReviewer := ?_, reviewReviewee := ?_ },
    { sound.fitting with reviews := ?_ }⟩
  · exact sound.keyed.reviewId.append_one fun q hq => (new q hq).1
  · exact sound.keyed.reviewer.append_one fun q hq => (new q hq).2
  · exact Rows.forall_mem_append_one sound.linked.reviewJob job
  · exact Rows.forall_mem_append_one sound.linked.reviewReviewer reviewer
  · exact Rows.forall_mem_append_one sound.linked.reviewReviewee reviewee
  · exact Rows.forall_mem_append_one sound.fitting.reviews fits

theorem addReview_readable {r : Review} (readable : s.Readable) (timely : r.isReadable = true)
    (added : addReview r s = .ok ((), s')) : s'.Readable := by
  obtain ⟨_, _, _, _, _, rfl⟩ := addReview_ok added
  exact { readable with
    reviews := Rows.forall_mem_append_one readable.reviews timely }

end GigBoard.Store
