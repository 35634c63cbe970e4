import GigBoard.Proofs.Atomicity
import GigBoard.Proofs.Tokens

/-!
# The constraints of the tables

`Constrained` states the constraints of the tables in plain terms: no reference to the tests that the
statements make, and every role and state by its name.  A store satisfies them exactly if it is sound,
and so every store that satisfies them does so after any run.
-/

set_option autoImplicit false

namespace GigBoard

open Account (User)
open Delivery (Milestone)
open Hiring (Application Job)
open Http (Request)
open Messaging (Message)
open Reputation (Review)
open Rows (Unique)

/-! ## Texts and names -/

namespace Text

def NoNul (s : String) : Prop := '\x00' ∉ s.toList

instance (s : String) : Decidable (NoNul s) := inferInstanceAs (Decidable (_ ∉ s.toList))

/-- A text of at most so many characters, none of them U+0000. -/
def AtMost (size : Nat) (s : String) : Prop := s.length ≤ size ∧ NoNul s

instance (size : Nat) (s : String) : Decidable (AtMost size s) :=
  inferInstanceAs (Decidable (_ ∧ _))

theorem isStorable_iff (s : String) : isStorable s = true ↔ NoNul s := by
  unfold isStorable NoNul
  rw [List.all_eq_true]
  constructor
  · intro all present
    have notZero := all _ present
    cases notZero
  · intro absent c hc
    have notNul : c ≠ '\x00' := fun same => absent (same ▸ hc)
    simp only [bne_iff_ne, ne_eq]
    intro zero
    exact notNul (Char.toNat_inj.mp zero)

theorem fitsColumn_iff (size : Nat) (s : String) : fitsColumn size s = true ↔ AtMost size s := by
  rw [fitsColumn, Bool.and_eq_true, decide_eq_true_eq, isStorable_iff]
  rfl

theorem all_fitsColumn_iff (size : Nat) (s : Option String) :
    s.all (fitsColumn size) = true ↔ ∀ t, s = some t → AtMost size t := by
  cases s <;> simp [fitsColumn_iff]

theorem all_isStorable_iff (s : Option String) :
    s.all isStorable = true ↔ ∀ t, s = some t → NoNul t := by
  cases s <;> simp [isStorable_iff]

end Text

/-- A value is stored under one of some names, which fits its column of sixteen characters and is read
back as the value. -/
def Named.StoredAs {α : Type} [Named α] (names : List String) (a : α) : Prop :=
  name a ∈ names ∧ Text.AtMost 16 (name a) ∧ read (name a) = .ok a

theorem Role.storedAs (role : Role) : Named.StoredAs ["CLIENT", "FREELANCER"] role := by
  cases role <;> exact ⟨by decide, by decide, rfl⟩

theorem JobStatus.storedAs (status : JobStatus) :
    Named.StoredAs ["OPEN", "IN_PROGRESS", "COMPLETED", "CANCELLED", "DISPUTED"] status := by
  cases status <;> exact ⟨by decide, by decide, rfl⟩

theorem ApplicationStatus.storedAs (status : ApplicationStatus) :
    Named.StoredAs ["PENDING", "ACCEPTED", "REJECTED"] status := by
  cases status <;> exact ⟨by decide, by decide, rfl⟩

theorem MilestoneStatus.storedAs (status : MilestoneStatus) :
    Named.StoredAs ["PENDING", "IN_PROGRESS", "SUBMITTED", "APPROVED", "REJECTED"] status := by
  cases status <;> exact ⟨by decide, by decide, rfl⟩

/-! ## Constraints -/

namespace Store

/-- All constraints of the tables: unique columns, references to rows that exist, names of roles and
states, ratings from one to five, and the lengths of texts. -/
structure Constrained (s : Store) : Prop where
  ids : Unique User.id s.users ∧ Unique Job.id s.jobs ∧ Unique Milestone.id s.milestones ∧
    Unique Application.id s.applications ∧ Unique Message.id s.messages ∧ Unique Review.id s.reviews
  accounts : Unique User.walletAddress s.users ∧ Unique User.username s.users
  pairs : Unique (fun m => (m.jobId, m.order)) s.milestones ∧
    Unique (fun a => (a.jobId, a.freelancerId)) s.applications ∧
    Unique (fun r => (r.jobId, r.reviewerId)) s.reviews
  jobUsers : ∀ j ∈ s.jobs, (∃ u ∈ s.users, u.id = j.clientId) ∧
    (j.freelancerId = none ∨ ∃ u ∈ s.users, j.freelancerId = some u.id)
  milestoneJob : ∀ m ∈ s.milestones, ∃ j ∈ s.jobs, j.id = m.jobId
  application : ∀ a ∈ s.applications, (∃ j ∈ s.jobs, j.id = a.jobId) ∧
    ∃ u ∈ s.users, u.id = a.freelancerId
  message : ∀ m ∈ s.messages, (∃ u ∈ s.users, u.id = m.senderId) ∧
    (∃ u ∈ s.users, u.id = m.receiverId) ∧
    (m.jobId = none ∨ ∃ j ∈ s.jobs, m.jobId = some j.id)
  review : ∀ r ∈ s.reviews, (∃ j ∈ s.jobs, j.id = r.jobId) ∧
    (∃ u ∈ s.users, u.id = r.reviewerId) ∧ ∃ u ∈ s.users, u.id = r.revieweeId
  roles : ∀ u ∈ s.users, Named.StoredAs ["CLIENT", "FREELANCER"] u.role
  jobStates : ∀ j ∈ s.jobs,
    Named.StoredAs ["OPEN", "IN_PROGRESS", "COMPLETED", "CANCELLED", "DISPUTED"] j.status
  milestoneStates : ∀ m ∈ s.milestones,
    Named.StoredAs ["PENDING", "IN_PROGRESS", "SUBMITTED", "APPROVED", "REJECTED"] m.status
  applicationStates : ∀ a ∈ s.applications,
    Named.StoredAs ["PENDING", "ACCEPTED", "REJECTED"] a.status
  ratings : ∀ r ∈ s.reviews, 1 ≤ r.rating ∧ r.rating ≤ 5
  userTexts : ∀ u ∈ s.users, Text.AtMost 64 u.walletAddress ∧ Text.AtMost 100 u.username ∧
    (∀ t, u.email = some t → Text.AtMost 255 t) ∧ (∀ t, u.bio = some t → Text.NoNul t) ∧
    ∀ t, u.avatarUrl = some t → Text.NoNul t
  jobTexts : ∀ j ∈ s.jobs, Text.AtMost 255 j.title ∧ Text.NoNul j.description ∧
    Text.AtMost 100 j.category
  milestoneTexts : ∀ m ∈ s.milestones, Text.AtMost 255 m.title ∧ Text.NoNul m.description
  otherTexts : (∀ a ∈ s.applications, Text.NoNul a.coverLetter) ∧
    (∀ m ∈ s.messages, Text.NoNul m.content) ∧ ∀ r ∈ s.reviews, Text.NoNul r.comment

variable {s : Store}

/-- A reference that may be missing is good if it is missing or finds a row. -/
theorem forall_some_iff {α : Type} {rows : List α} {key : α → Uuid} {reference : Option Uuid} :
    (∀ id, reference = some id → ∃ r ∈ rows, key r = id) ↔
      reference = none ∨ ∃ r ∈ rows, reference = some (key r) := by
  cases reference with
  | none => simp
  | some id => simp [eq_comm]

theorem Sound.constrained (sound : s.Sound) : s.Constrained := by
  obtain ⟨keyed, linked, fitting⟩ := sound
  constructor
  · exact ⟨keyed.userId, keyed.jobId, keyed.milestoneId, keyed.applicationId, keyed.messageId,
      keyed.reviewId⟩
  · exact ⟨keyed.wallet, keyed.username⟩
  · exact ⟨keyed.milestonePlace, keyed.applicant, keyed.reviewer⟩
  · intro j hj
    refine ⟨(s.hasUser_iff _).mp (linked.jobClient j hj), forall_some_iff.mp ?_⟩
    intro f assigned
    exact (s.hasUser_iff f).mp (linked.jobFreelancer j hj f assigned)
  · intro m hm
    exact (s.hasJob_iff _).mp (linked.milestoneJob m hm)
  · intro a ha
    exact ⟨(s.hasJob_iff _).mp (linked.applicationJob a ha),
      (s.hasUser_iff _).mp (linked.applicationFreelancer a ha)⟩
  · intro m hm
    refine ⟨(s.hasUser_iff _).mp (linked.messageSender m hm),
      (s.hasUser_iff _).mp (linked.messageReceiver m hm), forall_some_iff.mp ?_⟩
    intro j about
    exact (s.hasJob_iff j).mp (linked.messageJob m hm j about)
  · intro r hr
    exact ⟨(s.hasJob_iff _).mp (linked.reviewJob r hr),
      (s.hasUser_iff _).mp (linked.reviewReviewer r hr),
      (s.hasUser_iff _).mp (linked.reviewReviewee r hr)⟩
  · intro u _
    exact Role.storedAs u.role
  · intro j _
    exact JobStatus.storedAs j.status
  · intro m _
    exact MilestoneStatus.storedAs m.status
  · intro a _
    exact ApplicationStatus.storedAs a.status
  · intro r hr
    have fits := fitting.reviews r hr
    simp only [Review.fits, Review.isRating, Bool.and_eq_true, decide_eq_true_eq] at fits
    exact fits.1
  · intro u hu
    have fits := fitting.users u hu
    simp only [User.fits, Bool.and_eq_true, Text.fitsColumn_iff, Text.all_fitsColumn_iff,
      Text.all_isStorable_iff] at fits
    obtain ⟨⟨⟨⟨wallet, username⟩, email⟩, bio⟩, avatarUrl⟩ := fits
    exact ⟨wallet, username, email, bio, avatarUrl⟩
  · intro j hj
    have fits := fitting.jobs j hj
    simp only [Job.fits, Bool.and_eq_true, Text.fitsColumn_iff, Text.isStorable_iff] at fits
    exact ⟨fits.1.1, fits.1.2, fits.2⟩
  · intro m hm
    have fits := fitting.milestones m hm
    simpa only [Milestone.fits, Bool.and_eq_true, Text.fitsColumn_iff, Text.isStorable_iff]
      using fits
  · refine ⟨fun a ha => ?_, fun m hm => ?_, fun r hr => ?_⟩
    · exact (Text.isStorable_iff _).mp (fitting.applications a ha)
    · exact (Text.isStorable_iff _).mp (fitting.messages m hm)
    · have fits := fitting.reviews r hr
      rw [Review.fits, Bool.and_eq_true, Text.isStorable_iff] at fits
      exact fits.2

theorem Constrained.sound (holds : s.Constrained) : s.Sound := by
  refine ⟨?_, ?_, ?_⟩
  · exact {
      userId := holds.ids.1
      wallet := holds.accounts.1
      username := holds.accounts.2
      jobId := holds.ids.2.1
      milestoneId := holds.ids.2.2.1
      milestonePlace := holds.pairs.1
      applicationId := holds.ids.2.2.2.1
      applicant := holds.pairs.2.1
      messageId := holds.ids.2.2.2.2.1
      reviewId := holds.ids.2.2.2.2.2
      reviewer := holds.pairs.2.2 }
  · exact {
      jobClient := fun j hj => (s.hasUser_iff _).mpr (holds.jobUsers j hj).1
      jobFreelancer := fun j hj f assigned =>
        (s.hasUser_iff f).mpr (forall_some_iff.mpr (holds.jobUsers j hj).2 f assigned)
      milestoneJob := fun m hm => (s.hasJob_iff _).mpr (holds.milestoneJob m hm)
      applicationJob := fun a ha => (s.hasJob_iff _).mpr (holds.application a ha).1
      applicationFreelancer := fun a ha => (s.hasUser_iff _).mpr (holds.application a ha).2
      messageSender := fun m hm => (s.hasUser_iff _).mpr (holds.message m hm).1
      messageReceiver := fun m hm => (s.hasUser_iff _).mpr (holds.message m hm).2.1
      messageJob := fun m hm j about =>
        (s.hasJob_iff j).mpr (forall_some_iff.mpr (holds.message m hm).2.2 j about)
      reviewJob := fun r hr => (s.hasJob_iff _).mpr (holds.review r hr).1
      reviewReviewer := fun r hr => (s.hasUser_iff _).mpr (holds.review r hr).2.1
      reviewReviewee := fun r hr => (s.hasUser_iff _).mpr (holds.review r hr).2.2 }
  · constructor
    · intro u hu
      obtain ⟨wallet, username, email, bio, avatarUrl⟩ := holds.userTexts u hu
      simp only [User.fits, Bool.and_eq_true, Text.fitsColumn_iff, Text.all_fitsColumn_iff,
        Text.all_isStorable_iff]
      exact ⟨⟨⟨⟨wallet, username⟩, email⟩, bio⟩, avatarUrl⟩
    · intro j hj
      obtain ⟨title, description, category⟩ := holds.jobTexts j hj
      simp only [Job.fits, Bool.and_eq_true, Text.fitsColumn_iff, Text.isStorable_iff]
      exact ⟨⟨title, description⟩, category⟩
    · intro m hm
      simpa only [Milestone.fits, Bool.and_eq_true, Text.fitsColumn_iff, Text.isStorable_iff]
        using holds.milestoneTexts m hm
    · intro a ha
      exact (Text.isStorable_iff _).mpr (holds.otherTexts.1 a ha)
    · intro m hm
      exact (Text.isStorable_iff _).mpr (holds.otherTexts.2.1 m hm)
    · intro r hr
      simp only [Review.fits, Review.isRating, Bool.and_eq_true, decide_eq_true_eq,
        Text.isStorable_iff]
      exact ⟨holds.ratings r hr, holds.otherTexts.2.2 r hr⟩

end Store

namespace Server

/-- Whatever is asked of the service, in whatever order and under whatever circumstances, a store that
satisfies the constraints of its tables goes on to satisfy them. -/
theorem constraints_survive_runs (server : Server) (seed : Store) (holds : seed.Constrained)
    (steps : List (Context × Request)) : (server.run steps seed).Constrained := by
  have sound : (server.run steps seed).Sound :=
    server.run_keeps (fun ctx r _ before => server.handle_sound ctx r before) steps holds.sound
  exact sound.constrained

/-! ## A job that is removed -/

def bob : User where
  id := .ofNat 2
  walletAddress := "0xb"
  username := "bob"
  email := none
  bio := none
  avatarUrl := none
  role := .freelancer
  createdAt := ⟨0⟩
  updatedAt := ⟨0⟩

def annAndBob : Store := { Store.empty with users := [ann, bob] }

theorem annAndBob_sound : annAndBob.Sound := by
  have bob_added : Store.addUser bob annAlone = .ok ((), annAndBob) := rfl
  exact Store.addUser_sound (Store.addUser_sound Store.empty_sound ann_added) bob_added

def siteJob : Job where
  id := .ofNat 3
  title := "Site"
  description := ""
  budget := .powerOfTen 2
  category := "Web"
  status := .inProgress
  clientId := ann.id
  freelancerId := some bob.id
  createdAt := ⟨0⟩
  updatedAt := ⟨0⟩

def siteMilestone : Milestone :=
  ⟨.ofNat 4, siteJob.id, "Draft", "", .powerOfTen 2, .submitted, 0, ⟨0⟩, ⟨0⟩⟩

def siteApplication : Application :=
  ⟨.ofNat 5, siteJob.id, bob.id, "", .powerOfTen 2, .accepted, ⟨0⟩, ⟨0⟩⟩

def siteMessage : Message := ⟨.ofNat 6, bob.id, ann.id, some siteJob.id, "Done", false, ⟨0⟩⟩

def siteReview : Review := ⟨.ofNat 7, siteJob.id, ann.id, bob.id, 5, "", ⟨0⟩⟩

/-- A store with the job and all that belongs to it. -/
def siteStore : Store where
  users := [ann, bob]
  jobs := [siteJob]
  milestones := [siteMilestone]
  applications := [siteApplication]
  messages := [siteMessage]
  reviews := [siteReview]

theorem siteStore_sound : siteStore.Sound := by
  have s₁ := Store.addJob_sound (j := siteJob) annAndBob_sound rfl
  have s₂ := @Store.addMilestones_sound _ _ [siteMilestone] s₁ rfl
  have s₃ := Store.addApplication_sound (a := siteApplication) s₂ rfl
  have s₄ := Store.addMessage_sound (m := siteMessage) s₃ rfl
  exact Store.addReview_sound (r := siteReview) s₄ rfl

def annToken : String :=
  String.ofList (plain.tokens.sign ⟨ann.id, "0xa", "CLIENT", "issuer", "audience", 0, 3600⟩)

def removal : Request where
  method := .delete
  target := "/api/jobs/00000000-0000-0000-0000-000000000003"
  headers := [("authorization", "Bearer " ++ annToken)]
  body := []

theorem removal_known : plain.identify firstMoment.now removal = .ok ⟨ann.id, "0xa", "CLIENT"⟩ := by
  apply identify_of_sign (c := ⟨ann.id, "0xa", "CLIENT", "issuer", "audience", 0, 3600⟩)
  · exact ⟨by decide, by decide⟩
  · rfl
  · simp [removal, annToken, Http.Headers.first?]

theorem removal_asked :
    plain.asked? firstMoment.now removal = some (.removeJob ann.id siteJob.id) := by
  have path : Http.Resource.ofPath? removal.path =
      some (.job "00000000-0000-0000-0000-000000000003".toList) := by
    decide +kernel
  have found : (Text.Utf8.decode? (Text.Percent.decode (Text.Utf8.encode
      "00000000-0000-0000-0000-000000000003".toList))).bind Uuid.ofChars? = some siteJob.id := by
    decide +kernel
  refine asked?_eq_some_iff.mpr ⟨_, .remove, path, rfl, ?_⟩
  simp only [Http.Resource.callFor?, removal_known, Http.pathId, found]
  rfl

theorem constraints_survive_removal :
    siteStore.Constrained ∧
      (plain.run [(firstMoment, secondName), (firstMoment, removal)] siteStore).Constrained ∧
      plain.run [(firstMoment, secondName), (firstMoment, removal)] siteStore =
        { siteStore with
          jobs := []
          milestones := []
          applications := []
          messages := [{ siteMessage with jobId := none }]
          reviews := [] } := by
  have after := constraints_survive_runs plain siteStore siteStore_sound.constrained
    [(firstMoment, secondName), (firstMoment, removal)]
  have refused : (plain.handle firstMoment secondName siteStore).2 = siteStore := by decide +kernel
  refine ⟨siteStore_sound.constrained, after, ?_⟩
  rw [run, refused, run, (handle_of_asked removal_asked).1]
  rfl

end Server

end GigBoard
