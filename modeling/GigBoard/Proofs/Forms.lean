import GigBoard.Delivery.Progress
import GigBoard.Messaging.Inbox
import GigBoard.Reputation.Reviewing
import GigBoard.Account.Registration
import GigBoard.Proofs.Rows
import Mathlib.Logic.Basic
import Mathlib.Tactic.ByContra

/-!
# What forms make

A form that is accepted makes rows, a change of a row, or a decision.  Here is what is known of them:
who they belong to, which state new rows begin in, and what was checked on the way.
-/

set_option autoImplicit false

namespace GigBoard

/-- Two steps succeed together only if both succeed. -/
theorem bind_ok {ε α β : Type} {x : Except ε α} {next : α → Except ε β} {b : β}
    (ok : x >>= next = .ok b) : ∃ a, x = .ok a ∧ next a = .ok b := by
  cases x with
  | error e => cases ok
  | ok a => exact ⟨a, rfl, ok⟩

namespace Text

theorem nonBlank?_eq_some_iff {s t : String} : nonBlank? s = some t ↔ trim s = t ∧ t ≠ "" := by
  unfold nonBlank? trim
  cases trimmed s.toList with
  | nil =>
      simp only [reduceCtorEq, false_iff, not_and, not_not]
      exact Eq.symm
  | cons c cs =>
      simp only [Option.some.injEq, iff_self_and]
      rintro rfl empty
      cases (String.toList_ofList (l := c :: cs)).symm.trans (congrArg String.toList empty)

end Text

/-- Only pending applications are decided. -/
theorem ApplicationStatus.pending_of_mayBecome {source target : ApplicationStatus}
    (allowed : source.mayBecome target = true) : source = .pending := by
  cases source with
  | pending => rfl
  | accepted => cases allowed
  | rejected => cases allowed

/-- No move leaves a milestone where it is. -/
theorem MilestoneStatus.ne_of_mayBecome {source target : MilestoneStatus} {party : Party}
    (allowed : source.mayBecome party target = true) : target ≠ source := by
  rintro rfl
  cases party <;> cases target <;> cases allowed

/-- Whoever is on a side of a job is its client or its freelancer. -/
theorem Hiring.Job.party?_some {job : Hiring.Job} {user : Uuid} {party : Party}
    (side : job.party? user = some party) :
    job.clientId = user ∨ job.freelancerId = some user := by
  unfold Job.party? at side
  split at side
  · rename_i isClient
    exact .inl isClient
  · split at side
    · rename_i isFreelancer
      exact .inr isFreelancer
    · cases side

namespace Account

/-- A registration makes a user only of a wallet and a name that are not blank, and of a role. -/
theorem Registration.toUser_parts {form : Registration} {id : Uuid} {now : Timestamp} {u : User}
    (made : form.toUser id now = .ok u) : ∃ wallet username role,
      form.walletAddress.bind Text.nonBlank? = some wallet ∧
      form.username.bind Text.nonBlank? = some username ∧
      u = {
        id := id
        walletAddress := Text.LowerCase.ofString wallet
        username := username
        email := form.email.bind Text.nonBlank?
        bio := form.bio.bind Text.nonBlank?
        avatarUrl := form.avatarUrl.bind Text.nonBlank?
        role := role
        createdAt := now
        updatedAt := now } := by
  simp only [Registration.toUser] at made
  split at made
  · obtain ⟨_, thrown, _⟩ := bind_ok made
    cases thrown
  · rename_i wallet isWallet
    obtain ⟨_, same, made⟩ := bind_ok made
    cases same
    split at made
    · obtain ⟨_, thrown, _⟩ := bind_ok made
      cases thrown
    · rename_i username isUsername
      obtain ⟨_, same, made⟩ := bind_ok made
      cases same
      split at made
      · obtain ⟨_, thrown, _⟩ := bind_ok made
        cases thrown
      · obtain ⟨role, _, made⟩ := bind_ok made
        cases made
        exact ⟨wallet, username, role, isWallet, isUsername, rfl⟩

theorem Registration.toUser_ok {form : Registration} {id : Uuid} {now : Timestamp} {u : User}
    (made : form.toUser id now = .ok u) : u.id = id ∧ u.createdAt = now ∧ u.updatedAt = now := by
  obtain ⟨_, _, _, _, _, rfl⟩ := toUser_parts made
  exact ⟨rfl, rfl, rfl⟩

end Account

namespace Hiring

open Delivery (Milestone)

/-! ## What a form must give -/

/-- A text is given and not blank; the blanks around it are left out. -/
def IsText (given : Option String) (text : String) : Prop :=
  ∃ written, given = some written ∧ Text.trim written = text ∧ text ≠ ""

def IsAmount (given : Option Binary64) (amount : Binary64) : Prop :=
  given = some amount ∧ amount.isPositive = true

theorem requiredText_eq_ok_iff {field text : String} {given : Option String} :
    requiredText field given = .ok text ↔ IsText given text := by
  have left : requiredText field given = .ok text ↔ given.bind Text.nonBlank? = some text := by
    unfold requiredText
    cases given.bind Text.nonBlank? <;> simp
  simp only [left, IsText, Option.bind_eq_some_iff, Text.nonBlank?_eq_some_iff]

theorem positiveAmount_eq_ok_iff {field : String} {given : Option Binary64} {amount : Binary64} :
    positiveAmount field given = .ok amount ↔ IsAmount given amount := by
  unfold positiveAmount IsAmount
  cases given with
  | none => simp
  | some offered =>
      by_cases positive : offered.isPositive = true
      · simp only [if_pos positive, Except.ok.injEq, Option.some.injEq]
        exact ⟨fun same => ⟨same, same ▸ positive⟩, And.left⟩
      · simp only [if_neg positive, reduceCtorEq, Option.some.injEq, false_iff, not_and]
        exact fun same => same ▸ positive

/-! ## Jobs and milestones -/

structure MilestoneForm.Makes (form : MilestoneForm) (key job : Uuid) (place : Nat)
    (now : Timestamp) (m : Milestone) : Prop where
  id : m.id = key
  jobId : m.jobId = job
  title : IsText form.title m.title
  description : m.description = Text.trim (form.description.getD "")
  amount : IsAmount form.amount m.amount
  status : m.status = .pending
  order : m.order = place
  createdAt : m.createdAt = now
  updatedAt : m.updatedAt = now

theorem MilestoneForm.toMilestone_eq_ok_iff {form : MilestoneForm} {key job : Uuid} {place : Nat}
    {now : Timestamp} {m : Milestone} :
    form.toMilestone key job place now = .ok m ↔ form.Makes key job place now m := by
  unfold toMilestone
  constructor
  · intro made
    obtain ⟨title, isTitle, made⟩ := bind_ok made
    obtain ⟨amount, isAmount, made⟩ := bind_ok made
    cases made
    exact ⟨rfl, rfl, requiredText_eq_ok_iff.mp isTitle, rfl, positiveAmount_eq_ok_iff.mp isAmount,
      rfl, rfl, rfl, rfl⟩
  · intro makes
    rw [requiredText_eq_ok_iff.mpr makes.title, positiveAmount_eq_ok_iff.mpr makes.amount]
    cases m
    obtain ⟨rfl, rfl, _, rfl, _, rfl, rfl, created, updated⟩ := makes
    dsimp only at created updated
    rw [created, updated]
    rfl

/-- The milestones of a job, counted on from an order, are made one by one. -/
theorem JobForm.toMilestones_eq_ok_iff {freshId : Nat → Uuid} {job : Uuid} {now : Timestamp}
    {forms : List MilestoneForm} {order : Nat} {ms : List Milestone} :
    toMilestones freshId job now order forms = .ok ms ↔
      List.Forall₂ (fun p m => p.1.Makes (freshId (p.2 + 1)) job p.2 now m) (forms.zipIdx order)
        ms := by
  -- On the forms, while the places are counted on.
  induction forms generalizing order ms with
  | nil =>
      rw [toMilestones, List.zipIdx_nil, List.forall₂_nil_left_iff, Except.ok.injEq]
      exact eq_comm
  | cons form forms ih =>
      rw [toMilestones, List.zipIdx_cons, List.forall₂_cons_left_iff]
      constructor
      · intro made
        obtain ⟨first, isFirst, made⟩ := bind_ok made
        obtain ⟨rest, isRest, made⟩ := bind_ok made
        cases made
        exact ⟨first, rest, MilestoneForm.toMilestone_eq_ok_iff.mp isFirst, ih.mp isRest, rfl⟩
      · rintro ⟨first, rest, isFirst, isRest, rfl⟩
        rw [MilestoneForm.toMilestone_eq_ok_iff.mpr isFirst, ih.mpr isRest]
        rfl

/-- What a form makes of a job and of its milestones, each of which has the place where it stands in
the form. -/
structure JobForm.Makes (form : JobForm) (client : Uuid) (ctx : Context) (job : Job)
    (ms : List Milestone) : Prop where
  id : job.id = ctx.freshId 0
  title : IsText form.title job.title
  description : job.description = Text.trim (form.description.getD "")
  budget : IsAmount form.budget job.budget
  category : IsText form.category job.category
  status : job.status = .opened
  clientId : job.clientId = client
  freelancerId : job.freelancerId = none
  createdAt : job.createdAt = ctx.now
  updatedAt : job.updatedAt = ctx.now
  milestones : List.Forall₂ (fun p m => p.1.Makes (ctx.freshId (p.2 + 1)) job.id p.2 ctx.now m)
    (form.milestones.getD []).zipIdx ms

theorem JobForm.toRows_eq_ok_iff {form : JobForm} {client : Uuid} {ctx : Context} {job : Job}
    {ms : List Milestone} :
    form.toRows client ctx = .ok (job, ms) ↔ form.Makes client ctx job ms := by
  unfold toRows
  constructor
  · intro made
    obtain ⟨title, isTitle, made⟩ := bind_ok made
    obtain ⟨category, isCategory, made⟩ := bind_ok made
    obtain ⟨budget, isBudget, made⟩ := bind_ok made
    obtain ⟨rows, areRows, made⟩ := bind_ok made
    cases made
    exact ⟨rfl, requiredText_eq_ok_iff.mp isTitle, rfl, positiveAmount_eq_ok_iff.mp isBudget,
      requiredText_eq_ok_iff.mp isCategory, rfl, rfl, rfl, rfl, rfl, toMilestones_eq_ok_iff.mp areRows⟩
  · intro makes
    have areRows := toMilestones_eq_ok_iff.mpr makes.milestones
    rw [makes.id] at areRows
    rw [requiredText_eq_ok_iff.mpr makes.title, requiredText_eq_ok_iff.mpr makes.category,
      positiveAmount_eq_ok_iff.mpr makes.budget]
    cases job
    obtain ⟨rfl, _, rfl, _, _, rfl, rfl, rfl, created, updated, _⟩ := makes
    dsimp only at created updated
    rw [created, updated]
    change (toMilestones _ _ _ 0 _ >>= fun _ => _) = _
    rw [areRows]
    rfl

namespace JobForm.Makes

variable {form : JobForm} {client : Uuid} {ctx : Context} {job : Job} {ms : List Milestone}
  (makes : form.Makes client ctx job ms)

include makes

/-- What is asked of each milestone that was sent can be asked of each that is made. -/
theorem forall_forms_iff {p : MilestoneForm → Prop} {q : Milestone → Prop}
    (same : ∀ {f key job place now m}, f.Makes key job place now m → (p f ↔ q m)) :
    (∀ f ∈ form.milestones.getD [], p f) ↔ ∀ m ∈ ms, q m := by
  rw [← Rows.forall_mem_iff_of_forall₂ makes.milestones fun _ _ made => same made]
  conv_lhs => rw [← List.zipIdx_map_fst 0 (form.milestones.getD [])]
  rw [List.forall_mem_map]

theorem isReadable : job.isReadable = ctx.now.isRepresentable := by
  rw [Job.isReadable, makes.createdAt, makes.updatedAt, Bool.and_self]

theorem its : ∀ m ∈ ms, m.jobId = job.id :=
  Rows.forall_mem_of_forall₂ makes.milestones fun _ _ made => made.jobId

theorem milestone_isReadable : ∀ m ∈ ms, m.isReadable = ctx.now.isRepresentable := by
  refine Rows.forall_mem_of_forall₂ makes.milestones fun _ _ made => ?_
  rw [Milestone.isReadable, made.createdAt, made.updatedAt, Bool.and_self]

theorem pending : ∀ m ∈ ms, m.status = .pending :=
  Rows.forall_mem_of_forall₂ makes.milestones fun _ _ made => made.status

theorem length_eq : (form.milestones.getD []).length = ms.length := by
  rw [← makes.milestones.length_eq, List.length_zipIdx]

theorem ids :
    ms.map Milestone.id = (List.range ms.length).map fun place => ctx.freshId (place + 1) := by
  rw [List.range_eq_range', ← makes.length_eq, ← List.zipIdx_map_snd, List.map_map]
  exact (Rows.map_eq_of_forall₂ makes.milestones fun _ _ made => made.id.symm).symm

theorem places : ms.map Milestone.order = (List.range ms.length).map Int.ofNat := by
  rw [List.range_eq_range', ← makes.length_eq, ← List.zipIdx_map_snd, List.map_map]
  exact (Rows.map_eq_of_forall₂ makes.milestones fun _ _ made => made.order.symm).symm

end JobForm.Makes

theorem JobChange.checkStatus_ok {status : Option JobStatus} {j : Job}
    (allowed : checkStatus status j = .ok ()) :
    (status = some .inProgress → j.freelancerId ≠ none) ∧
      (status = some .opened → j.freelancerId = none) := by
  unfold checkStatus at allowed
  split at allowed
  · cases allowed
  · rename_i notStarted
    split at allowed
    · cases allowed
    · rename_i notReopened
      constructor
      · intro starts unassigned
        exact notStarted ⟨starts, unassigned⟩
      · intro opens
        by_contra assigned
        exact notReopened ⟨opens, assigned⟩

theorem JobChange.ofForm_ok {form : JobChangeForm} {j : Job} {change : JobChange}
    (asked : ofForm form j = .ok change) : checkStatus change.status j = .ok () := by
  unfold ofForm at asked
  obtain ⟨title, _, asked⟩ := bind_ok asked
  obtain ⟨category, _, asked⟩ := bind_ok asked
  obtain ⟨budget, _, asked⟩ := bind_ok asked
  obtain ⟨status, _, asked⟩ := bind_ok asked
  obtain ⟨_, allowed, asked⟩ := bind_ok asked
  cases asked
  exact allowed

/-- A changed job has the state that was asked for, or the one it had. -/
theorem JobChange.apply_status (change : JobChange) (j : Job) (now : Timestamp) :
    change.status = some (change.apply j now).status ∨ (change.apply j now).status = j.status := by
  unfold apply
  cases change.status with
  | none => exact .inr rfl
  | some status => exact .inl rfl

theorem checkApplicant_ok {job : Job} {applicant : Uuid}
    (free : checkApplicant job applicant = .ok ()) :
    job.status = .opened ∧ job.clientId ≠ applicant := by
  unfold checkApplicant at free
  split at free
  · cases free
  · rename_i isOpen
    split at free
    · cases free
    · rename_i other
      exact ⟨not_not.mp isOpen, other⟩

end Hiring

theorem Delivery.checkMove_ok {party : Party} {source target : MilestoneStatus}
    (allowed : checkMove party source target = .ok ()) : source.mayBecome party target = true := by
  unfold checkMove at allowed
  split at allowed
  · assumption
  · split at allowed <;> cases allowed

end GigBoard
