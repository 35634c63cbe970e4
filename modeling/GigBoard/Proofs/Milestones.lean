import GigBoard.Proofs.History
import Mathlib.Data.List.Induction

/-!
# The life of milestones

A milestone is planned together with its job, under the next free place, and from then on only its
state changes: the freelancer works on it and submits it, the client approves or rejects it, each while
the job is in progress.  `MilestonesBecome` tells once what a call can make of the milestones; what
lasts over whole runs follows from it, up to the two different users behind every approval.
-/

set_option autoImplicit false

namespace GigBoard

open Delivery (Milestone)
open Hiring (Job)
open Http (Request)
open Store (Coherent movedRow)

/-! ## What one call makes of the milestones -/

variable {ctx : Context} {s s' : Store} {call : Call}

/-- All that a call can make of the milestones, with what was checked on the way. -/
inductive MilestonesBecome (ctx : Context) (s : Store) : Call → Store → Prop where
  | same {call : Call} {s' : Store} (unchanged : s'.milestones = s.milestones) :
      MilestonesBecome ctx s call s'
  | planned {call : Call} {s' : Store} {job : Job} {ms : List Milestone}
      (unknown : ∀ k ∈ s.jobs, k.id ≠ job.id) (its : ∀ m ∈ ms, m.jobId = job.id)
      (places : ms.map Milestone.order = (List.range ms.length).map Int.ofNat)
      (pending : ∀ m ∈ ms, m.status = .pending)
      (fresh : ∀ m ∈ ms, ∀ o ∈ s.milestones, o.id ≠ m.id)
      (added : s'.milestones = s.milestones ++ ms) : MilestonesBecome ctx s call s'
  | dropped {call : Call} {s' : Store} {id : Uuid}
      (left : s'.milestones = s.milestones.filter (·.jobId ≠ id)) : MilestonesBecome ctx s call s'
  | moved {s' : Store} {caller : Uuid} {form : Hiring.StatusForm} {target : MilestoneStatus}
      {m : Milestone} {job : Job} {party : Party}
      (asked : Delivery.statusOfForm form = .ok target) (member : m ∈ s.milestones)
      (of : s.FindsJob m.jobId job) (side : job.party? caller = some party)
      (running : job.status = .inProgress) (allowed : m.status.mayBecome party target = true)
      (set : s'.milestones = s.milestones.map (movedRow m.id target ctx.now)) :
      MilestonesBecome ctx s (.moveMilestone caller m.id form) s'

theorem Effect.milestonesBecome (effect : Effect ctx s call s') :
    MilestonesBecome ctx s call s' := by
  cases effect with
  | nothing => exact .same rfl
  | registered _ added =>
      obtain ⟨_, _, rfl⟩ := Store.addUser_ok added
      exact .same rfl
  | accountChanged _ _ replaced =>
      obtain ⟨_, _, rfl⟩ := Store.replaceUser_ok replaced
      exact .same rfl
  | jobPosted made added planned =>
      obtain ⟨_, unknown, _, _, rfl⟩ := Store.addJob_ok added
      obtain ⟨_, apart, _, _, rfl⟩ := Store.addMilestones_ok planned
      have makes := Hiring.JobForm.toRows_eq_ok_iff.mp made
      refine .planned unknown makes.its makes.places makes.pending ?_ rfl
      intro m hm o ho
      exact (Store.milestonesClash_eq_false.mp (apart m hm o ho)).1.symm
  | jobChanged _ _ _ replaced =>
      obtain ⟨_, rfl⟩ := Store.replaceJob_ok replaced
      exact .same rfl
  | jobRemoved _ _ removed =>
      obtain ⟨_, rfl⟩ := Store.removeJob_ok removed
      exact .dropped rfl
  | applied _ _ _ added =>
      obtain ⟨_, _, _, _, rfl⟩ := Store.addApplication_ok added
      exact .same rfl
  | rejected _ _ _ _ _ set =>
      cases Store.setApplicationStatus_ok set
      exact .same rfl
  | accepted _ _ _ _ _ set assigned =>
      cases Store.setApplicationStatus_ok set
      obtain ⟨_, _, rfl⟩ := Store.assignJob_ok assigned
      exact .same rfl
  | milestoneMoved asked found of side running allowed set =>
      cases Store.setMilestoneStatus_ok set
      cases Rows.key_of_found found
      exact .moved asked (Rows.mem_of_found found) of side running allowed rfl
  | reviewed _ _ _ added =>
      obtain ⟨_, _, _, _, _, rfl⟩ := Store.addReview_ok added
      exact .same rfl
  | messageSent _ added =>
      obtain ⟨_, _, _, _, _, rfl⟩ := Store.addMessage_ok added
      exact .same rfl
  | threadRead marked =>
      obtain ⟨_, rfl⟩ := Store.markRead_ok marked
      exact .same rfl
  | messageRead marked =>
      obtain ⟨_, rfl⟩ := Store.markRead_ok marked
      exact .same rfl

/-! ## Places -/

/-- The places of the milestones of a job, in the order in which they were planned. -/
def Store.placesOf (s : Store) (job : Uuid) : List Int :=
  (s.milestones.filter (·.jobId = job)).map Milestone.order

def Store.Counted (s : Store) : Prop :=
  ∀ job, ∃ n, s.placesOf job = (List.range n).map Int.ofNat

theorem MilestonesBecome.counted (become : MilestonesBecome ctx s call s') (sound : s.Sound)
    (counted : s.Counted) : s'.Counted := by
  intro job
  obtain ⟨n, before⟩ := counted job
  unfold Store.placesOf at before ⊢
  cases become with
  | same unchanged =>
      rw [unchanged]
      exact ⟨n, before⟩
  | @planned _ _ new ms unknown its places _ _ added =>
      rw [added, List.filter_append, List.map_append]
      by_cases same : new.id = job
      · -- The job is new, so all its milestones are those that come with it.
        have noneBefore : s.milestones.filter (·.jobId = job) = [] := by
          rw [List.filter_eq_nil_iff]
          intro m hm isIts
          obtain ⟨k, hk, of⟩ := (s.hasJob_iff m.jobId).mp (sound.linked.milestoneJob m hm)
          exact unknown k hk (of.trans ((of_decide_eq_true isIts).trans same.symm))
        have allNew : ms.filter (·.jobId = job) = ms := by
          rw [List.filter_eq_self]
          intro m hm
          simp [its m hm, same]
        rw [noneBefore, allNew, places]
        exact ⟨ms.length, rfl⟩
      · have noneNew : ms.filter (·.jobId = job) = [] := by
          rw [List.filter_eq_nil_iff]
          intro m hm
          simp [its m hm, same]
        rw [noneNew, before]
        exact ⟨n, by simp⟩
  | @dropped _ _ id left =>
      rw [left, List.filter_filter]
      by_cases same : job = id
      · refine ⟨0, ?_⟩
        have none : s.milestones.filter (fun m => decide (m.jobId = job) && decide (m.jobId ≠ id))
            = [] := by
          rw [List.filter_eq_nil_iff]
          intro m _
          simp [same]
        rw [none]
        rfl
      · refine ⟨n, before ▸ congrArg _ (List.filter_congr ?_)⟩
        intro m _
        by_cases isIts : m.jobId = job
        · simp [isIts, same]
        · simp [isIts]
  | @moved _ _ _ target m _ _ _ _ _ _ _ _ set =>
      have keeps : ∀ o : Milestone, (movedRow m.id target ctx.now o).jobId = o.jobId ∧
          (movedRow m.id target ctx.now o).order = o.order := by
        intro o
        unfold movedRow
        split <;> exact ⟨rfl, rfl⟩
      refine ⟨n, ?_⟩
      rw [set, List.filter_map, List.map_map, ← before]
      simp only [Function.comp_def, (keeps _).1, (keeps _).2]

/-! ## Moves -/

theorem Hiring.Job.party?_eq {job : Job} {user : Uuid} {party : Party}
    (side : job.party? user = some party) :
    (party = .client ∧ job.clientId = user) ∨
      (party = .freelancer ∧ job.freelancerId = some user) := by
  unfold party? at side
  split at side
  · rename_i isClient
    exact .inl ⟨(Option.some.inj side).symm, isClient⟩
  · split at side
    · rename_i isFreelancer
      exact .inr ⟨(Option.some.inj side).symm, isFreelancer⟩
    · cases side

/-- A milestone is moved by a party to its job, which is in progress. -/
structure Store.Moves (s : Store) (user : Uuid) (party : Party) (job : Job) (m m' : Milestone) :
    Prop where
  member : job ∈ s.jobs
  of : job.id = m.jobId
  side : job.party? user = some party
  running : job.status = .inProgress
  allowed : m.status.mayBecome party m'.status = true
  rest : m' = { m with status := m'.status, updatedAt := m'.updatedAt }

theorem MilestonesBecome.eq_or_moved {m m' : Milestone} (become : MilestonesBecome ctx s call s')
    (sound : s.Sound) (hm : m ∈ s.milestones) (hm' : m' ∈ s'.milestones) (same : m'.id = m.id) :
    m' = m ∨ ∃ user form party job, call = .moveMilestone user m.id form ∧
      Delivery.statusOfForm form = .ok m'.status ∧ s.Moves user party job m m' := by
  have unique := sound.keyed.milestoneId
  cases become with
  | same unchanged =>
      rw [unchanged] at hm'
      exact .inl (unique.eq_of_same hm' hm same)
  | planned _ _ _ _ fresh added =>
      rw [added] at hm'
      rcases List.mem_append.mp hm' with hm' | hm'
      · exact .inl (unique.eq_of_same hm' hm same)
      · exact absurd same.symm (fresh m' hm' m hm)
  | dropped left =>
      rw [left] at hm'
      exact .inl (unique.eq_of_same (List.mem_filter.mp hm').1 hm same)
  | @moved _ user form target o job party asked member of side running allowed set =>
      rw [set] at hm'
      obtain ⟨q, hq, rfl⟩ := List.mem_map.mp hm'
      rw [Store.movedRow_id] at same
      have isM : q = m := unique.eq_of_same hq hm same
      subst isM
      by_cases isO : q.id = o.id
      · have isIt : q = o := unique.eq_of_same hq member isO
        subst isIt
        right
        refine ⟨user, form, party, job, rfl, ?_, of.mem, of.id_eq, side, running, ?_, ?_⟩
        · rw [movedRow, if_pos rfl]
          exact asked
        · rw [movedRow, if_pos rfl]
          exact allowed
        · rw [movedRow, if_pos rfl]
      · left
        rw [movedRow, if_neg isO]

theorem MilestonesBecome.new_pending {m' : Milestone} (become : MilestonesBecome ctx s call s')
    (hm' : m' ∈ s'.milestones) (new : ∀ m ∈ s.milestones, m.id ≠ m'.id) : m'.status = .pending := by
  cases become with
  | same unchanged =>
      rw [unchanged] at hm'
      exact absurd rfl (new m' hm')
  | planned _ _ _ pending _ added =>
      rw [added] at hm'
      rcases List.mem_append.mp hm' with hm' | hm'
      · exact absurd rfl (new m' hm')
      · exact pending m' hm'
  | dropped left =>
      rw [left] at hm'
      exact absurd rfl (new m' (List.mem_filter.mp hm').1)
  | moved _ _ _ _ _ _ set =>
      rw [set] at hm'
      obtain ⟨q, hq, rfl⟩ := List.mem_map.mp hm'
      exact absurd (Store.movedRow_id _ _ _ q).symm (new q hq)

/-- What lasts of the milestones when a request of some caller leads from one store to another: they
keep what they are about, go only with their job, and change their state only while the job is in
progress, by moves of its freelancer and of its client. -/
structure Store.MilestonesLeadTo (caller : Option Uuid) (s s' : Store) : Prop where
  kept : ∀ m ∈ s.milestones, ∀ m' ∈ s'.milestones, m'.id = m.id →
    m'.jobId = m.jobId ∧ m'.title = m.title ∧ m'.description = m.description ∧
      m'.amount = m.amount ∧ m'.order = m.order
  gone : ∀ m ∈ s.milestones, (∀ m' ∈ s'.milestones, m'.id ≠ m.id) →
    s.hasJob m.jobId = true ∧ s'.hasJob m.jobId = false
  moved : ∀ m ∈ s.milestones, ∀ m' ∈ s'.milestones, m'.id = m.id → m'.status = m.status ∨
    ∃ j ∈ s.jobs, j.id = m.jobId ∧ j.status = .inProgress ∧
      ((caller ≠ none ∧ caller = j.freelancerId ∧
          ((m.status = .pending ∧ m'.status = .inProgress) ∨
            (m.status = .inProgress ∧ m'.status = .submitted) ∨
            (m.status = .rejected ∧ m'.status = .inProgress))) ∨
        (caller = some j.clientId ∧
          ((m.status = .submitted ∧ m'.status = .approved) ∨
            (m.status = .submitted ∧ m'.status = .rejected))))

theorem MilestoneStatus.freelancers_moves {source target : MilestoneStatus}
    (allowed : source.mayBecome .freelancer target = true) :
    (source = .pending ∧ target = .inProgress) ∨ (source = .inProgress ∧ target = .submitted) ∨
      (source = .rejected ∧ target = .inProgress) := by
  cases source <;> cases target <;> simp_all [mayBecome]

theorem MilestoneStatus.clients_moves {source target : MilestoneStatus}
    (allowed : source.mayBecome .client target = true) :
    (source = .submitted ∧ target = .approved) ∨ (source = .submitted ∧ target = .rejected) := by
  cases source <;> cases target <;> simp_all [mayBecome]

theorem MilestoneStatus.of_mayBecome_submitted {party : Party} {source : MilestoneStatus}
    (allowed : source.mayBecome party .submitted = true) :
    party = .freelancer ∧ source = .inProgress := by
  cases party <;> cases source <;> simp_all [mayBecome]

theorem MilestoneStatus.of_mayBecome_approved {party : Party} {source : MilestoneStatus}
    (allowed : source.mayBecome party .approved = true) :
    party = .client ∧ source = .submitted := by
  cases party <;> cases source <;> simp_all [mayBecome]

namespace Server

variable {r : Request} {server : Server}

structure Moved (server : Server) (step : Context × Request) (s : Store) (user id : Uuid)
    (source target : MilestoneStatus) : Prop where
  asked : ∃ form, server.asked? step.1.now step.2 = some (.moveMilestone user id form) ∧
    Delivery.statusOfForm form = .ok target
  before : ∃ m ∈ s.milestones, m.id = id ∧ m.status = source
  after : ∃ m ∈ (server.handle step.1 step.2 s).2.milestones, m.id = id ∧ m.status = target

theorem handle_counted (server : Server) (ctx : Context) (r : Request) (sound : s.Sound)
    (counted : s.Counted) : (server.handle ctx r s).2.Counted := by
  rcases server.handle_effect ctx r s with same | ⟨call, _, effect⟩
  · rw [same]
    exact counted
  · exact effect.milestonesBecome.counted sound counted

theorem handle_eq_or_moved {m m' : Milestone} (sound : s.Sound) (hm : m ∈ s.milestones)
    (hm' : m' ∈ (server.handle ctx r s).2.milestones) (same : m'.id = m.id) :
    m' = m ∨ ∃ user party job, server.caller? ctx.now r = some user ∧
      server.Moved (ctx, r) s user m.id m.status m'.status ∧ s.Moves user party job m m' := by
  rcases server.handle_effect ctx r s with unchanged | ⟨call, asked, effect⟩
  · rw [unchanged] at hm'
    exact .inl (sound.keyed.milestoneId.eq_of_same hm' hm same)
  · rcases effect.milestonesBecome.eq_or_moved sound hm hm' same with
      isM | ⟨user, form, party, job, rfl, wanted, moves⟩
    · exact .inl isM
    · right
      refine ⟨user, party, job, caller?_of_asked asked rfl, ?_, moves⟩
      exact ⟨⟨form, asked, wanted⟩, ⟨m, hm, rfl, rfl⟩, ⟨m', hm', same, rfl⟩⟩

theorem handle_new_pending {m' : Milestone} (hm' : m' ∈ (server.handle ctx r s).2.milestones)
    (new : ∀ m ∈ s.milestones, m.id ≠ m'.id) : m'.status = .pending := by
  rcases server.handle_effect ctx r s with unchanged | ⟨call, _, effect⟩
  · rw [unchanged] at hm'
    exact absurd rfl (new m' hm')
  · exact effect.milestonesBecome.new_pending hm' new

theorem handle_milestonesLeadTo (server : Server) (ctx : Context) (r : Request)
    (sound : s.Sound) :
    s.MilestonesLeadTo (server.caller? ctx.now r) (server.handle ctx r s).2 where
  kept m hm m' hm' same := by
    rcases handle_eq_or_moved sound hm hm' same with unchanged | ⟨_, _, _, _, _, moves⟩
    · rw [unchanged]
      exact ⟨rfl, rfl, rfl, rfl, rfl⟩
    · rw [moves.rest]
      exact ⟨rfl, rfl, rfl, rfl, rfl⟩
  gone m hm lost := by
    obtain ⟨noJob, _⟩ := (server.handle_differences ctx r sound).milestones.removed m hm lost
    exact ⟨sound.linked.milestoneJob m hm, noJob⟩
  moved m hm m' hm' same := by
    rcases handle_eq_or_moved sound hm hm' same with
      unchanged | ⟨user, party, job, isCaller, _, moves⟩
    · rw [unchanged]
      exact .inl rfl
    · refine .inr ⟨job, moves.member, moves.of, moves.running, ?_⟩
      have allowed := moves.allowed
      rcases Hiring.Job.party?_eq moves.side with ⟨rfl, isClient⟩ | ⟨rfl, isFreelancer⟩
      · rw [isCaller, isClient]
        exact .inr ⟨rfl, MilestoneStatus.clients_moves allowed⟩
      · rw [isCaller, isFreelancer]
        exact .inl ⟨Option.some_ne_none user, rfl, MilestoneStatus.freelancers_moves allowed⟩

/-! ## Runs -/

theorem run_counted (server : Server) (steps : List (Context × Request)) :
    (server.run steps .empty).Counted := by
  have both := server.run_keeps (p := fun t => t.Sound ∧ t.Counted) ?_ steps (s := .empty)
    ⟨Store.empty_sound, fun _ => ⟨0, rfl⟩⟩
  · exact both.2
  · rintro ctx r t ⟨sound, counted⟩
    exact ⟨server.handle_sound ctx r sound, server.handle_counted ctx r sound counted⟩

/-- A milestone belongs to a job of two users, who stay the same as long as it is there. -/
def PartiesOf (s : Store) (m : Milestone) (client freelancer : Uuid) : Prop :=
  ∃ j ∈ s.jobs, j.id = m.jobId ∧ j.clientId = client ∧ j.freelancerId = some freelancer

theorem handle_partiesOf {m m' : Milestone} {c f : Uuid} (coherent : s.Coherent)
    (parties : PartiesOf s m c f) (hm' : m' ∈ (server.handle ctx r s).2.milestones)
    (same : m'.jobId = m.jobId) : PartiesOf (server.handle ctx r s).2 m' c f := by
  obtain ⟨j, hj, isIts, isClient, assigned⟩ := parties
  have after := server.handle_coherent ctx r coherent
  have leads := server.handle_leadsTo ctx r coherent
  obtain ⟨j', hj', isIts'⟩ :=
    (Store.hasJob_iff _ m'.jobId).mp (after.sound.linked.milestoneJob m' hm')
  have sameJob : j'.id = j.id := by rw [isIts', same, isIts]
  refine ⟨j', hj', isIts', ?_, ?_⟩
  · rw [(leads.jobKept j hj j' hj' sameJob).1]
    exact isClient
  · rcases leads.jobAssigned j hj j' hj' sameJob with ⟨stays, _⟩ | ⟨_, free, _⟩
    · rw [stays]
      exact assigned
    · rw [assigned] at free
      cases free

theorem partiesOf_of_moves {user : Uuid} {party : Party} {job : Job} {m m' : Milestone}
    (coherent : s.Coherent) (moves : s.Moves user party job m m') :
    ∃ f, PartiesOf s m job.clientId f := by
  have taken := coherent.agreed.inProgress job moves.member moves.running
  obtain ⟨f, assigned⟩ := Option.ne_none_iff_exists'.mp taken
  exact ⟨f, job, moves.member, moves.of, rfl, assigned⟩

/-- Nobody works for themselves. -/
theorem ne_of_partiesOf {m : Milestone} {c f : Uuid} (coherent : s.Coherent)
    (parties : PartiesOf s m c f) : f ≠ c := by
  obtain ⟨j, hj, _, isClient, assigned⟩ := parties
  obtain ⟨a, ha, of, by_, _⟩ := (coherent.agreed.assigned j hj f).mp assigned
  rw [← by_, ← isClient]
  exact coherent.agreed.others j hj a ha of

theorem run_append_one (server : Server) (steps : List (Context × Request))
    (step : Context × Request) :
    server.run (steps ++ [step]) .empty =
      (server.handle step.1 step.2 (server.run steps .empty)).2 := by
  rw [run_append]
  rfl

/-- A milestone found after one more request is new and pending, or was there before and is the same
or moved by this request. -/
theorem milestone_before {steps : List (Context × Request)} {step : Context × Request}
    {m' : Milestone} (hm' : m' ∈ (server.run (steps ++ [step]) .empty).milestones) :
    m'.status = .pending ∨ ∃ m ∈ (server.run steps .empty).milestones, m'.id = m.id ∧
      (∀ c f, PartiesOf (server.run steps .empty) m c f →
        PartiesOf (server.run (steps ++ [step]) .empty) m' c f) ∧
      (m'.status = m.status ∨ ∃ user party job,
        server.Moved step (server.run steps .empty) user m.id m.status m'.status ∧
          (server.run steps .empty).Moves user party job m m') := by
  have coherent := server.run_coherent steps
  rw [run_append_one] at hm' ⊢
  by_cases new : ∀ m ∈ (server.run steps .empty).milestones, m.id ≠ m'.id
  · exact .inl (handle_new_pending hm' new)
  · push Not at new
    obtain ⟨m, hm, same⟩ := new
    have leads := server.handle_milestonesLeadTo step.1 step.2 coherent.sound
    have sameJob := (leads.kept m hm m' hm' same.symm).1
    refine .inr ⟨m, hm, same.symm, fun c f parties => ?_, ?_⟩
    · exact handle_partiesOf coherent parties hm' sameJob
    · rcases handle_eq_or_moved coherent.sound hm hm' same.symm with
        unchanged | ⟨user, party, job, _, moved, moves⟩
      · exact .inl (congrArg _ unchanged)
      · exact .inr ⟨user, party, job, moved, moves⟩

theorem run_begun (server : Server) (steps : List (Context × Request)) :
    ∀ m ∈ (server.run steps .empty).milestones, m.status ≠ .pending →
      ∃ c f, PartiesOf (server.run steps .empty) m c f := by
  induction steps using List.reverseRecOn with
  | nil =>
      intro m hm
      cases hm
  | append_singleton steps step ih =>
      intro m' hm' begun
      rcases milestone_before hm' with pending | ⟨m, hm, _, stay, same | ⟨_, _, job, _, moves⟩⟩
      · exact absurd pending begun
      · rw [same] at begun
        obtain ⟨c, f, parties⟩ := ih m hm begun
        exact ⟨c, f, stay c f parties⟩
      · obtain ⟨f, parties⟩ := partiesOf_of_moves (server.run_coherent steps) moves
        exact ⟨_, f, stay _ f parties⟩

def SubmittedBy (server : Server) (steps : List (Context × Request)) (id freelancer : Uuid) :
    Prop :=
  ∃ first submit rest, steps = first ++ submit :: rest ∧
    server.Moved submit (server.run first .empty) freelancer id .inProgress .submitted

theorem run_submitted (server : Server) (steps : List (Context × Request)) :
    ∀ m ∈ (server.run steps .empty).milestones, m.status = .submitted →
      ∃ c f, PartiesOf (server.run steps .empty) m c f ∧ server.SubmittedBy steps m.id f := by
  induction steps using List.reverseRecOn with
  | nil =>
      intro m hm
      cases hm
  | append_singleton steps step ih =>
      intro m' hm' submitted
      rcases milestone_before hm' with
        pending | ⟨m, hm, sameId, stay, same | ⟨user, party, job, moved, moves⟩⟩
      · rw [submitted] at pending
        cases pending
      · obtain ⟨c, f, parties, first, submit, rest, isRun, moved⟩ := ih m hm (same ▸ submitted)
        refine ⟨c, f, stay c f parties, first, submit, rest ++ [step], ?_, sameId ▸ moved⟩
        simp [isRun]
      · have allowed := moves.allowed
        rw [submitted] at allowed moved
        obtain ⟨rfl, worked⟩ := MilestoneStatus.of_mayBecome_submitted allowed
        rw [worked] at moved
        rcases Hiring.Job.party?_eq moves.side with ⟨other, _⟩ | ⟨_, isFreelancer⟩
        · cases other
        · refine ⟨job.clientId, user, stay _ _ ?_, steps, step, [], rfl, sameId ▸ moved⟩
          exact ⟨job, moves.member, moves.of, rfl, isFreelancer⟩

/-- Two different users stand behind an approval: the freelancer of the job submitted the milestone,
and later its client approved it. -/
def ApprovedByTwo (server : Server) (steps : List (Context × Request)) (m : Milestone) : Prop :=
  ∃ c f, f ≠ c ∧ PartiesOf (server.run steps .empty) m c f ∧
    ∃ first submit middle approve last,
      steps = first ++ submit :: (middle ++ approve :: last) ∧
      server.Moved submit (server.run first .empty) f m.id .inProgress .submitted ∧
      server.Moved approve (server.run (first ++ submit :: middle) .empty) c m.id
        .submitted .approved

theorem run_approved (server : Server) (steps : List (Context × Request)) :
    ∀ m ∈ (server.run steps .empty).milestones, m.status = .approved →
      server.ApprovedByTwo steps m := by
  induction steps using List.reverseRecOn with
  | nil =>
      intro m hm
      cases hm
  | append_singleton steps step ih =>
      intro m' hm' approved
      rcases milestone_before hm' with
        pending | ⟨m, hm, sameId, stay, same | ⟨user, party, job, moved, moves⟩⟩
      · rw [approved] at pending
        cases pending
      · obtain ⟨c, f, different, parties, first, submit, middle, approve, last, isRun, both⟩ :=
          ih m hm (same ▸ approved)
        refine ⟨c, f, different, stay c f parties, first, submit, middle, approve, last ++ [step],
          ?_, sameId ▸ both⟩
        simp [isRun]
      · have allowed := moves.allowed
        rw [approved] at allowed moved
        have coherent := server.run_coherent steps
        obtain ⟨rfl, handedIn⟩ := MilestoneStatus.of_mayBecome_approved allowed
        rw [handedIn] at moved
        rcases Hiring.Job.party?_eq moves.side with ⟨_, isClient⟩ | ⟨other, _⟩
        · obtain ⟨c, f, parties, first, submit, middle, isRun, before⟩ :=
            server.run_submitted steps m hm handedIn
          -- The client who approves is that of the job found when the milestone was submitted.
          have ⟨j, hj, isIts, ownedBy, _⟩ := parties
          have isJob : j = job := by
            apply coherent.sound.keyed.jobId.eq_of_same hj moves.member
            rw [isIts, moves.of]
          have isUser : user = c := by rw [← isClient, ← isJob, ownedBy]
          subst isUser
          refine ⟨user, f, ne_of_partiesOf coherent parties, stay _ _ parties, first, submit, middle,
            step, [], ?_, sameId ▸ before, ?_⟩
          · simp [isRun]
          · rw [← isRun]
            exact sameId ▸ moved
        · cases other

/-- As long as its job is there, so is a milestone, with all but its state as planned; an approved one
stays altogether as it is. -/
theorem run_keeps_milestone {steps : List (Context × Request)} {m : Milestone}
    (coherent : s.Coherent) (kept : server.KeepsJob steps s m.jobId) (hm : m ∈ s.milestones) :
    ∃ m' ∈ (server.run steps s).milestones, m'.id = m.id ∧ m'.jobId = m.jobId ∧
      m'.title = m.title ∧ m'.description = m.description ∧ m'.amount = m.amount ∧
      m'.order = m.order ∧ (m.status = .approved → m' = m) := by
  apply run_keeps_with_job m.jobId (p := fun t => ∃ m' ∈ t.milestones, m'.id = m.id ∧
    m'.jobId = m.jobId ∧ m'.title = m.title ∧ m'.description = m.description ∧
    m'.amount = m.amount ∧ m'.order = m.order ∧ (m.status = .approved → m' = m))
  · rintro ctx r t before _ there ⟨o, ho, sameId, sameJob, same⟩
    have leads := server.handle_milestonesLeadTo ctx r before.sound
    by_cases gone : ∀ m' ∈ (server.handle ctx r t).2.milestones, m'.id ≠ o.id
    · rw [← sameJob, (leads.gone o ho gone).2] at there
      cases there
    · push Not at gone
      obtain ⟨m', hm', stays⟩ := gone
      rcases handle_eq_or_moved before.sound ho hm' stays with
        unchanged | ⟨_, party, _, _, _, moves⟩
      · rw [unchanged] at hm'
        exact ⟨o, hm', sameId, sameJob, same⟩
      · obtain ⟨title, description, amount, order, fixed⟩ := same
        obtain ⟨job', title', description', amount', order'⟩ := leads.kept o ho m' hm' stays
        refine ⟨m', hm', stays.trans sameId, job'.trans sameJob, title'.trans title,
          description'.trans description, amount'.trans amount, order'.trans order, ?_⟩
        intro approved
        have allowed := moves.allowed
        rw [fixed approved, approved] at allowed
        cases party <;> cases allowed
  · exact coherent
  · exact kept
  · exact ⟨m, hm, rfl, rfl, rfl, rfl, rfl, rfl, fun _ => rfl⟩

/-- In every store that the service reaches the milestones of each job are counted from zero without
gap or repetition, and those that were begun belong to an assigned job.  Every request leads on as
told, and so do runs; whatever was approved was submitted by the freelancer of its job before its
client, another user, approved it. -/
theorem milestones_over_runs (server : Server) (past : List (Context × Request)) :
    (∀ j ∈ (server.run past .empty).jobs, ∃ n : Nat,
      (((server.run past .empty).milestones.filter (·.jobId = j.id)).map Milestone.order).Perm
        ((List.range n).map Int.ofNat)) ∧
    (∀ m ∈ (server.run past .empty).milestones, m.status ≠ .pending →
      ∃ j ∈ (server.run past .empty).jobs, j.id = m.jobId ∧ j.freelancerId ≠ none) ∧
    (∀ ctx r, (server.run past .empty).MilestonesLeadTo (server.caller? ctx.now r)
      (server.handle ctx r (server.run past .empty)).2) ∧
    (∀ future, ∀ m ∈ (server.run past .empty).milestones,
      server.KeepsJob future (server.run past .empty) m.jobId →
        ∃ m' ∈ (server.run (past ++ future) .empty).milestones, m'.id = m.id ∧
          m'.jobId = m.jobId ∧ m'.title = m.title ∧ m'.description = m.description ∧
          m'.amount = m.amount ∧ m'.order = m.order ∧ (m.status = .approved → m' = m)) ∧
    (∀ m ∈ (server.run past .empty).milestones, m.status = .approved →
      server.ApprovedByTwo past m) := by
  have coherent := server.run_coherent past
  refine ⟨?_, ?_, ?_, ?_, server.run_approved past⟩
  · intro j _
    obtain ⟨n, places⟩ := server.run_counted past j.id
    exact ⟨n, List.Perm.of_eq places⟩
  · intro m hm begun
    obtain ⟨c, f, j, hj, isIts, _, assigned⟩ := server.run_begun past m hm begun
    exact ⟨j, hj, isIts, by simp [assigned]⟩
  · intro ctx r
    exact server.handle_milestonesLeadTo ctx r coherent.sound
  · intro future m hm kept
    rw [run_append]
    exact run_keeps_milestone coherent kept hm

end Server

end GigBoard
