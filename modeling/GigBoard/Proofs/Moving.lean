import GigBoard.Proofs.Milestones
import GigBoard.Proofs.Searching
import GigBoard.Proofs.Sending
import GigBoard.Proofs.Submissions

/-!
# Moving milestones

What a request to move a milestone is answered with: it depends on the state of the milestone, on the
state asked for, on the state of the job and on the side of the caller.  Whatever the answer, nothing but
the one milestone changes.
-/

set_option autoImplicit false

namespace GigBoard

open Delivery (Milestone)
open Hiring (Job MilestoneView StatusForm)
open Http (Request)
open Store (movedRow)

variable {ctx : Context} {r : Request} {s s' : Store} {caller id : Uuid} {form : StatusForm}
  {target : MilestoneStatus} {m : Milestone} {j : Job}

/-! ## The moves of each side -/

/-- The freelancer starts a milestone, submits it, and takes it up again when it was rejected; the client
judges it. -/
inductive MilestoneStatus.MoveOf : Party → MilestoneStatus → MilestoneStatus → Prop where
  | start : MoveOf .freelancer .pending .inProgress
  | submit : MoveOf .freelancer .inProgress .submitted
  | resume : MoveOf .freelancer .rejected .inProgress
  | approve : MoveOf .client .submitted .approved
  | reject : MoveOf .client .submitted .rejected

namespace MilestoneStatus

theorem mayBecome_iff_moveOf {party : Party} {source : MilestoneStatus} :
    source.mayBecome party target = true ↔ MoveOf party source target := by
  constructor
  · intro allowed
    cases party with
    | client =>
        rcases clients_moves allowed with ⟨rfl, rfl⟩ | ⟨rfl, rfl⟩
        · exact .approve
        · exact .reject
    | freelancer =>
        rcases freelancers_moves allowed with ⟨rfl, rfl⟩ | ⟨rfl, rfl⟩ | ⟨rfl, rfl⟩
        · exact .start
        · exact .submit
        · exact .resume
  · intro move
    cases move <;> rfl

/-- No move belongs to both sides. -/
theorem MoveOf.not_other {party : Party} {source : MilestoneStatus}
    (move : MoveOf party source target) : ¬MoveOf party.other source target := by
  intro other
  cases move <;> cases other

theorem distinct : Named.Distinct MilestoneStatus := by
  intro status
  cases status <;> rfl

end MilestoneStatus

namespace Hiring.Job

/-- A user is the client of a job or the freelancer that it is assigned to. -/
def IsParty (j : Job) (user : Uuid) : Prop := j.clientId = user ∨ j.freelancerId = some user

def side (j : Job) (user : Uuid) : Party := if j.clientId = user then .client else .freelancer

theorem party?_of_isParty (isParty : j.IsParty caller) : j.party? caller = some (j.side caller) := by
  unfold party? side
  by_cases isClient : j.clientId = caller
  · rw [if_pos isClient, if_pos isClient]
  · rw [if_neg isClient, if_neg isClient, if_pos (isParty.resolve_left isClient)]

theorem party?_of_stranger (stranger : ¬j.IsParty caller) : j.party? caller = none := by
  unfold party?
  rw [if_neg fun isClient => stranger (.inl isClient),
    if_neg fun isFreelancer => stranger (.inr isFreelancer)]

end Hiring.Job

/-! ## What a form asks for -/

namespace Delivery

theorem statusOfForm_of_names (names : form.Names target) : statusOfForm form = .ok target := by
  obtain ⟨text, given, named⟩ := names
  have read := (MilestoneStatus.distinct.read_eq_ok_iff target text).mpr named.symm
  rw [statusOfForm, given]
  dsimp only
  rw [read]
  rfl

theorem statusOfForm_of_unnamed (unnamed : ∀ target : MilestoneStatus, ¬form.Names target) :
    ∃ f, statusOfForm form = .error f ∧ f.problem.status = 400 := by
  unfold statusOfForm
  cases given : form.status with
  | none => exact ⟨_, rfl, rfl⟩
  | some text =>
      dsimp only
      cases read : (Named.read text : Except UnknownName MilestoneStatus) with
      | error name => exact ⟨_, rfl, rfl⟩
      | ok target =>
          have named := (MilestoneStatus.distinct.read_eq_ok_iff target text).mp read
          exact absurd ⟨text, given, named.symm⟩ (unnamed target)

/-- Of the moves that are not the party's own, those of the other side are forbidden. -/
theorem checkMove_eq (party : Party) (source target : MilestoneStatus) :
    (MilestoneStatus.MoveOf party source target → checkMove party source target = .ok ()) ∧
    (MilestoneStatus.MoveOf party.other source target →
      checkMove party source target = .error (.otherPartysMove source target)) ∧
    (¬MilestoneStatus.MoveOf party source target →
      ¬MilestoneStatus.MoveOf party.other source target →
        checkMove party source target = .error (.impossibleMove source target)) := by
  simp only [← MilestoneStatus.mayBecome_iff_moveOf, checkMove]
  refine ⟨fun own => if_pos own, fun others => ?_, fun notOwn notOthers => ?_⟩
  · have notOwn : ¬source.mayBecome party target = true := by
      rw [MilestoneStatus.mayBecome_iff_moveOf] at others ⊢
      exact fun own => own.not_other others
    rw [if_neg notOwn, if_pos others]
  · rw [if_neg notOwn, if_neg notOthers]

end Delivery

/-! ## Loading a milestone -/

namespace Store

structure FindsMilestone (s : Store) (id : Uuid) (m : Milestone) (j : Job) : Prop where
  milestone : s.milestones.find? (fun o => decide (o.id = id)) = some m
  job : s.FindsJob m.jobId j

theorem FindsMilestone.of_mem (sound : s.Sound) (hm : m ∈ s.milestones) (hj : j ∈ s.jobs)
    (of : j.id = m.jobId) : s.FindsMilestone m.id m j :=
  ⟨sound.keyed.milestoneId.find?_eq hm rfl, sound.keyed.jobId.find?_eq hj of⟩

theorem FindsMilestone.readPair_eq (finds : s.FindsMilestone id m j) :
    milestoneWithJob? id s =
      if m.isReadable && j.isReadable then .ok (some (m, j)) else .error .unreadable :=
  readPair_of_found finds.milestone finds.job

theorem milestoneWithJob?_of_missing (missing : ∀ m ∈ s.milestones, m.id ≠ id) :
    milestoneWithJob? id s = .ok none := by
  have nothing : s.milestones.find? (fun m => decide (m.id = id)) = none := by
    rw [List.find?_eq_none]
    intro m hm same
    exact missing m hm (of_decide_eq_true same)
  rw [milestoneWithJob?, nothing]
  rfl

def withMilestoneMoved (s : Store) (id : Uuid) (target : MilestoneStatus) (now : Timestamp) : Store :=
  { s with milestones := s.milestones.map (movedRow id target now) }

theorem FindsMilestone.moved (finds : s.FindsMilestone id m j) (target : MilestoneStatus)
    (now : Timestamp) :
    (s.withMilestoneMoved id target now).milestones.find? (fun o => decide (o.id = id)) =
      some { m with status := target, updatedAt := now } := by
  have again := Rows.find?_map_update Milestone.id _ (movedRow_id id target now) finds.milestone
  rw [movedRow, if_pos (Rows.key_of_found finds.milestone)] at again
  exact again

end Store

/-! ## Moving it -/

namespace Delivery

theorem move_of_missing (missing : ∀ m ∈ s.milestones, m.id ≠ id) :
    move caller id target ctx s = (.error (.missing "milestone"), s) :=
  Action.bind_of_ok (Action.query_of_ok (Store.milestoneWithJob?_of_missing missing))

theorem move_of_unreadable (finds : s.FindsMilestone id m j)
    (unreadable : ¬(m.isReadable = true ∧ j.isReadable = true)) :
    move caller id target ctx s = (.error (.store .unreadable), s) := by
  have failed := finds.readPair_eq
  rw [if_neg (by rwa [Bool.and_eq_true])] at failed
  apply Action.bind_of_error
  rw [Action.query, failed]

section Loaded

variable (loaded : Store.milestoneWithJob? id s = .ok (some (m, j)))

include loaded

theorem move_of_stranger (stranger : ¬j.IsParty caller) :
    move caller id target ctx s = (.error .notParticipant, s) := by
  refine (Action.bind_of_ok (Action.query_of_ok loaded)).trans ?_
  refine (Action.bind_of_ok rfl).trans ?_
  apply Action.bind_of_error
  rw [Job.party?_of_stranger stranger]
  rfl

variable (isParty : j.IsParty caller)

include isParty

theorem move_of_party :
    move caller id target ctx s =
      (Action.require (j.status = .inProgress) .jobNotInProgress >>= fun _ =>
        Action.ofExcept (checkMove (j.side caller) m.status target) >>= fun _ =>
          Action.context >>= fun ctx =>
            Action.change (Store.setMilestoneStatus id target ctx.now) .store >>= fun _ =>
              Action.query (Store.milestone? id) >>= Action.expect (.store .noRow)) ctx s := by
  refine (Action.bind_of_ok (Action.query_of_ok loaded)).trans ?_
  refine (Action.bind_of_ok rfl).trans ?_
  refine Action.bind_of_ok ?_
  rw [Job.party?_of_isParty isParty]
  rfl

theorem move_of_idle (idle : j.status ≠ .inProgress) :
    move caller id target ctx s = (.error .jobNotInProgress, s) := by
  rw [move_of_party loaded isParty]
  exact Action.bind_of_error (Action.require_of_false (decide_eq_false idle))

variable (running : j.status = .inProgress)

include running

theorem move_of_refused {f : Failure}
    (refused : checkMove (j.side caller) m.status target = .error f) :
    move caller id target ctx s = (.error f, s) := by
  rw [move_of_party loaded isParty,
    Action.bind_of_ok (Action.require_of_true (decide_eq_true running)), refused]
  exact Action.bind_of_error rfl

/-- A move that is allowed is made, and fails only if its time cannot be read back. -/
theorem move_of_allowed (finds : s.FindsMilestone id m j) (readable : m.isReadable = true)
    (allowed : checkMove (j.side caller) m.status target = .ok ()) :
    move caller id target ctx s =
      if ctx.now.isRepresentable then
        (.ok { m with status := target, updatedAt := ctx.now },
          s.withMilestoneMoved id target ctx.now)
      else (.error (.store .unreadable), s.withMilestoneMoved id target ctx.now) := by
  have found := finds.moved target ctx.now
  have times : ({ m with status := target, updatedAt := ctx.now } : Milestone).isReadable =
      ctx.now.isRepresentable := by
    rw [Milestone.isReadable, Bool.and_eq_true] at readable
    rw [Milestone.isReadable, readable.1, Bool.true_and]
  have reread : Store.milestone? id (s.withMilestoneMoved id target ctx.now) =
      if ctx.now.isRepresentable then .ok (some { m with status := target, updatedAt := ctx.now })
      else .error .unreadable := by
    rw [Store.milestone?, found, Store.readRow, Option.all_some, times]
  rw [move_of_party loaded isParty,
    Action.bind_of_ok (Action.require_of_true (decide_eq_true running)), allowed]
  refine (Action.bind_of_ok rfl).trans ((Action.bind_of_ok rfl).trans ?_)
  have moved : Action.change (Store.setMilestoneStatus id target ctx.now) .store ctx s =
      (.ok (), s.withMilestoneMoved id target ctx.now) := rfl
  refine (Action.bind_of_ok moved).trans ?_
  split
  · rename_i timely
    rw [if_pos timely] at reread
    exact Action.bind_of_ok (Action.query_of_ok reread)
  · rename_i late
    rw [if_neg late] at reread
    apply Action.bind_of_error
    rw [Action.query, reread]

end Loaded

/-! ## The whole request -/

section Asked

variable (names : form.Names target)

include names

theorem moveMilestone_of_lost (lost : ctx.connected = false) :
    moveMilestone caller id form ctx s = (.error (.store .unavailable), s) := by
  rw [moveMilestone, statusOfForm_of_names names]
  exact (Action.bind_of_ok rfl).trans (Action.bind_of_error (Action.connect_of_lost lost))

variable (connected : ctx.connected = true)

include connected

theorem moveMilestone_of_error {f : Failure}
    (failed : move caller id target ctx s = (.error f, s')) :
    moveMilestone caller id form ctx s = (.error f, s) := by
  have undone : Action.transaction (move caller id target) ctx s = (.error f, s) := by
    rw [Action.transaction, failed]
  rw [moveMilestone, statusOfForm_of_names names]
  exact (Action.bind_of_ok rfl).trans
    ((Action.bind_of_ok (Action.connect_of_connected connected)).trans (Action.bind_of_error undone))

theorem moveMilestone_of_ok (moved : move caller id target ctx s = (.ok m, s')) :
    moveMilestone caller id form ctx s = (.ok (.ofMilestone m), s') := by
  have committed : Action.transaction (move caller id target) ctx s = (.ok m, s') := by
    rw [Action.transaction, moved]
  rw [moveMilestone, statusOfForm_of_names names]
  exact (Action.bind_of_ok rfl).trans
    ((Action.bind_of_ok (Action.connect_of_connected connected)).trans
      ((Action.bind_of_ok committed).trans rfl))

end Asked

end Delivery

namespace Server

variable {server : Server}

open MilestoneStatus (MoveOf)

/-- What a request to move a milestone of a job is answered with.  It is answered with 500 if the two
rows cannot be read back, and a move of the caller's own side also if the time cannot. -/
def AnswersMoveOn (server : Server) (caller : Uuid) (target : MilestoneStatus) (m : Milestone)
    (j : Job) (ctx : Context) (r : Request) (s : Store) : Prop :=
  FirstOf [
    (¬(m.isReadable = true ∧ j.isReadable = true), server.Ends ctx r s 500 s),
    (¬j.IsParty caller, server.Ends ctx r s 403 s),
    (j.status ≠ .inProgress, server.Ends ctx r s 400 s),
    (MoveOf (j.side caller) m.status target ∧ ctx.now.isRepresentable = false,
      server.Ends ctx r s 500 s),
    (MoveOf (j.side caller) m.status target,
      server.EndsWith ctx r s 200
        (MilestoneView.ofMilestone { m with status := target, updatedAt := ctx.now }).toJson
        (s.withMilestoneMoved m.id target ctx.now)),
    (MoveOf (j.side caller).other m.status target, server.Ends ctx r s 403 s)]
  (server.Ends ctx r s 400 s)

def AnswersMove (server : Server) (caller id : Uuid) (form : StatusForm) (ctx : Context)
    (r : Request) (s : Store) : Prop :=
  FirstOf [
    (∀ target : MilestoneStatus, ¬form.Names target, server.Ends ctx r s 400 s),
    (ctx.connected = false, server.Ends ctx r s 500 s),
    (∀ m ∈ s.milestones, m.id ≠ id, server.Ends ctx r s 404 s)]
  (∃ target : MilestoneStatus, form.Names target ∧ ∃ m ∈ s.milestones, m.id = id ∧
    ∃ j ∈ s.jobs, j.id = m.jobId ∧ server.AnswersMoveOn caller target m j ctx r s)

namespace MovesMilestone

variable (moves : server.MovesMilestone caller id form ctx r)

include moves

theorem ends_of_error {f : Failure}
    (failed : Delivery.moveMilestone caller id form ctx s = (.error f, s')) :
    server.Ends ctx r s f.problem.status s' :=
  Server.ends_of_error (asked?_moveMilestone_iff.mpr moves) (Action.bind_of_error failed)

theorem endsWith_of_ok {v : MilestoneView}
    (shown : Delivery.moveMilestone caller id form ctx s = (.ok v, s')) :
    server.EndsWith ctx r s 200 v.toJson s' :=
  Server.endsWith_of_ok (by rw [moves.method]; decide) (asked?_moveMilestone_iff.mpr moves)
    (Action.bind_of_ok shown) rfl

theorem answersMoveOn (names : form.Names target) (connected : ctx.connected = true)
    (finds : s.FindsMilestone id m j) : server.AnswersMoveOn caller target m j ctx r s := by
  have refused {f : Failure} {t : Store}
      (failed : Delivery.move caller id target ctx s = (.error f, t)) :
      server.Ends ctx r s f.problem.status s :=
    moves.ends_of_error (Delivery.moveMilestone_of_error names connected failed)
  obtain rfl : m.id = id := Rows.key_of_found finds.milestone
  refine ⟨fun unreadable => refused (Delivery.move_of_unreadable finds unreadable),
    fun isReadable => ?_⟩
  have readable := not_not.mp isReadable
  have loaded := finds.readPair_eq
  rw [if_pos (by rwa [Bool.and_eq_true])] at loaded
  refine ⟨fun stranger => refused (Delivery.move_of_stranger loaded stranger), fun known => ?_⟩
  have isParty := not_not.mp known
  refine ⟨fun idle => refused (Delivery.move_of_idle loaded isParty idle), fun isRunning => ?_⟩
  have running := not_not.mp isRunning
  have check := Delivery.checkMove_eq (j.side caller) m.status target
  have made (own : MoveOf (j.side caller) m.status target) :
      Delivery.move caller m.id target ctx s = _ :=
    Delivery.move_of_allowed loaded isParty running finds readable.1 (check.1 own)
  refine ⟨?_, fun notLate => ⟨fun own => ?_, fun notOwn => ⟨fun others => ?_, fun nobodys => ?_⟩⟩⟩
  · rintro ⟨own, late⟩
    have failed := made own
    rw [late] at failed
    exact refused failed
  · have timely : ctx.now.isRepresentable = true := by simpa [own] using notLate
    have moved := made own
    rw [if_pos timely] at moved
    exact moves.endsWith_of_ok (Delivery.moveMilestone_of_ok names connected moved)
  · exact refused (Delivery.move_of_refused loaded isParty running (check.2.1 others))
  · exact refused (Delivery.move_of_refused loaded isParty running (check.2.2 notOwn nobodys))

theorem answersMove (sound : s.Sound) : server.AnswersMove caller id form ctx r s := by
  refine ⟨fun unnamed => ?_, fun named => ?_⟩
  · obtain ⟨f, failed, told⟩ := Delivery.statusOfForm_of_unnamed unnamed
    rw [← told]
    refine moves.ends_of_error (Action.bind_of_error ?_)
    rw [failed]
    rfl
  push Not at named
  obtain ⟨target, names⟩ := named
  refine ⟨fun lost => ?_, fun isConnected => ?_⟩
  · exact moves.ends_of_error (Delivery.moveMilestone_of_lost names lost)
  have connected : ctx.connected = true := by simpa using isConnected
  refine ⟨fun missing => ?_, fun isThere => ?_⟩
  · exact moves.ends_of_error
      (Delivery.moveMilestone_of_error names connected (Delivery.move_of_missing missing))
  push Not at isThere
  obtain ⟨m, hm, rfl⟩ := isThere
  obtain ⟨j, hj, of⟩ := (s.hasJob_iff _).mp (sound.linked.milestoneJob m hm)
  exact ⟨target, names, m, hm, rfl, j, hj, of,
    moves.answersMoveOn names connected (.of_mem sound hm hj of)⟩

/-- Whatever the answer, the other milestones and the other tables are as before. -/
theorem spares_rest :
    (server.handle ctx r s).2 = { s with milestones := (server.handle ctx r s).2.milestones } ∧
      ∀ o, o.id ≠ id → (o ∈ (server.handle ctx r s).2.milestones ↔ o ∈ s.milestones) := by
  rcases server.handle_effect ctx r s with same | ⟨call, asked, effect⟩
  · rw [same]
    exact ⟨rfl, fun _ _ => Iff.rfl⟩
  rw [asked?_moveMilestone_iff.mpr moves, Option.some.injEq] at asked
  subst asked
  generalize (server.handle ctx r s).2 = left at effect ⊢
  cases effect with
  | nothing => exact ⟨rfl, fun _ _ => Iff.rfl⟩
  | milestoneMoved _ _ _ _ _ _ set =>
      rw [Store.setMilestoneStatus_ok set]
      refine ⟨rfl, fun o other => ?_⟩
      rw [List.mem_map]
      constructor
      · rintro ⟨q, hq, rfl⟩
        rw [Store.movedRow_id] at other
        rwa [movedRow, if_neg other]
      · intro ho
        exact ⟨o, ho, if_neg other⟩

end MovesMilestone

/-- In a store that satisfies its constraints, a request to move a milestone is refused for the first
thing that speaks against it; else the milestone is in the state asked for and is shown so.  Its job
and the other milestones never change. -/
theorem milestone_moves (server : Server) (s : Store) (holds : s.Constrained) (caller id : Uuid)
    (form : StatusForm) (ctx : Context) (r : Request)
    (moves : server.MovesMilestone caller id form ctx r) :
    server.AnswersMove caller id form ctx r s ∧
      (server.handle ctx r s).2 = { s with milestones := (server.handle ctx r s).2.milestones } ∧
      ∀ o, o.id ≠ id → (o ∈ (server.handle ctx r s).2.milestones ↔ o ∈ s.milestones) :=
  ⟨moves.answersMove holds.sound, moves.spares_rest⟩

def blankApproval : Request where
  method := .put
  target := "/api/milestones/00000000-0000-0000-0000-000000000004/status"
  headers := ("content-type", "application/json") :: removal.headers
  body := Text.Utf8.ofString "\x7b\"status\":\" APPROVED \"\x7d"

theorem blankApproval_moves :
    plain.MovesMilestone ann.id siteMilestone.id ⟨some " APPROVED "⟩ firstMoment blankApproval where
  method := rfl
  path := ⟨"00000000-0000-0000-0000-000000000004".toList, by decide +kernel,
    Http.pathId_eq_ok_iff.mpr (by decide +kernel)⟩
  caller := ann_known rfl
  body := decodeBody_of_leading (by decide +kernel) (by decide +kernel) (by decide +kernel)

theorem blankApproval_names : (StatusForm.mk (some " APPROVED ")).Names MilestoneStatus.approved :=
  ⟨_, rfl, by decide +kernel⟩

theorem milestone_moves_site :
    siteStore.Constrained ∧
      plain.MovesMilestone ann.id siteMilestone.id ⟨some " APPROVED "⟩ firstMoment blankApproval ∧
      plain.AnswersMove ann.id siteMilestone.id ⟨some " APPROVED "⟩ firstMoment blankApproval
        siteStore ∧
      plain.Ends firstMoment blankApproval siteStore 200
        (siteStore.withMilestoneMoved siteMilestone.id .approved firstMoment.now) := by
  have holds := siteStore_sound.constrained
  obtain ⟨answers, _⟩ := milestone_moves plain siteStore holds _ _ _ _ _ blankApproval_moves
  have finds : siteStore.FindsMilestone siteMilestone.id siteMilestone siteJob := ⟨rfl, rfl⟩
  have on := blankApproval_moves.answersMoveOn blankApproval_names rfl finds
  refine ⟨holds, blankApproval_moves, answers, ?_⟩
  have readable : siteMilestone.isReadable = true ∧ siteJob.isReadable = true := by decide
  have known := on.2 (not_not.mpr readable)
  have running := (known.2 (not_not.mpr (.inl rfl))).2 (not_not.mpr rfl)
  have timely := running.2 fun late => absurd late.2 (by decide)
  exact (timely.1 .approve).ends

def ancientProgress : Store := { ancientStore with milestones := [siteMilestone] }

theorem ancientProgress_sound : ancientProgress.Sound := by
  have added : Store.addMilestones [siteMilestone] ancientStore = .ok ((), ancientProgress) := rfl
  exact Store.addMilestones_sound ancientStore_sound added

/-- Not everybody who is no party to the job of a milestone is answered with 403. -/
theorem ancient_milestone_not_forbidden :
    ancientProgress.Constrained ∧ firstMoment.connected = true ∧
      plain.MovesMilestone ann.id siteMilestone.id ⟨some " APPROVED "⟩ firstMoment blankApproval ∧
        (StatusForm.mk (some " APPROVED ")).Names MilestoneStatus.approved ∧
          siteMilestone ∈ ancientProgress.milestones ∧ ancientJob ∈ ancientProgress.jobs ∧
            ancientJob.id = siteMilestone.jobId ∧ ¬ancientJob.IsParty ann.id ∧
              (plain.handle firstMoment blankApproval ancientProgress).1.status = 500 := by
  have finds : ancientProgress.FindsMilestone siteMilestone.id siteMilestone ancientJob := ⟨rfl, rfl⟩
  have on := blankApproval_moves.answersMoveOn blankApproval_names rfl finds
  refine ⟨ancientProgress_sound.constrained, rfl, blankApproval_moves, blankApproval_names,
    List.mem_cons_self, List.mem_cons_self, rfl, ?_, (on.1 (by decide)).1⟩
  rintro (isClient | isFreelancer)
  · exact absurd isClient (by decide)
  · cases isFreelancer

end Server

end GigBoard
