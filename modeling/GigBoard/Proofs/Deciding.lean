import GigBoard.Proofs.Precedence
import GigBoard.Proofs.Searching

/-!
# Deciding applications

What a request to decide an application is answered with, whatever stands in the store, and what
becomes of the store.
-/

set_option autoImplicit false

namespace GigBoard

open Hiring (Application Decision Job StatusForm)
open Http (Request)
open Store (assignedRow decidedRow)

variable {ctx : Context} {r : Request} {s s' : Store} {caller id : Uuid} {form : StatusForm}
  {decision : Decision} {a : Application} {j : Job}

/-! ## What a form asks for -/

theorem ApplicationStatus.distinct : Named.Distinct ApplicationStatus := by
  intro status
  cases status <;> rfl

theorem ApplicationStatus.read_eq_ok_iff (status : ApplicationStatus) (text : String) :
    Named.read text = .ok status ↔ Text.trim text = Named.name status :=
  (distinct.read_eq_ok_iff status text).trans eq_comm

def Hiring.StatusForm.AsksFor (form : StatusForm) (decision : Decision) : Prop :=
  ∃ text, form.status = some text ∧ Text.trim text = Named.name decision.status

namespace Hiring

theorem Decision.ofForm_of_asks (asks : form.AsksFor decision) : ofForm form = .ok decision := by
  obtain ⟨text, given, named⟩ := asks
  have read := (ApplicationStatus.read_eq_ok_iff decision.status text).mpr named
  rw [ofForm, given, Option.map_some, read]
  cases decision <;> rfl

theorem Decision.asks_of_ofForm (made : ofForm form = .ok decision) : form.AsksFor decision := by
  unfold ofForm at made
  cases given : form.status with
  | none =>
      rw [given] at made
      cases made
  | some text =>
      rw [given, Option.map_some] at made
      refine ⟨text, given, (ApplicationStatus.read_eq_ok_iff decision.status text).mp ?_⟩
      cases read : (Named.read text : Except UnknownName ApplicationStatus) with
      | error name =>
          rw [read] at made
          cases made
      | ok status =>
          rw [read] at made
          cases status <;> cases made <;> rfl

theorem Decision.ofForm_of_asks_nothing (nothing : ∀ decision, ¬form.AsksFor decision) :
    ofForm form = .error .notADecision := by
  cases made : ofForm form with
  | ok decision => exact absurd (asks_of_ofForm made) (nothing decision)
  | error f =>
      unfold ofForm at made
      split at made <;> cases made
      rfl

end Hiring

/-! ## Loading an application -/

structure Store.FindsApplication (s : Store) (id : Uuid) (a : Application) (j : Job) : Prop where
  application : s.applications.find? (fun b => decide (b.id = id)) = some a
  job : s.FindsJob a.jobId j

namespace Store

theorem FindsApplication.of_mem (sound : s.Sound) (ha : a ∈ s.applications) (hj : j ∈ s.jobs)
    (of : j.id = a.jobId) : s.FindsApplication a.id a j :=
  ⟨sound.keyed.applicationId.find?_eq ha rfl, sound.keyed.jobId.find?_eq hj of⟩

theorem applicationWithJob?_of_missing (missing : ∀ a ∈ s.applications, a.id ≠ id) :
    applicationWithJob? id s = .ok none := by
  have nothing : s.applications.find? (fun a => decide (a.id = id)) = none := by
    rw [List.find?_eq_none]
    intro a ha same
    exact missing a ha (of_decide_eq_true same)
  rw [applicationWithJob?, nothing]
  rfl

theorem FindsApplication.readPair_eq (finds : s.FindsApplication id a j) :
    applicationWithJob? id s =
      if a.isReadable && j.isReadable then .ok (some (a, j)) else .error .unreadable :=
  readPair_of_found finds.application finds.job

theorem decidedRow_freelancerId (id : Uuid) (status : ApplicationStatus) (now : Timestamp)
    (a : Application) : (decidedRow id status now a).freelancerId = a.freelancerId := by
  unfold decidedRow
  split <;> rfl

/-- A store in which an application is decided; an open job is assigned if it is accepted. -/
def decided (s : Store) (decision : Decision) (a : Application) (now : Timestamp) : Store :=
  { s with
    applications := s.applications.map (decidedRow a.id decision.status now)
    jobs :=
      match decision with
      | .accept => s.jobs.map (assignedRow a.jobId a.freelancerId now)
      | .reject => s.jobs }

end Store

/-! ## Carrying a decision out -/

namespace Hiring

/-- What a decision does besides: an application that is accepted has its job assigned. -/
def assigning (decision : Decision) (a : Application) (j : Job) (now : Timestamp) : Action Unit :=
  match decision with
  | .accept => assign a j now
  | .reject => Action.done ()

def reread (id : Uuid) : Action Application := do
  Action.expect (.store .noRow) (← Action.query (Store.application? id))

theorem carryOut_of_missing (missing : ∀ a ∈ s.applications, a.id ≠ id) :
    carryOut caller id decision ctx s = (.error (.missing "application"), s) := by
  have read := Store.applicationWithJob?_of_missing missing
  exact Action.bind_of_ok (Action.query_of_ok read)

theorem carryOut_of_unreadable (finds : s.FindsApplication id a j)
    (unreadable : ¬(a.isReadable = true ∧ j.isReadable = true)) :
    carryOut caller id decision ctx s = (.error (.store .unreadable), s) := by
  have failed := finds.readPair_eq
  rw [if_neg (by rwa [Bool.and_eq_true])] at failed
  apply Action.bind_of_error
  rw [Action.query, failed]

section Loaded

variable (loaded : Store.applicationWithJob? id s = .ok (some (a, j)))

include loaded

theorem carryOut_of_other (other : j.clientId ≠ caller) :
    carryOut caller id decision ctx s = (.error .notDecider, s) := by
  refine (Action.bind_of_ok (Action.query_of_ok loaded)).trans ?_
  refine (Action.bind_of_ok rfl).trans ?_
  exact Action.bind_of_error (Action.require_of_false (decide_eq_false other))

theorem carryOut_of_decided (owned : j.clientId = caller) (decided : a.status ≠ .pending) :
    carryOut caller id decision ctx s = (.error (.alreadyDecided a.status), s) := by
  have final : a.status.mayBecome decision.status = false := by
    by_contra allowed
    exact decided (ApplicationStatus.pending_of_mayBecome (by simpa using allowed))
  refine (Action.bind_of_ok (Action.query_of_ok loaded)).trans ?_
  refine (Action.bind_of_ok rfl).trans ?_
  refine (Action.bind_of_ok (Action.require_of_true (decide_eq_true owned))).trans ?_
  exact Action.bind_of_error (Action.require_of_false final)

theorem carryOut_of_pending (owned : j.clientId = caller) (pending : a.status = .pending) :
    carryOut caller id decision ctx s =
      (assigning decision a j ctx.now >>= fun _ => reread id) ctx
        { s with applications := s.applications.map (decidedRow id decision.status ctx.now) } := by
  have allowed : a.status.mayBecome decision.status = true := by
    rw [pending]
    cases decision <;> rfl
  refine (Action.bind_of_ok (Action.query_of_ok loaded)).trans ?_
  refine (Action.bind_of_ok rfl).trans ?_
  refine (Action.bind_of_ok (Action.require_of_true (decide_eq_true owned))).trans ?_
  refine (Action.bind_of_ok (Action.require_of_true allowed)).trans ?_
  refine (Action.bind_of_ok rfl).trans ?_
  refine (Action.bind_of_ok rfl).trans ?_
  cases decision <;> rfl

end Loaded

/-- The statement that assigns a job does not fail for a freelancer who is there. -/
theorem change_assignJob {freelancer : Uuid} {now : Timestamp}
    (known : s.hasUser freelancer = true) :
    Action.change (Store.assignJob id freelancer now) .store ctx s =
      (.ok (s.jobs.countP fun k => decide (k.id = id ∧ k.status = .opened)),
        { s with jobs := s.jobs.map (assignedRow id freelancer now) }) := by
  cases assigned : Store.assignJob id freelancer now s with
  | error fault =>
      unfold Store.assignJob at assigned
      simp [known] at assigned
  | ok result =>
      obtain ⟨counted, _, left⟩ := Store.assignJob_ok assigned
      rw [Action.change_of_ok assigned, counted, left]

theorem assign_of_opened {now : Timestamp} (known : s.hasUser a.freelancerId = true)
    (hj : j ∈ s.jobs) (opened : j.status = .opened) :
    assign a j now ctx s =
      (.ok (), { s with jobs := s.jobs.map (assignedRow j.id a.freelancerId now) }) := by
  have some : 0 < s.jobs.countP fun k => decide (k.id = j.id ∧ k.status = .opened) :=
    List.countP_pos_iff.mpr ⟨j, hj, decide_eq_true ⟨rfl, opened⟩⟩
  refine (Action.bind_of_ok (change_assignJob known)).trans ?_
  exact Action.require_of_true (decide_eq_true (by omega))

theorem assign_of_taken {now : Timestamp} (known : s.hasUser a.freelancerId = true)
    (unique : Rows.Unique Job.id s.jobs) (hj : j ∈ s.jobs) (taken : j.status ≠ .opened) :
    assign a j now ctx s = (.error .jobNoLongerOpen,
      { s with jobs := s.jobs.map (assignedRow j.id a.freelancerId now) }) := by
  have none : s.jobs.countP (fun k => decide (k.id = j.id ∧ k.status = .opened)) = 0 := by
    rw [List.countP_eq_zero]
    intro k hk due
    obtain ⟨same, opened⟩ := of_decide_eq_true due
    rw [unique.eq_of_same hk hj same] at opened
    exact taken opened
  refine (Action.bind_of_ok (change_assignJob known)).trans ?_
  exact Action.require_of_false (decide_eq_false (by omega))

theorem reread_of_found (found : s.applications.find? (fun b => decide (b.id = id)) = some a) :
    reread id ctx s =
      if a.isReadable then (.ok a, s) else (.error (.store .unreadable), s) := by
  rw [reread]
  split
  · rename_i readable
    have read : Store.application? id s = .ok (some a) := by
      rw [Store.application?, found, Store.readRow, Option.all_some, if_pos readable]
    exact Action.bind_of_ok (Action.query_of_ok read)
  · rename_i unreadable
    have failed : Store.application? id s = .error .unreadable := by
      rw [Store.application?, found, Store.readRow, Option.all_some, if_neg unreadable]
    apply Action.bind_of_error
    rw [Action.query, failed]

section Pending

variable (sound : s.Sound) (finds : s.FindsApplication id a j)
  (readable : a.isReadable = true ∧ j.isReadable = true) (owned : j.clientId = caller)
  (pending : a.status = .pending)

include sound finds readable owned pending

theorem carryOut_of_taken (taken : j.status ≠ .opened) :
    ∃ s', carryOut caller id .accept ctx s = (.error .jobNoLongerOpen, s') := by
  have loaded := finds.readPair_eq
  rw [if_pos (by rwa [Bool.and_eq_true])] at loaded
  have known := sound.linked.applicationFreelancer a (Rows.mem_of_found finds.application)
  exact ⟨_, (carryOut_of_pending loaded owned pending).trans
    (Action.bind_of_error (assign_of_taken known sound.keyed.jobId finds.job.mem taken))⟩

/-- A decision that is allowed is carried out, and fails only if its time cannot be read back. -/
theorem carryOut_of_allowed (free : decision = .accept → j.status = .opened) :
    carryOut caller id decision ctx s =
      if ctx.now.isRepresentable then
        (.ok (decidedRow id decision.status ctx.now a), s.decided decision a ctx.now)
      else (.error (.store .unreadable), s.decided decision a ctx.now) := by
  have loaded := finds.readPair_eq
  rw [if_pos (by rwa [Bool.and_eq_true])] at loaded
  have isId : a.id = id := Rows.key_of_found finds.application
  have known := sound.linked.applicationFreelancer a (Rows.mem_of_found finds.application)
  have assigned : assigning decision a j ctx.now ctx
      { s with applications := s.applications.map (decidedRow id decision.status ctx.now) } =
        (.ok (), s.decided decision a ctx.now) := by
    unfold Store.decided
    rw [isId]
    cases decision with
    | reject => rfl
    | accept =>
        rw [← finds.job.id_eq]
        exact assign_of_opened known finds.job.mem (free rfl)
  have found : (s.decided decision a ctx.now).applications.find? (fun b => decide (b.id = id)) =
      some (decidedRow id decision.status ctx.now a) := by
    unfold Store.decided
    rw [isId]
    exact Rows.find?_map_update Application.id _ (Store.decidedRow_id id _ _) finds.application
  have times : (decidedRow id decision.status ctx.now a).isReadable = ctx.now.isRepresentable := by
    have created := readable.1
    rw [Application.isReadable, Bool.and_eq_true] at created
    rw [Application.isReadable, decidedRow, if_pos isId, created.1, Bool.true_and]
  rw [carryOut_of_pending loaded owned pending, Action.bind_of_ok assigned, reread_of_found found,
    times]

end Pending

/-! ## The whole decision -/

def showDecided (a : Application) : Action ApplicationView := do
  let users ← Action.query (Store.usersWithIds [a.freelancerId])
  Action.ofExcept (ApplicationView.withFreelancer users .ofUser a)

def Application.viewWith (a : Application) (freelancer : Account.User) : ApplicationView :=
  { ApplicationView.ofApplication a with freelancer := some (.ofUser freelancer) }

theorem showDecided_of_readable (known : s.hasUser a.freelancerId = true)
    (readable : ∀ u ∈ s.users, u.id = a.freelancerId → u.isReadable = true) :
    ∃ u ∈ s.users, u.id = a.freelancerId ∧ showDecided a ctx s = (.ok (a.viewWith u), s) := by
  have loaded : Store.usersWithIds [a.freelancerId] s =
      .ok (s.users.filter fun u => [a.freelancerId].contains u.id) :=
    Store.usersWithIds_of_all fun u hu own => readable u hu (List.mem_singleton.mp own)
  obtain ⟨u, among⟩ := Store.among_loaded known (List.mem_singleton.mpr rfl)
  refine ⟨u, (List.mem_filter.mp (Rows.mem_of_found among)).1, Rows.key_of_found among, ?_⟩
  rw [showDecided, Action.bind_of_ok (Action.query_of_ok loaded), ApplicationView.withFreelancer,
    among]
  rfl

theorem showDecided_of_unreadable {u : Account.User} (hu : u ∈ s.users)
    (own : u.id = a.freelancerId) (unreadable : ¬u.isReadable = true) :
    showDecided a ctx s = (.error (.store .unreadable), s) := by
  apply Action.bind_of_error
  rw [Action.query, Store.usersWithIds_of_unreadable hu (List.mem_singleton.mpr own) unreadable]

section Asked

variable (asks : form.AsksFor decision)

include asks

theorem decideApplication_of_lost (lost : ctx.connected = false) :
    decideApplication caller id form ctx s = (.error (.store .unavailable), s) := by
  rw [decideApplication, Decision.ofForm_of_asks asks]
  exact (Action.bind_of_ok rfl).trans (Action.bind_of_error (Action.connect_of_lost lost))

theorem decideApplication_of_connected (connected : ctx.connected = true) :
    decideApplication caller id form ctx s =
      (Action.transaction (carryOut caller id decision) >>= showDecided) ctx s := by
  rw [decideApplication, Decision.ofForm_of_asks asks]
  exact (Action.bind_of_ok rfl).trans (Action.bind_of_ok (Action.connect_of_connected connected))

theorem decideApplication_of_error (connected : ctx.connected = true) {f : Failure}
    (failed : carryOut caller id decision ctx s = (.error f, s')) :
    decideApplication caller id form ctx s = (.error f, s) := by
  rw [decideApplication_of_connected asks connected]
  apply Action.bind_of_error
  rw [Action.transaction, failed]

theorem decideApplication_of_ok (connected : ctx.connected = true)
    (carried : carryOut caller id decision ctx s = (.ok a, s')) :
    decideApplication caller id form ctx s = showDecided a ctx s' := by
  have committed : Action.transaction (carryOut caller id decision) ctx s = (.ok a, s') := by
    rw [Action.transaction, carried]
  rw [decideApplication_of_connected asks connected, Action.bind_of_ok committed]

end Asked

end Hiring

namespace Server

variable {server : Server}

/-- What a decision on an application for a job is answered with.  It is answered with 500 if the two
rows or the time cannot be read back, or, when all is done, the row of the freelancer cannot. -/
def AnswersOn (server : Server) (caller : Uuid) (decision : Decision) (a : Application) (j : Job)
    (ctx : Context) (r : Request) (s : Store) : Prop :=
  FirstOf [
    (¬(a.isReadable = true ∧ j.isReadable = true), server.Ends ctx r s 500 s),
    (j.clientId ≠ caller, server.Ends ctx r s 403 s),
    (a.status ≠ .pending, server.Ends ctx r s 400 s),
    (decision = .accept ∧ j.status ≠ .opened, server.Ends ctx r s 409 s),
    (ctx.now.isRepresentable = false, server.Ends ctx r s 500 s),
    (∃ u ∈ s.users, u.id = a.freelancerId ∧ ¬u.isReadable = true,
      server.Ends ctx r s 500 (s.decided decision a ctx.now))]
  (server.Ends ctx r s 200 (s.decided decision a ctx.now))

def AnswersDecision (server : Server) (caller id : Uuid) (form : StatusForm) (ctx : Context)
    (r : Request) (s : Store) : Prop :=
  FirstOf [
    (∀ decision, ¬form.AsksFor decision, server.Ends ctx r s 400 s),
    (ctx.connected = false, server.Ends ctx r s 500 s),
    (∀ a ∈ s.applications, a.id ≠ id, server.Ends ctx r s 404 s)]
  (∃ decision, form.AsksFor decision ∧ ∃ a ∈ s.applications, a.id = id ∧
    ∃ j ∈ s.jobs, j.id = a.jobId ∧ server.AnswersOn caller decision a j ctx r s)

namespace DecidesApplication

variable (decides : server.DecidesApplication caller id form ctx r)

include decides

theorem ends_of_error {f : Failure}
    (failed : Hiring.decideApplication caller id form ctx s = (.error f, s')) :
    server.Ends ctx r s f.problem.status s' :=
  Server.ends_of_error (asked?_decideApplication_iff.mpr decides) (Action.bind_of_error failed)

theorem ends_of_ok {v : Hiring.ApplicationView}
    (shown : Hiring.decideApplication caller id form ctx s = (.ok v, s')) :
    server.Ends ctx r s 200 s' :=
  Server.ends_of_ok (asked?_decideApplication_iff.mpr decides) (Action.bind_of_ok shown)

theorem answersOn (sound : s.Sound) (asks : form.AsksFor decision)
    (connected : ctx.connected = true) (finds : s.FindsApplication id a j) :
    server.AnswersOn caller decision a j ctx r s := by
  have refused {f : Failure} {t : Store}
      (failed : Hiring.carryOut caller id decision ctx s = (.error f, t)) :
      server.Ends ctx r s f.problem.status s :=
    decides.ends_of_error (Hiring.decideApplication_of_error asks connected failed)
  refine ⟨fun unreadable => refused (Hiring.carryOut_of_unreadable finds unreadable),
    fun isReadable => ?_⟩
  have readable := not_not.mp isReadable
  have loaded := finds.readPair_eq
  rw [if_pos (by rwa [Bool.and_eq_true])] at loaded
  refine ⟨fun other => refused (Hiring.carryOut_of_other loaded other), fun isOwned => ?_⟩
  have owned := not_not.mp isOwned
  refine ⟨fun decided => refused (Hiring.carryOut_of_decided loaded owned decided),
    fun isPending => ?_⟩
  have pending := not_not.mp isPending
  refine ⟨?_, fun isFree => ?_⟩
  · rintro ⟨rfl, taken⟩
    obtain ⟨t, failed⟩ := Hiring.carryOut_of_taken sound finds readable owned pending taken
    exact refused failed
  have free : decision = .accept → j.status = .opened := by
    intro accepts
    by_contra taken
    exact isFree ⟨accepts, taken⟩
  have carried : Hiring.carryOut caller id decision ctx s = _ :=
    Hiring.carryOut_of_allowed sound finds readable owned pending free
  refine ⟨fun late => ?_, fun isTimely => ?_⟩
  · rw [late] at carried
    exact refused carried
  have timely : ctx.now.isRepresentable = true := by simpa using isTimely
  rw [if_pos timely] at carried
  have performed := Hiring.decideApplication_of_ok asks connected carried
  have freelancer := Store.decidedRow_freelancerId id decision.status ctx.now a
  refine ⟨?_, fun allReadable => ?_⟩
  · rintro ⟨u, hu, own, unreadable⟩
    exact decides.ends_of_error (performed.trans
      (Hiring.showDecided_of_unreadable hu (own.trans freelancer.symm) unreadable))
  · have known := sound.linked.applicationFreelancer a (Rows.mem_of_found finds.application)
    rw [← freelancer] at known allReadable
    push Not at allReadable
    obtain ⟨_, _, _, shown⟩ := @Hiring.showDecided_of_readable ctx (s.decided decision a ctx.now) _
      known allReadable
    exact decides.ends_of_ok (performed.trans shown)

theorem answersDecision (sound : s.Sound) : server.AnswersDecision caller id form ctx r s := by
  refine ⟨fun nothing => ?_, fun something => ?_⟩
  · refine decides.ends_of_error (f := .notADecision) (Action.bind_of_error ?_)
    rw [Hiring.Decision.ofForm_of_asks_nothing nothing]
    rfl
  push Not at something
  obtain ⟨decision, asks⟩ := something
  refine ⟨fun lost => ?_, fun isConnected => ?_⟩
  · exact decides.ends_of_error (Hiring.decideApplication_of_lost asks lost)
  have connected : ctx.connected = true := by simpa using isConnected
  refine ⟨fun missing => ?_, fun isThere => ?_⟩
  · exact decides.ends_of_error (Hiring.decideApplication_of_error asks connected
      (Hiring.carryOut_of_missing missing))
  push Not at isThere
  obtain ⟨a, ha, isId⟩ := isThere
  obtain ⟨j, hj, of⟩ := (s.hasJob_iff _).mp (sound.linked.applicationJob a ha)
  have finds := Store.FindsApplication.of_mem sound ha hj of
  rw [isId] at finds
  exact ⟨decision, asks, a, ha, isId, j, hj, of, decides.answersOn sound asks connected finds⟩

end DecidesApplication

end Server

end GigBoard
