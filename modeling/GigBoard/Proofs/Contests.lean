import GigBoard.Proofs.Deciding
import GigBoard.Proofs.Sending

/-!
# Competing applications

An open job is given to the first freelancer whose application its client accepts.  Nothing but a
change of the state of the job or its removal comes in between: whatever else is asked of the service,
the job stays open until then, and stays closed from then on.
-/

set_option autoImplicit false

namespace GigBoard

open GigBoard.Action (Ordinary)
open Hiring (Application Job JobChangeForm StatusForm)
open Http (Request)
open Store (assignedRow)

variable {ctx : Context} {r : Request} {s s' : Store} {call : Call} {client id : Uuid}
  {form : StatusForm} {a : Application} {j : Job}

/-! ## What a call does to a job -/

/-- What becomes of a job that is not removed and whose state its client does not change: it stays with
its state, or it is open and the call accepts a pending application for it. -/
def Call.Spares (call : Call) (s : Store) (j : Job) (s' : Store) : Prop :=
  ∃ j' ∈ s'.jobs, j'.id = j.id ∧ j'.clientId = j.clientId ∧
    (j'.status = j.status ∨
      j.status = .opened ∧ ∃ a form, call = .decideApplication j.clientId a.id form ∧
        form.AsksFor .accept ∧ a ∈ s.applications ∧ a.jobId = j.id ∧ a.status = .pending)

theorem Call.Spares.of_mem (member : j ∈ s'.jobs) : call.Spares s j s' :=
  ⟨j, member, rfl, rfl, .inl rfl⟩

theorem Hiring.JobChange.status_of_ofForm {form : JobChangeForm} {change : JobChange}
    (asked : ofForm form j = .ok change) (notGiven : form.status = none) : change.status = none := by
  unfold ofForm at asked
  obtain ⟨_, _, asked⟩ := bind_ok asked
  obtain ⟨_, _, asked⟩ := bind_ok asked
  obtain ⟨_, _, asked⟩ := bind_ok asked
  obtain ⟨status, given, asked⟩ := bind_ok asked
  obtain ⟨_, _, asked⟩ := bind_ok asked
  cases asked
  rw [notGiven] at given
  cases given
  rfl

theorem Effect.spares (effect : Effect ctx s call s') (unique : Rows.Unique Job.id s.jobs)
    (hj : j ∈ s.jobs) :
    (∃ caller, call = .removeJob caller j.id) ∨
      (∃ caller form, call = .updateJob caller j.id form ∧ form.status ≠ none) ∨
        call.Spares s j s' := by
  cases effect with
  | nothing => exact .inr (.inr (.of_mem hj))
  | registered _ added =>
      obtain ⟨_, _, rfl⟩ := Store.addUser_ok added
      exact .inr (.inr (.of_mem hj))
  | accountChanged _ _ replaced =>
      obtain ⟨_, _, rfl⟩ := Store.replaceUser_ok replaced
      exact .inr (.inr (.of_mem hj))
  | jobPosted _ added planned =>
      obtain ⟨_, _, _, _, rfl⟩ := Store.addJob_ok added
      obtain ⟨_, _, _, _, rfl⟩ := Store.addMilestones_ok planned
      exact .inr (.inr (.of_mem (List.mem_append_left _ hj)))
  | @jobChanged caller id form job change _ found _ asked replaced =>
      obtain ⟨_, rfl⟩ := Store.replaceJob_ok replaced
      by_cases same : j.id = id
      · subst same
        obtain rfl := unique.eq_of_same hj found.mem found.id_eq.symm
        by_cases given : form.status = none
        · refine .inr (.inr ⟨change.apply j ctx.now, ?_, rfl, rfl, .inl ?_⟩)
          · exact List.mem_map.mpr ⟨j, hj, if_pos rfl⟩
          · rw [Hiring.JobChange.apply, Hiring.JobChange.status_of_ofForm asked given,
              Option.getD_none]
        · exact .inr (.inl ⟨caller, form, rfl, given⟩)
      · refine .inr (.inr (.of_mem (List.mem_map.mpr ⟨j, hj, if_neg ?_⟩)))
        exact fun isIt => same (isIt.trans found.id_eq)
  | @jobRemoved caller id _ _ _ _ _ removed =>
      obtain ⟨_, rfl⟩ := Store.removeJob_ok removed
      by_cases same : j.id = id
      · exact .inl ⟨caller, by rw [same]⟩
      · exact .inr (.inr (.of_mem (List.mem_filter.mpr ⟨hj, by simpa using same⟩)))
  | applied _ _ _ added =>
      obtain ⟨_, _, _, _, rfl⟩ := Store.addApplication_ok added
      exact .inr (.inr (.of_mem hj))
  | rejected _ _ _ _ _ set =>
      obtain rfl := Store.setApplicationStatus_ok set
      exact .inr (.inr (.of_mem hj))
  | @accepted caller id form a job _ _ _ asked found of owned pending set assigned _ =>
      obtain rfl := Store.setApplicationStatus_ok set
      obtain ⟨_, _, rfl⟩ := Store.assignJob_ok assigned
      by_cases isIt : j.id = job.id ∧ j.status = .opened
      · obtain ⟨same, opened⟩ := isIt
        obtain rfl := unique.eq_of_same hj of.mem same
        refine .inr (.inr ⟨_, List.mem_map_of_mem hj, Store.assignedRow_id _ _ _ j, ?_, .inr ?_⟩)
        · rw [assignedRow, if_pos ⟨rfl, opened⟩]
        · refine ⟨opened, a, form, ?_, Hiring.Decision.asks_of_ofForm asked,
            Rows.mem_of_found found, of.id_eq.symm, pending⟩
          rw [owned, Rows.key_of_found found]
      · exact .inr (.inr (.of_mem (List.mem_map.mpr ⟨j, hj, if_neg isIt⟩)))
  | milestoneMoved _ _ _ _ _ _ set =>
      obtain rfl := Store.setMilestoneStatus_ok set
      exact .inr (.inr (.of_mem hj))
  | reviewed _ _ _ added =>
      obtain ⟨_, _, _, _, _, rfl⟩ := Store.addReview_ok added
      exact .inr (.inr (.of_mem hj))
  | messageSent _ added =>
      obtain ⟨_, _, _, _, _, rfl⟩ := Store.addMessage_ok added
      exact .inr (.inr (.of_mem hj))
  | threadRead marked =>
      obtain ⟨_, rfl⟩ := Store.markRead_ok marked
      exact .inr (.inr (.of_mem hj))
  | messageRead marked =>
      obtain ⟨_, rfl⟩ := Store.markRead_ok marked
      exact .inr (.inr (.of_mem hj))

/-! ## One request -/

def Store.HasJobIn (s : Store) (id client : Uuid) (told : JobStatus → Prop) : Prop :=
  ∃ j ∈ s.jobs, j.id = id ∧ j.clientId = client ∧ told j.status

namespace Server

variable {server : Server}

/-- The client decides for a pending application, and the store can be reached. -/
structure Chooses (server : Server) (client : Uuid) (a : Application) (form : StatusForm)
    (ctx : Context) (r : Request) (s : Store) : Prop where
  decides : server.DecidesApplication client a.id form ctx r
  asks : form.AsksFor .accept
  member : a ∈ s.applications
  pending : a.status = .pending
  connected : ctx.connected = true

def ChoosesFor (server : Server) (client id : Uuid) (ctx : Context) (r : Request) (s : Store) :
    Prop :=
  ∃ a form, a.jobId = id ∧ server.Chooses client a form ctx r s

/-- A job is removed or a new state is given for it, and that is answered with 200. -/
def Disturbs (server : Server) (id : Uuid) (ctx : Context) (r : Request) (s : Store) : Prop :=
  (server.handle ctx r s).1.status = 200 ∧
    ((∃ caller, server.RemovesJob caller id ctx r) ∨
      ∃ caller form, server.UpdatesJob caller id form ctx r ∧ form.status ≠ none)

section Step

variable (sound : s.Sound) (readable : s.Readable) (timely : ctx.now.isRepresentable = true)

include sound readable timely

/-- A call that changed the store did not fail. -/
theorem performed_of_changed (asked : server.asked? ctx.now r = some call)
    (changed : (server.handle ctx r s).2 ≠ s) :
    ∃ answer s', call.perform ctx s = (.ok answer, s') ∧
      (server.handle ctx r s).1.status = answer.status := by
  rcases ended : call.perform ctx s with ⟨f | answer, t⟩
  · rw [(handle_of_asked asked).1, ended] at changed
    exact absurd (Call.perform_failed ⟨sound, readable, timely⟩ ended) changed
  · exact ⟨answer, t, rfl, (ends_of_ok asked ended).1⟩

theorem disturbs_of_changed (changed : (server.handle ctx r s).2 ≠ s) :
    (∀ caller id, server.asked? ctx.now r = some (.removeJob caller id) →
      server.Disturbs id ctx r s) ∧
    (∀ caller id form, server.asked? ctx.now r = some (.updateJob caller id form) →
      form.status ≠ none → server.Disturbs id ctx r s) := by
  refine ⟨fun caller id asked => ?_, fun caller id form asked given => ?_⟩
  · obtain ⟨answer, t, performed, status⟩ :=
      performed_of_changed sound readable timely asked changed
    obtain ⟨_, rfl⟩ := Call.answering_ok performed
    exact ⟨status, .inl ⟨caller, asked?_removeJob_iff.mp asked⟩⟩
  · obtain ⟨answer, t, performed, status⟩ :=
      performed_of_changed sound readable timely asked changed
    obtain ⟨_, rfl⟩ := Call.answering_ok performed
    exact ⟨status, .inr ⟨caller, form, asked?_updateJob_iff.mp asked, given⟩⟩

/-- A request that does not disturb a job keeps its state, or chooses an application for it. -/
theorem handle_spares (hj : j ∈ s.jobs) (undisturbed : ¬server.Disturbs j.id ctx r s) :
    ∃ j' ∈ (server.handle ctx r s).2.jobs, j'.id = j.id ∧ j'.clientId = j.clientId ∧
      (j'.status = j.status ∨
        j.status = .opened ∧ server.ChoosesFor j.clientId j.id ctx r s) := by
  by_cases same : (server.handle ctx r s).2 = s
  · rw [same]
    exact ⟨j, hj, rfl, rfl, .inl rfl⟩
  obtain ⟨call, asked, effect⟩ := (server.handle_effect ctx r s).resolve_left same
  have disturbs := disturbs_of_changed sound readable timely same
  rcases effect.spares sound.keyed.jobId hj with
    ⟨caller, rfl⟩ | ⟨caller, form, rfl, given⟩ | ⟨j', hj', sameId, sameClient, state⟩
  · exact absurd (disturbs.1 caller _ asked) undisturbed
  · exact absurd (disturbs.2 caller _ form asked given) undisturbed
  · refine ⟨j', hj', sameId, sameClient, state.imp_right ?_⟩
    rintro ⟨opened, a, form, rfl, asks, ha, of, pending⟩
    have decides := asked?_decideApplication_iff.mp asked
    refine ⟨opened, a, form, of, decides, asks, ha, pending, ?_⟩
    -- Without a connection nothing would have changed.
    by_contra lost
    have ends := decides.ends_of_error (s := s)
      (Hiring.decideApplication_of_lost asks (by simpa using lost))
    exact same ends.2

end Step

namespace Chooses

variable (chooses : server.Chooses client a form ctx r s) (sound : s.Sound) (readable : s.Readable)
  (hj : j ∈ s.jobs) (of : j.id = a.jobId) (owned : j.clientId = client)

include chooses sound readable hj of owned

theorem ends_of_opened (timely : ctx.now.isRepresentable = true) (opened : j.status = .opened) :
    server.Ends ctx r s 200 (s.decided .accept a ctx.now) := by
  have answers := chooses.decides.answersOn sound chooses.asks chooses.connected
    (.of_mem sound chooses.member hj of)
  apply answers.of_otherwise
  simp only [List.forall_mem_cons, List.not_mem_nil, false_implies, implies_true, and_true]
  have readUsers : ¬∃ u ∈ s.users, u.id = a.freelancerId ∧ ¬u.isReadable = true := by
    rintro ⟨u, hu, _, unreadable⟩
    exact unreadable (readable.users u hu)
  refine ⟨?_, ?_, ?_, ?_, ?_, readUsers⟩
  · exact not_not.mpr ⟨readable.applications a chooses.member, readable.jobs j hj⟩
  · exact not_not.mpr owned
  · exact not_not.mpr chooses.pending
  · exact fun taken => taken.2 opened
  · simp [timely]

theorem ends_of_taken (taken : j.status ≠ .opened) : server.Ends ctx r s 409 s := by
  have answers := chooses.decides.answersOn sound chooses.asks chooses.connected
    (.of_mem sound chooses.member hj of)
  have bothReadable : a.isReadable = true ∧ j.isReadable = true :=
    ⟨readable.applications a chooses.member, readable.jobs j hj⟩
  have isReadable := not_not.mpr bothReadable
  have isOwned := not_not.mpr owned
  have isPending := not_not.mpr chooses.pending
  exact (((answers.2 isReadable).2 isOwned).2 isPending).1 ⟨rfl, taken⟩

end Chooses

theorem handle_keeps_closed (sound : s.Sound) (readable : s.Readable)
    (timely : ctx.now.isRepresentable = true) (undisturbed : ¬server.Disturbs id ctx r s)
    (closed : s.HasJobIn id client (· ≠ .opened)) :
    (server.handle ctx r s).2.HasJobIn id client (· ≠ .opened) := by
  obtain ⟨j, hj, rfl, owned, closed⟩ := closed
  obtain ⟨j', hj', sameId, sameClient, state⟩ :=
    handle_spares sound readable timely hj undisturbed
  have sameState := state.resolve_right fun chosen => closed chosen.1
  exact ⟨j', hj', sameId, sameClient.trans owned, by rwa [sameState]⟩

theorem handle_keeps_opened (sound : s.Sound) (readable : s.Readable)
    (timely : ctx.now.isRepresentable = true) (undisturbed : ¬server.Disturbs id ctx r s)
    (nobody : ¬server.ChoosesFor client id ctx r s)
    (opened : s.HasJobIn id client (· = .opened)) :
    (server.handle ctx r s).2.HasJobIn id client (· = .opened) := by
  obtain ⟨j, hj, rfl, rfl, opened⟩ := opened
  obtain ⟨j', hj', sameId, sameClient, state⟩ :=
    handle_spares sound readable timely hj undisturbed
  have sameState := state.resolve_right fun chosen => nobody chosen.2
  exact ⟨j', hj', sameId, sameClient, sameState.trans opened⟩

/-- Whoever is chosen first gets the job. -/
theorem handle_closes (sound : s.Sound) (readable : s.Readable)
    (timely : ctx.now.isRepresentable = true) (chosen : server.ChoosesFor client id ctx r s)
    (opened : s.HasJobIn id client (· = .opened)) :
    (server.handle ctx r s).2.HasJobIn id client (· ≠ .opened) := by
  obtain ⟨j, hj, rfl, owned, opened⟩ := opened
  obtain ⟨a, form, of, chooses⟩ := chosen
  have ends := chooses.ends_of_opened sound readable hj of.symm owned timely opened
  rw [ends.2]
  refine ⟨_, List.mem_map_of_mem hj, Store.assignedRow_id _ _ _ j, ?_, ?_⟩
  · rw [assignedRow, if_pos ⟨of.symm, opened⟩]
    exact owned
  · rw [assignedRow, if_pos ⟨of.symm, opened⟩]
    simp

/-! ## Runs -/

/-- Every step of a run has a property, of its circumstances, its request and the store it meets. -/
def Throughout (server : Server) (p : Context → Request → Store → Prop) :
    List (Context × Request) → Store → Prop
  | [], _ => True
  | (ctx, r) :: rest, s => p ctx r s ∧ server.Throughout p rest (server.handle ctx r s).2

section Runs

variable {steps : List (Context × Request)}
  (timely : ∀ step ∈ steps, step.1.now.isRepresentable = true)
  (undisturbed : server.Throughout (fun ctx r s => ¬server.Disturbs id ctx r s) steps s)

include timely undisturbed

theorem run_keeps_closed (sound : s.Sound) (readable : s.Readable)
    (closed : s.HasJobIn id client (· ≠ .opened)) :
    (server.run steps s).HasJobIn id client (· ≠ .opened) := by
  induction steps generalizing s with
  | nil => exact closed
  | cons step rest ih =>
      obtain ⟨ctx, r⟩ := step
      obtain ⟨now, later⟩ := List.forall_mem_cons.mp timely
      exact ih later undisturbed.2 (server.handle_sound ctx r sound)
        (server.handle_readable r readable now)
        (handle_keeps_closed sound readable now undisturbed.1 closed)

/-- The job is open exactly as long as nobody was chosen. -/
theorem run_opened_or_closed (sound : s.Sound) (readable : s.Readable)
    (opened : s.HasJobIn id client (· = .opened)) :
    (server.Throughout (fun ctx r s => ¬server.ChoosesFor client id ctx r s) steps s →
      (server.run steps s).HasJobIn id client (· = .opened)) ∧
    (¬server.Throughout (fun ctx r s => ¬server.ChoosesFor client id ctx r s) steps s →
      (server.run steps s).HasJobIn id client (· ≠ .opened)) := by
  induction steps generalizing s with
  | nil => exact ⟨fun _ => opened, fun chosen => absurd trivial chosen⟩
  | cons step rest ih =>
      obtain ⟨ctx, r⟩ := step
      obtain ⟨now, later⟩ := List.forall_mem_cons.mp timely
      have sound' := server.handle_sound ctx r sound
      have readable' := server.handle_readable r readable now
      by_cases chosen : server.ChoosesFor client id ctx r s
      · have closed := run_keeps_closed later undisturbed.2 sound' readable'
          (handle_closes sound readable now chosen opened)
        exact ⟨fun nobody => absurd chosen nobody.1, fun _ => closed⟩
      · have opened' := handle_keeps_opened sound readable now undisturbed.1 chosen opened
        have rest := ih later undisturbed.2 sound' readable' opened'
        refine ⟨fun nobody => rest.1 nobody.2, fun somebody => rest.2 fun nobody => ?_⟩
        exact somebody ⟨chosen, nobody⟩

end Runs

/-- What a decision is answered with follows from what stands in the store.  While nobody removes an
open job or gives it another state, the first of its pending applications that the client accepts gets
it; every other one is answered with 409 and stays as it is. -/
theorem application_decisions (server : Server) :
    (∀ s : Store, s.Constrained → ∀ caller id form ctx r,
      server.DecidesApplication caller id form ctx r →
        server.AnswersDecision caller id form ctx r s) ∧
    (∀ seed : Store, seed.Constrained → seed.Readable → ∀ j ∈ seed.jobs, j.status = .opened →
      ∀ steps, (∀ step ∈ steps, step.1.now.isRepresentable = true) →
        server.Throughout (fun ctx r s => ¬server.Disturbs j.id ctx r s) steps seed →
          ∀ a form ctx r, a.jobId = j.id → ctx.now.isRepresentable = true →
            server.Chooses j.clientId a form ctx r (server.run steps seed) →
              (server.Throughout (fun ctx r s => ¬server.ChoosesFor j.clientId j.id ctx r s)
                  steps seed →
                server.Ends ctx r (server.run steps seed) 200
                  ((server.run steps seed).decided .accept a ctx.now)) ∧
              (¬server.Throughout (fun ctx r s => ¬server.ChoosesFor j.clientId j.id ctx r s)
                  steps seed →
                server.Ends ctx r (server.run steps seed) 409 (server.run steps seed))) := by
  refine ⟨fun s holds caller id form ctx r decides => decides.answersDecision holds.sound, ?_⟩
  intro seed holds readable j hj opened steps timely undisturbed a form ctx r of now chooses
  have sound := server.run_keeps (fun ctx r _ before => server.handle_sound ctx r before) steps
    holds.sound
  have readable' := server.run_readable steps readable timely
  have contest := run_opened_or_closed timely undisturbed holds.sound readable
    ⟨j, hj, rfl, rfl, opened⟩
  refine ⟨fun nobody => ?_, fun somebody => ?_⟩
  · obtain ⟨k, hk, same, owned, stillOpen⟩ := contest.1 nobody
    exact chooses.ends_of_opened sound readable' hk (same.trans of.symm) owned now stillOpen
  · obtain ⟨k, hk, same, owned, closed⟩ := contest.2 somebody
    exact chooses.ends_of_taken sound readable' hk (same.trans of.symm) owned closed

def carl : Account.User :=
  { bob with
    id := .ofNat 8
    walletAddress := "0xc"
    username := "carl" }

def openJob : Job :=
  { siteJob with
    status := .opened
    freelancerId := none }

def bobsOffer : Application := { siteApplication with status := .pending }

def carlsOffer : Application :=
  { bobsOffer with
    id := .ofNat 9
    freelancerId := carl.id }

def contestStore : Store :=
  { Store.empty with
    users := [ann, bob, carl]
    jobs := [openJob]
    applications := [bobsOffer, carlsOffer] }

theorem contestStore_sound : contestStore.Sound := by
  have users := Store.addUser_sound (u := carl) annAndBob_sound rfl
  have jobs := Store.addJob_sound (j := openJob) users rfl
  have offer := Store.addApplication_sound (a := bobsOffer) jobs rfl
  exact Store.addApplication_sound (a := carlsOffer) offer rfl

def bobAccepted : Request where
  method := .put
  target := "/api/applications/00000000-0000-0000-0000-000000000005/status"
  headers := ("content-type", "application/json") :: removal.headers
  body := Text.Utf8.ofString "\x7b\"status\":\" ACCEPTED \"\x7d"

def carlAccepted : Request :=
  { bobAccepted with
    target := "/api/applications/00000000-0000-0000-0000-000000000009/status" }

theorem bobAccepted_body :
    bobAccepted.decodeBody StatusForm.decoder = .ok ⟨some " ACCEPTED "⟩ :=
  decodeBody_of_leading (by decide +kernel) (by decide +kernel) (by decide +kernel)

theorem acceptance_asks : (StatusForm.mk (some " ACCEPTED ")).AsksFor .accept :=
  ⟨_, rfl, by decide +kernel⟩

theorem bobAccepted_decides :
    plain.DecidesApplication ann.id bobsOffer.id ⟨some " ACCEPTED "⟩ firstMoment bobAccepted :=
  ⟨rfl, ⟨"00000000-0000-0000-0000-000000000005".toList, by decide +kernel,
    Http.pathId_eq_ok_iff.mpr (by decide +kernel)⟩, ann_known rfl, bobAccepted_body⟩

theorem carlAccepted_decides :
    plain.DecidesApplication ann.id carlsOffer.id ⟨some " ACCEPTED "⟩ firstMoment carlAccepted :=
  ⟨rfl, ⟨"00000000-0000-0000-0000-000000000009".toList, by decide +kernel,
    Http.pathId_eq_ok_iff.mpr (by decide +kernel)⟩, ann_known rfl, bobAccepted_body⟩

/-- A decision neither removes a job nor changes it. -/
theorem DecidesApplication.not_disturbs {caller job : Uuid}
    (decides : server.DecidesApplication caller id form ctx r) : ¬server.Disturbs job ctx r s := by
  obtain ⟨segment, path, _⟩ := decides.path
  rintro ⟨_, ⟨caller, removes⟩ | ⟨caller, form, updates, _⟩⟩
  · have method := decides.method
    rw [removes.method] at method
    cases method
  · obtain ⟨other, isJob, _⟩ := updates.path
    rw [path] at isJob
    cases isJob

theorem application_decisions_site :
    contestStore.Constrained ∧ contestStore.Readable ∧
      plain.AnswersDecision ann.id bobsOffer.id ⟨some " ACCEPTED "⟩ firstMoment bobAccepted
        contestStore ∧
      plain.Ends firstMoment bobAccepted contestStore 200
        (contestStore.decided .accept bobsOffer firstMoment.now) ∧
      plain.Ends firstMoment carlAccepted (plain.run [(firstMoment, bobAccepted)] contestStore) 409
        (plain.run [(firstMoment, bobAccepted)] contestStore) := by
  have holds := contestStore_sound.constrained
  have readable : contestStore.Readable := by constructor <;> decide
  obtain ⟨answers, contests⟩ := application_decisions plain
  have contest := contests contestStore holds readable openJob List.mem_cons_self rfl
  have choosesBob : plain.Chooses ann.id bobsOffer ⟨some " ACCEPTED "⟩ firstMoment bobAccepted
      contestStore :=
    ⟨bobAccepted_decides, acceptance_asks, List.mem_cons_self, rfl, rfl⟩
  have first := (contest [] nofun trivial bobsOffer _ firstMoment bobAccepted rfl (by decide)
    choosesBob).1 trivial
  rw [run] at first
  have after : plain.run [(firstMoment, bobAccepted)] contestStore =
      contestStore.decided .accept bobsOffer firstMoment.now := by
    rw [run, run]
    exact first.2
  have choosesCarl : plain.Chooses ann.id carlsOffer ⟨some " ACCEPTED "⟩ firstMoment carlAccepted
      (plain.run [(firstMoment, bobAccepted)] contestStore) := by
    rw [after]
    exact ⟨carlAccepted_decides, acceptance_asks, by decide, rfl, rfl⟩
  have second := contest [(firstMoment, bobAccepted)] (by decide)
    ⟨bobAccepted_decides.not_disturbs, trivial⟩ carlsOffer _ firstMoment carlAccepted rfl (by decide)
    choosesCarl
  refine ⟨holds, readable, answers contestStore holds _ _ _ _ _ bobAccepted_decides, first,
    second.2 fun nobody => ?_⟩
  exact nobody.1 ⟨bobsOffer, _, rfl, choosesBob⟩

/-- An application of `ann` for a job of `bob` with a time that cannot be read back. -/
def ancientOffer : Application :=
  { bobsOffer with
    jobId := ancientJob.id
    freelancerId := ann.id }

def ancientContest : Store := { ancientStore with applications := [ancientOffer] }

theorem ancientContest_sound : ancientContest.Sound :=
  Store.addApplication_sound (a := ancientOffer) ancientStore_sound rfl

/-- Not every decision on somebody else's job is answered with 403. -/
theorem ancient_application_not_forbidden :
    ancientContest.Constrained ∧ firstMoment.connected = true ∧
      plain.DecidesApplication ann.id ancientOffer.id ⟨some " ACCEPTED "⟩ firstMoment bobAccepted ∧
        (StatusForm.mk (some " ACCEPTED ")).AsksFor .accept ∧
          ancientOffer ∈ ancientContest.applications ∧ ancientJob ∈ ancientContest.jobs ∧
            ancientJob.id = ancientOffer.jobId ∧ ancientJob.clientId ≠ ann.id ∧
              (plain.handle firstMoment bobAccepted ancientContest).1.status = 500 := by
  have sound := ancientContest_sound
  have decides : plain.DecidesApplication ann.id ancientOffer.id ⟨some " ACCEPTED "⟩ firstMoment
      bobAccepted := bobAccepted_decides
  have answers := decides.answersOn (a := ancientOffer) (j := ancientJob) sound acceptance_asks rfl
    (.of_mem sound List.mem_cons_self List.mem_cons_self rfl)
  exact ⟨sound.constrained, rfl, decides, acceptance_asks, List.mem_cons_self, List.mem_cons_self,
    rfl, by decide, (answers.1 (by decide)).1⟩

end Server

end GigBoard
