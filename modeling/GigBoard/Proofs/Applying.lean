import GigBoard.Proofs.Deciding
import GigBoard.Proofs.Gains
import GigBoard.Proofs.History
import GigBoard.Proofs.Sending
import GigBoard.Proofs.Submissions

/-!
# Applying for jobs

What a request to apply for a job is answered with: what speaks against it is looked for in the job, then
in the form, then in the store, and the first of these is told.  An application that is made stands in
both lists where it belongs, and it is the only one of its freelancer as long as the job is there.
-/

set_option autoImplicit false

namespace GigBoard

open Hiring (Application ApplicationForm ApplicationView IsAmount Job)
open Http (Request)
open Text (HoldsNul)

variable {ctx : Context} {r : Request} {s s' : Store} {caller id : Uuid} {form : ApplicationForm}
  {budget : Binary64} {a : Application} {j : Job}

/-! ## The row of an application -/

def Hiring.ApplicationForm.application (form : ApplicationForm) (ctx : Context) (caller id : Uuid)
    (budget : Binary64) : Application where
  id := ctx.freshId 0
  jobId := id
  freelancerId := caller
  coverLetter := Text.trim (form.coverLetter.getD "")
  proposedBudget := budget
  status := .pending
  createdAt := ctx.now
  updatedAt := ctx.now

theorem Hiring.ApplicationForm.application_fits_iff :
    (form.application ctx caller id budget).fits = true ↔ ¬HoldsNul form.coverLetter :=
  Text.isStorable_trim_getD_iff

theorem Hiring.ApplicationForm.application_isReadable :
    (form.application ctx caller id budget).isReadable = ctx.now.isRepresentable :=
  Bool.and_self _

namespace Store

def withApplication (s : Store) (a : Application) : Store :=
  { s with applications := s.applications ++ [a] }

def HasApplied (s : Store) (freelancer id : Uuid) : Prop :=
  ∃ a ∈ s.applications, a.jobId = id ∧ a.freelancerId = freelancer

section Adding

variable (fits : a.fits = true)

theorem addApplication_of_unfit (unfit : ¬a.fits = true) :
    addApplication a s = .error .rejected := by
  rw [addApplication, if_pos (by simpa using unfit)]

include fits

theorem addApplication_of_taken
    (taken : s.HasApplied a.freelancerId a.jobId ∨ ∃ b ∈ s.applications, b.id = a.id) :
    addApplication a s = .error .duplicate := by
  rw [addApplication, if_neg (by simpa using fits), if_pos]
  rw [List.any_eq_true]
  rcases taken with ⟨b, hb, same⟩ | ⟨b, hb, same⟩
  · exact ⟨b, hb, by simp [same]⟩
  · exact ⟨b, hb, by simp [same]⟩

variable (first : ¬s.HasApplied a.freelancerId a.jobId) (fresh : ∀ b ∈ s.applications, b.id ≠ a.id)

include first fresh

theorem addApplication_of_first :
    addApplication a s =
      if s.hasJob a.jobId && s.hasUser a.freelancerId then .ok ((), s.withApplication a)
      else .error .missingReference := by
  have new : ¬(s.applications.any fun b =>
      b.id = a.id || (b.jobId = a.jobId && b.freelancerId = a.freelancerId)) = true := by
    rw [List.any_eq_true]
    rintro ⟨b, hb, same⟩
    rw [Bool.or_eq_true, Bool.and_eq_true, decide_eq_true_eq, decide_eq_true_eq,
      decide_eq_true_eq] at same
    exact same.elim (fresh b hb) fun applied => first ⟨b, hb, applied⟩
  rw [addApplication, if_neg (by simpa using fits), if_neg new]
  cases s.hasJob a.jobId && s.hasUser a.freelancerId <;> rfl

end Adding

end Store

/-! ## Filing an application -/

namespace Hiring

/-- An application is read again after it was added, and shown with its freelancer. -/
def showAdded (freelancer id : Uuid) : Action ApplicationView := do
  let a ← Action.expect (.store .noRow) (← Action.query (Store.application? id))
  let users ← Action.query (Store.usersWithIds [freelancer])
  Action.ofExcept (ApplicationView.withFreelancer users .ofUser a)

/-- What was added is shown if its times and the row of its freelancer can be read back. -/
theorem showAdded_eq {u : Account.User} (unique : Rows.Unique Account.User.id s.users)
    (fresh : ∀ b ∈ s.applications, b.id ≠ a.id) (hu : u ∈ s.users) (own : u.id = a.freelancerId) :
    showAdded a.freelancerId a.id ctx (s.withApplication a) =
      if a.isReadable = true ∧ u.isReadable = true then (.ok (a.viewWith u), s.withApplication a)
      else (.error (.store .unreadable), s.withApplication a) := by
  have read : Store.application? a.id (s.withApplication a) =
      Store.readRow Application.isReadable (some a) :=
    congrArg _ (Rows.find?_append_one Application.id fresh)
  have loaded : showAdded a.freelancerId a.id ctx (s.withApplication a) =
      if a.isReadable then showDecided a ctx (s.withApplication a)
      else (.error (.store .unreadable), s.withApplication a) :=
    Action.loadRow read
  rw [loaded]
  by_cases readable : a.isReadable = true
  · rw [if_pos readable]
    split
    · rename_i both
      have only : ∀ v ∈ s.users, v.id = a.freelancerId → v = u := fun v hv isOwn =>
        unique.eq_of_same hv hu (isOwn.trans own.symm)
      have known : (s.withApplication a).hasUser a.freelancerId = true :=
        (s.hasUser_iff _).mpr ⟨u, hu, own⟩
      obtain ⟨v, hv, isOwn, decided⟩ := @showDecided_of_readable ctx _ _ known
        fun v hv isOwn => only v hv isOwn ▸ both.2
      rw [decided, only v hv isOwn]
    · rename_i notBoth
      exact showDecided_of_unreadable (s := s.withApplication a) hu own
        fun timely => notBoth ⟨readable, timely⟩
  · rw [if_neg readable, if_neg fun both => readable both.1]

theorem applyForJob_of_lost (lost : ctx.connected = false) :
    applyForJob caller id form ctx s = (.error (.store .unavailable), s) :=
  Action.bind_of_error (Action.connect_of_lost lost)

section Connected

variable (connected : ctx.connected = true)

include connected

theorem applyForJob_of_unfound {f : Failure} (failed : findJob id ctx s = (.error f, s)) :
    applyForJob caller id form ctx s = (.error f, s) :=
  (Action.bind_of_ok (Action.connect_of_connected connected)).trans (Action.bind_of_error failed)

variable (loaded : findJob id ctx s = (.ok j, s))

include loaded

theorem applyForJob_of_unfree {f : Failure} (refused : checkApplicant j caller = .error f) :
    applyForJob caller id form ctx s = (.error f, s) := by
  rw [applyForJob, Action.bind_of_ok (Action.connect_of_connected connected),
    Action.bind_of_ok loaded, refused]
  exact Action.bind_of_error rfl

variable (free : checkApplicant j caller = .ok ())

include free

theorem applyForJob_of_unpaid {f : Failure}
    (refused : positiveAmount "proposedBudget" form.proposedBudget = .error f) :
    applyForJob caller id form ctx s = (.error f, s) := by
  rw [applyForJob, Action.bind_of_ok (Action.connect_of_connected connected),
    Action.bind_of_ok loaded, free, refused]
  exact (Action.bind_of_ok rfl).trans (Action.bind_of_error rfl)

variable (offers : IsAmount form.proposedBudget budget)

include offers

theorem applyForJob_of_free :
    applyForJob caller id form ctx s =
      (Action.change (Store.addApplication (form.application ctx caller id budget))
        Failure.alreadyApplied.onDuplicate >>= fun _ => showAdded caller (ctx.freshId 0)) ctx s := by
  rw [applyForJob, Action.bind_of_ok (Action.connect_of_connected connected),
    Action.bind_of_ok loaded, free, positiveAmount_eq_ok_iff.mpr offers]
  refine (Action.bind_of_ok rfl).trans ((Action.bind_of_ok rfl).trans ?_)
  exact Action.bind_of_ok rfl

theorem applyForJob_of_fault {fault : StoreFault}
    (refused : Store.addApplication (form.application ctx caller id budget) s = .error fault) :
    applyForJob caller id form ctx s = (.error (Failure.alreadyApplied.onDuplicate fault), s) := by
  rw [applyForJob_of_free connected loaded free offers]
  exact Action.bind_of_error (Action.change_of_error refused)

theorem applyForJob_of_added
    (added : Store.addApplication (form.application ctx caller id budget) s = .ok ((), s')) :
    applyForJob caller id form ctx s = showAdded caller (ctx.freshId 0) ctx s' := by
  rw [applyForJob_of_free connected loaded free offers]
  exact Action.bind_of_ok (Action.change_of_ok added)

end Connected

end Hiring

namespace Server

variable {server : Server} {freelancer : Uuid}

/-! ## One application for each job -/

/-- A job that is there after a request was there before, unless it has the identifier made up for the
request. -/
theorem hasJob_of_handle (sound : s.Sound) (other : ctx.freshId 0 ≠ id)
    (there : (server.handle ctx r s).2.hasJob id = true) : s.hasJob id = true := by
  obtain ⟨k, hk, isIt⟩ := (Store.hasJob_iff _ id).mp there
  have posted := (server.handle_posting_sublist ctx r sound).subset (List.mem_map_of_mem hk)
  rcases List.mem_append.mp posted with before | new
  · obtain ⟨j, hj, same⟩ := List.mem_map.mp before
    exact (Store.hasJob_iff _ id).mpr ⟨j, hj, (Prod.ext_iff.mp same).1.trans isIt⟩
  · have isNew : k.id = ctx.freshId 0 := (Prod.ext_iff.mp (List.mem_singleton.mp new)).1
    exact absurd (isNew.symm.trans isIt) other

/-- An application stays as long as its job. -/
theorem handle_hasApplied (sound : s.Sound)
    (there : (server.handle ctx r s).2.hasJob id = true) (applied : s.HasApplied freelancer id) :
    (server.handle ctx r s).2.HasApplied freelancer id := by
  obtain ⟨a, ha, rfl, rfl⟩ := applied
  have differ := server.handle_differences ctx r sound
  by_cases kept : ∃ b ∈ (server.handle ctx r s).2.applications, b.id = a.id
  · obtain ⟨b, hb, same⟩ := kept
    refine ⟨b, hb, ?_⟩
    rcases differ.application_eq_or_decided ha hb same with unchanged | ⟨_, _, decided⟩
    · rw [unchanged]
      exact ⟨rfl, rfl⟩
    · rw [decided]
      exact ⟨rfl, rfl⟩
  · push Not at kept
    obtain ⟨lost, _⟩ := differ.applications.removed a ha kept
    rw [lost] at there
    cases there

theorem run_hasApplied (server : Server) {steps : List (Context × Request)} (sound : s.Sound)
    (other : ∀ step ∈ steps, step.1.freshId 0 ≠ id)
    (applied : s.hasJob id = true → s.HasApplied freelancer id) :
    (server.run steps s).Sound ∧
      ((server.run steps s).hasJob id = true → (server.run steps s).HasApplied freelancer id) := by
  -- On the requests: the job is gone for good, or the application is still there.
  induction steps generalizing s with
  | nil => exact ⟨sound, applied⟩
  | cons step steps ih =>
      obtain ⟨ctx, r⟩ := step
      obtain ⟨notThis, notLater⟩ := List.forall_mem_cons.mp other
      refine ih (server.handle_sound ctx r sound) notLater fun there => ?_
      exact handle_hasApplied sound there (applied (hasJob_of_handle sound notThis there))

/-! ## Answers -/

/-- What a request to apply for a job that is there is answered with.  When the application is stored it
is answered with 500 all the same if the time or the row of the freelancer cannot be read back. -/
def AnswersApplicationFor (server : Server) (caller : Uuid) (form : ApplicationForm) (j : Job)
    (ctx : Context) (r : Request) (s : Store) : Prop :=
  FirstOf [
    (¬j.isReadable = true, server.Ends ctx r s 500 s),
    (j.status ≠ .opened, server.Ends ctx r s 400 s),
    (j.clientId = caller, server.Ends ctx r s 400 s),
    (∀ budget, ¬IsAmount form.proposedBudget budget, server.Ends ctx r s 400 s),
    (HoldsNul form.coverLetter, server.Ends ctx r s 500 s),
    (s.HasApplied caller j.id, server.Ends ctx r s 409 s),
    (∃ a ∈ s.applications, a.id = ctx.freshId 0, server.Ends ctx r s 409 s),
    (∀ u ∈ s.users, u.id ≠ caller, server.Ends ctx r s 500 s)]
  (∃ budget, IsAmount form.proposedBudget budget ∧ ∃ u ∈ s.users, u.id = caller ∧
    FirstOf [
      (¬(ctx.now.isRepresentable = true ∧ u.isReadable = true),
        server.Ends ctx r s 500 (s.withApplication (form.application ctx caller j.id budget)))]
    (server.EndsWith ctx r s 201
      ((form.application ctx caller j.id budget).viewWith u).toJson
      (s.withApplication (form.application ctx caller j.id budget))))

def AnswersApplication (server : Server) (caller id : Uuid) (form : ApplicationForm) (ctx : Context)
    (r : Request) (s : Store) : Prop :=
  FirstOf [
    (ctx.connected = false, server.Ends ctx r s 500 s),
    (∀ j ∈ s.jobs, j.id ≠ id, server.Ends ctx r s 404 s)]
  (∃ j ∈ s.jobs, j.id = id ∧ server.AnswersApplicationFor caller form j ctx r s)

namespace SubmitsApplication

variable (applies : server.SubmitsApplication caller id form ctx r)

include applies

theorem ends_of_error {f : Failure}
    (failed : Hiring.applyForJob caller id form ctx s = (.error f, s')) :
    server.Ends ctx r s f.problem.status s' :=
  Server.ends_of_error (asked?_applyForJob_iff.mpr applies) (Action.bind_of_error failed)

theorem endsWith_of_ok {v : ApplicationView}
    (shown : Hiring.applyForJob caller id form ctx s = (.ok v, s')) :
    server.EndsWith ctx r s 201 v.toJson s' :=
  Server.endsWith_of_ok (by rw [applies.method]; decide) (asked?_applyForJob_iff.mpr applies)
    (Action.bind_of_ok shown) rfl

/-- What a request is answered with when the application is stored. -/
theorem answersStored {u : Account.User} (sound : s.Sound)
    (fresh : ∀ a ∈ s.applications, a.id ≠ ctx.freshId 0) (hu : u ∈ s.users) (own : u.id = caller)
    (stored : Hiring.applyForJob caller id form ctx s =
      Hiring.showAdded caller (ctx.freshId 0) ctx
        (s.withApplication (form.application ctx caller id budget))) :
    FirstOf [
      (¬(ctx.now.isRepresentable = true ∧ u.isReadable = true),
        server.Ends ctx r s 500 (s.withApplication (form.application ctx caller id budget)))]
    (server.EndsWith ctx r s 201 ((form.application ctx caller id budget).viewWith u).toJson
      (s.withApplication (form.application ctx caller id budget))) := by
  have shown := @Hiring.showAdded_eq ctx _ (form.application ctx caller id budget) _
    sound.keyed.userId fresh hu own
  rw [ApplicationForm.application_isReadable] at shown
  refine ⟨fun hidden => ?_, fun visible => ?_⟩
  · exact applies.ends_of_error (stored.trans (shown.trans (if_neg hidden)))
  · exact applies.endsWith_of_ok (stored.trans (shown.trans (if_pos (not_not.mp visible))))

theorem answersApplicationFor (sound : s.Sound) (connected : ctx.connected = true)
    (found : s.FindsJob id j) : server.AnswersApplicationFor caller form j ctx r s := by
  obtain rfl := found.id_eq
  have refused {f : Failure} (failed : Hiring.applyForJob caller j.id form ctx s = (.error f, s)) :
      server.Ends ctx r s f.problem.status s :=
    applies.ends_of_error failed
  refine ⟨fun unreadable => refused (Hiring.applyForJob_of_unfound connected
    (Hiring.findJob_of_unreadable found unreadable)), fun isReadable => ?_⟩
  have loaded : Hiring.findJob j.id ctx s = (.ok j, s) :=
    Hiring.findJob_of_readable found (not_not.mp isReadable)
  have unfree {f : Failure} (failed : Hiring.checkApplicant j caller = .error f) :
      server.Ends ctx r s f.problem.status s :=
    refused (Hiring.applyForJob_of_unfree connected loaded failed)
  refine ⟨fun closed => unfree (if_pos closed), fun opened => ?_⟩
  refine ⟨fun own => unfree ((if_neg opened).trans (if_pos own)), fun notOwn => ?_⟩
  have free : Hiring.checkApplicant j caller = .ok () := (if_neg opened).trans (if_neg notOwn)
  refine ⟨fun nothing => ?_, fun something => ?_⟩
  · obtain ⟨f, failed, told⟩ := (Hiring.positiveAmount_tells _ _).failed fun budget ok =>
      nothing budget (Hiring.positiveAmount_eq_ok_iff.mp ok)
    rw [← told]
    exact refused (Hiring.applyForJob_of_unpaid connected loaded free failed)
  push Not at something
  obtain ⟨budget, offers⟩ := something
  have notAdded {fault : StoreFault} (refusal : Store.addApplication
      (form.application ctx caller j.id budget) s = .error fault) :
      server.Ends ctx r s (Failure.alreadyApplied.onDuplicate fault).problem.status s :=
    refused (Hiring.applyForJob_of_fault connected loaded free offers refusal)
  refine ⟨fun holds => notAdded (Store.addApplication_of_unfit fun fits =>
    ApplicationForm.application_fits_iff.mp fits holds), fun storable => ?_⟩
  have fits : (form.application ctx caller j.id budget).fits = true :=
    ApplicationForm.application_fits_iff.mpr storable
  refine ⟨fun again => notAdded (Store.addApplication_of_taken fits (.inl again)), fun first => ?_⟩
  refine ⟨fun used => notAdded (Store.addApplication_of_taken fits (.inr used)), fun unused => ?_⟩
  push Not at unused
  have added := Store.addApplication_of_first fits first unused
  have isJob : s.hasJob j.id = true := (s.hasJob_iff j.id).mpr ⟨j, found.mem, rfl⟩
  refine ⟨fun nobody => ?_, fun somebody => ?_⟩
  · have unknown : ¬s.hasUser caller = true := fun known => by
      obtain ⟨u, hu, own⟩ := (s.hasUser_iff caller).mp known
      exact nobody u hu own
    exact notAdded (added.trans (if_neg fun both => unknown (Bool.and_eq_true_iff.mp both).2))
  · push Not at somebody
    obtain ⟨u, hu, own⟩ := somebody
    have known : s.hasUser caller = true := (s.hasUser_iff caller).mpr ⟨u, hu, own⟩
    exact ⟨budget, offers, u, hu, own, applies.answersStored sound unused hu own
      (Hiring.applyForJob_of_added connected loaded free offers
        (added.trans (if_pos (Bool.and_eq_true_iff.mpr ⟨isJob, known⟩))))⟩

theorem answersApplication (sound : s.Sound) :
    server.AnswersApplication caller id form ctx r s := by
  refine ⟨fun lost => applies.ends_of_error (Hiring.applyForJob_of_lost lost), fun isConnected => ?_⟩
  have connected : ctx.connected = true := by simpa using isConnected
  refine ⟨fun missing => applies.ends_of_error (Hiring.applyForJob_of_unfound connected
    (Hiring.findJob_of_missing missing)), fun isThere => ?_⟩
  push Not at isThere
  obtain ⟨j, hj, rfl⟩ := isThere
  exact ⟨j, hj, rfl,
    applies.answersApplicationFor sound connected (sound.keyed.jobId.find?_eq hj rfl)⟩

end SubmitsApplication

/-! ## What comes after -/

/-- A user's applications for a job are refused, and leave the store alone. -/
def RefusesApplications (server : Server) (freelancer id : Uuid) (s : Store) : Prop :=
  ∀ ctx r form, server.SubmitsApplication freelancer id form ctx r →
    ∃ status ≥ 400, server.Ends ctx r s status s

/-- Who has applied for a job is refused as long as it is there, and then for want of it. -/
theorem refusesApplications (sound : s.Sound)
    (applied : s.hasJob id = true → s.HasApplied freelancer id) :
    server.RefusesApplications freelancer id s := by
  intro ctx r form applies
  have outer := applies.answersApplication sound
  by_cases lost : ctx.connected = false
  · exact ⟨500, by decide, outer.1 lost⟩
  have reached := outer.2 lost
  by_cases missing : ∀ j ∈ s.jobs, j.id ≠ id
  · exact ⟨404, by decide, reached.1 missing⟩
  obtain ⟨j, hj, rfl, inner⟩ := reached.2 missing
  have again := applied ((s.hasJob_iff j.id).mpr ⟨j, hj, rfl⟩)
  obtain ⟨c, hc, said⟩ := inner.of_applies (by
    simp only [List.mem_cons, exists_eq_or_imp]
    exact .inr (.inr (.inr (.inr (.inr (.inl again))))))
  simp only [List.mem_cons, List.not_mem_nil, or_false] at hc
  rcases hc with rfl | rfl | rfl | rfl | rfl | rfl | rfl | rfl
  all_goals exact ⟨_, by decide, said⟩

/-- What becomes of an application that is added to a store: the list for its job and that of its
freelancer gain it, and whatever is asked of the service from then on, every other application of the
freelancer for the job is refused; for no other job is given its identifier. -/
structure ApplicationCounts (server : Server) (a : Application) (s : Store) : Prop where
  forJob : server.ListGains s (s.withApplication a) (fun _ => ListsApplications a.jobId)
    ApplicationView.toJson ApplicationView.row a (∀ b ∈ s.applications, b.createdAt < a.createdAt)
  own : server.ListGains s (s.withApplication a) (server.ListsOwnApplications a.freelancerId)
    ApplicationView.toJson ApplicationView.row a (∀ b ∈ s.applications, b.createdAt < a.createdAt)
  once : ∀ steps : List (Context × Request), (∀ step ∈ steps, step.1.freshId 0 ≠ a.jobId) →
    server.RefusesApplications a.freelancerId a.jobId (server.run steps (s.withApplication a))

/-- An application that is added to a store counts. -/
theorem applicationCounts (server : Server) (sound : s.Sound) (found : s.FindsJob a.jobId j)
    (timely : a.isReadable = true)
    (added : Store.addApplication a s = .ok ((), s.withApplication a)) :
    server.ApplicationCounts a s := by
  have after := Store.addApplication_sound sound added
  have fewer (few : (s.withApplication a).FewerThan (2 ^ 62)) : s.applications.length < 2 ^ 62 := by
    have more := few.applications
    rw [Store.withApplication, List.length_append] at more
    omega
  refine ⟨?_, ?_, fun steps other => ?_⟩
  · refine .of_append (server.lists_applications s a.jobId) (server.lists_applications _ a.jobId)
      after.keyed.applicationId (decide_eq_true rfl) fun readable few ctx q connected => ?_
    exact ⟨Hiring.listApplications_succeeds (fewer few) sound.linked readable found q connected,
      Hiring.listApplications_succeeds few.applications after.linked
        (Store.addApplication_readable readable timely added) found q connected⟩
  · refine .of_append (server.lists_ownApplications sound.linked a.freelancerId)
      (server.lists_ownApplications after.linked a.freelancerId) after.keyed.applicationId
      (decide_eq_true rfl) fun readable few ctx q connected => ?_
    exact ⟨Hiring.listOwnApplications_succeeds (fewer few) readable _ q connected,
      Hiring.listOwnApplications_succeeds few.applications
        (Store.addApplication_readable readable timely added) _ q connected⟩
  · obtain ⟨later, applied⟩ := server.run_hasApplied after other
      fun _ => ⟨a, List.mem_append_right _ (List.mem_singleton.mpr rfl), rfl, rfl⟩
    exact refusesApplications later applied

/-- What is answered with 201 was added, and can be read back. -/
theorem SubmitsApplication.added_of_created (applies : server.SubmitsApplication caller id form ctx r)
    (sound : s.Sound) (created : (server.handle ctx r s).1.status = 201) :
    ∃ budget, IsAmount form.proposedBudget budget ∧ (∃ j, s.FindsJob id j) ∧
      ctx.now.isRepresentable = true ∧
      Store.addApplication (form.application ctx caller id budget) s =
        .ok ((), s.withApplication (form.application ctx caller id budget)) ∧
      (server.handle ctx r s).2 = s.withApplication (form.application ctx caller id budget) := by
  -- Every refusal has another status.
  have unsaid {status : Nat} {left : Store} (other : status ≠ 201) :
      ¬server.Ends ctx r s status left := not_ends created other
  obtain ⟨_, j, hj, rfl, inner⟩ := (applies.answersApplication sound).of_unsaid (by
    simp only [List.forall_mem_cons]
    exact ⟨unsaid (by decide), unsaid (by decide), nofun⟩)
  obtain ⟨none, budget, offers, u, hu, own, last⟩ := inner.of_unsaid (by
    simp only [List.forall_mem_cons]
    refine ⟨?_, ?_, ?_, ?_, ?_, ?_, ?_, ?_, nofun⟩
    all_goals exact unsaid (by decide))
  obtain ⟨visible, shown⟩ := last.of_unsaid (by
    simp only [List.forall_mem_cons]
    exact ⟨unsaid (by decide), nofun⟩)
  simp only [List.forall_mem_cons] at none visible
  obtain ⟨_, _, _, _, storable, first, unused, _⟩ := none
  push Not at unused
  have isJob : s.hasJob j.id = true := (s.hasJob_iff j.id).mpr ⟨j, hj, rfl⟩
  have known : s.hasUser caller = true := (s.hasUser_iff caller).mpr ⟨u, hu, own⟩
  have added := Store.addApplication_of_first (a := form.application ctx caller j.id budget)
    (ApplicationForm.application_fits_iff.mpr storable) first unused
  exact ⟨budget, offers, ⟨j, sound.keyed.jobId.find?_eq hj rfl⟩, (not_not.mp visible.1).1,
    added.trans (if_pos (Bool.and_eq_true_iff.mpr ⟨isJob, known⟩)), shown.ends.2⟩

/-- In a store that satisfies its constraints, a request to apply for a job is refused for the first thing
that speaks against it.  If nothing does, one application is added, pending and with the amount and the
trimmed letter of the form; both lists that it belongs to gain it, and the freelancer never applies for
the job again. -/
theorem job_applications (server : Server) (s : Store) (holds : s.Constrained) (caller id : Uuid)
    (form : ApplicationForm) (ctx : Context) (r : Request)
    (applies : server.SubmitsApplication caller id form ctx r) :
    server.AnswersApplication caller id form ctx r s ∧
      ((server.handle ctx r s).1.status = 201 →
        ∃ budget, IsAmount form.proposedBudget budget ∧
          (server.handle ctx r s).2 =
            s.withApplication (form.application ctx caller id budget) ∧
          server.ApplicationCounts (form.application ctx caller id budget) s) := by
  refine ⟨applies.answersApplication holds.sound, fun created => ?_⟩
  obtain ⟨budget, offers, ⟨j, found⟩, timely, added, left⟩ :=
    applies.added_of_created holds.sound created
  refine ⟨budget, offers, left, server.applicationCounts holds.sound found ?_ added⟩
  rw [ApplicationForm.application_isReadable, timely]

def bobsJob : Job := { ancientJob with createdAt := ⟨0⟩ }

def bobsStore : Store := { ancientStore with jobs := [bobsJob] }

theorem bobsStore_sound : bobsStore.Sound :=
  Store.addJob_sound (j := bobsJob) annAndBob_sound rfl

def annApplies : Request where
  method := .post
  target := "/api/jobs/00000000-0000-0000-0000-000000000003/apply"
  headers := ("content-type", "application/json") :: removal.headers
  body := Text.Utf8.ofString "\x7b\"coverLetter\":\" Hi \",\"proposedBudget\":1\x7d"

def annOffers : ApplicationForm := ⟨some " Hi ", some (.powerOfTen 0)⟩

theorem annApplies_submits :
    plain.SubmitsApplication ann.id bobsJob.id annOffers firstMoment annApplies where
  method := rfl
  path := ⟨"00000000-0000-0000-0000-000000000003".toList, by decide +kernel,
    Http.pathId_eq_ok_iff.mpr (by decide +kernel)⟩
  caller := ann_known rfl
  body := decodeBody_of_leading (by decide +kernel) (by decide +kernel) (by decide +kernel)

theorem job_applications_bob :
    bobsStore.Constrained ∧
      plain.SubmitsApplication ann.id bobsJob.id annOffers firstMoment annApplies ∧
      plain.AnswersApplication ann.id bobsJob.id annOffers firstMoment annApplies bobsStore ∧
      (plain.handle firstMoment annApplies bobsStore).1.status = 201 ∧
      plain.ApplicationCounts
        (annOffers.application firstMoment ann.id bobsJob.id (.powerOfTen 0)) bobsStore := by
  have holds := bobsStore_sound.constrained
  obtain ⟨answers, counts⟩ := job_applications plain bobsStore holds _ _ _ _ _ annApplies_submits
  have offered : IsAmount annOffers.proposedBudget (.powerOfTen 0) := ⟨rfl, by decide +kernel⟩
  obtain ⟨j, hj, _, inner⟩ := answers.of_otherwise (by
    simp only [List.forall_mem_cons]
    exact ⟨by decide, fun missing => missing bobsJob List.mem_cons_self rfl, nofun⟩)
  obtain rfl : j = bobsJob := List.mem_singleton.mp hj
  obtain ⟨_, _, u, hu, _, last⟩ := inner.of_otherwise (by
    simp only [List.forall_mem_cons]
    refine ⟨by decide, by decide, by decide, fun nothing => nothing _ offered, ?_, by rintro ⟨_, ⟨⟩, _⟩,
      by rintro ⟨_, ⟨⟩, _⟩, fun nobody => nobody ann List.mem_cons_self rfl, nofun⟩
    rintro ⟨_, ⟨⟩, holdsNul⟩
    exact holdsNul (by decide +kernel))
  have readable : ∀ u ∈ bobsStore.users, u.isReadable = true := by decide
  have shown := last.of_otherwise (by
    simp only [List.forall_mem_cons]
    exact ⟨not_not.mpr ⟨rfl, readable u hu⟩, nofun⟩)
  obtain ⟨_, same, _, made⟩ := counts shown.ends.1
  obtain rfl := Option.some.inj (same.1.symm.trans offered.1)
  exact ⟨holds, annApplies_submits, answers, shown.ends.1, made⟩

def annForgets : Request := { annApplies with body := Text.Utf8.ofString "\x7b\x7d" }

/-- Not every application without an amount for somebody's open job is answered with 400. -/
theorem ancient_job_application_not_refused :
    ancientStore.Constrained ∧ firstMoment.connected = true ∧
      plain.SubmitsApplication ann.id ancientJob.id ⟨none, none⟩ firstMoment annForgets ∧
      ancientJob ∈ ancientStore.jobs ∧ ancientJob.status = .opened ∧
        ancientJob.clientId ≠ ann.id ∧
          (plain.handle firstMoment annForgets ancientStore).1.status = 500 := by
  have submits : plain.SubmitsApplication ann.id ancientJob.id ⟨none, none⟩ firstMoment annForgets :=
    ⟨rfl, annApplies_submits.path, ann_known rfl,
      decodeBody_of_leading (by decide +kernel) (by decide +kernel) (by decide +kernel)⟩
  have answers := submits.answersApplicationFor (j := ancientJob) ancientStore_sound rfl rfl
  exact ⟨ancientStore_sound.constrained, rfl, submits, List.mem_cons_self, rfl, by decide,
    (answers.1 (by decide)).1⟩

end Server

end GigBoard
