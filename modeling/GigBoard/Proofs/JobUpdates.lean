import GigBoard.Proofs.Precedence
import GigBoard.Proofs.Sending
import GigBoard.Proofs.StorableTexts

/-!
# Partial updates of jobs

What a request to change a job is answered with, and what becomes of the job: each field that is given
has the given value, the others stay.  So updates compose field by field.
-/

set_option autoImplicit false

namespace GigBoard

open Hiring (Job JobChange JobChangeForm)
open Http (Request)

variable {ctx : Context} {r : Request} {s s' : Store} {caller id : Uuid} {j : Job}
  {form p q : JobChangeForm} {now : Timestamp}

/-! ## What a form says -/

namespace Hiring.JobChangeForm

/-- A form has a fault for a job: a blank title or category, a budget that is not above zero, a state
that has no name, or a state that the job cannot be put into. -/
inductive Faulty (form : JobChangeForm) (j : Job) : Prop where
  | title {text : String} (given : form.title = some text) (blank : Text.trim text = "")
  | category {text : String} (given : form.category = some text) (blank : Text.trim text = "")
  | budget {amount : Binary64} (given : form.budget = some amount)
      (notPositive : amount.isPositive = false)
  | unknown {text : String} (given : form.status = some text)
      (unnamed : ∀ status : JobStatus, Named.name status ≠ Text.trim text)
  | started {text : String} (given : form.status = some text)
      (named : Text.trim text = "IN_PROGRESS") (unassigned : j.freelancerId = none)
  | reopened {text : String} (given : form.status = some text) (named : Text.trim text = "OPEN")
      (assigned : j.freelancerId ≠ none)

def revise (form : JobChangeForm) (j : Job) (now : Timestamp) : Job :=
  { j with
    title := (form.title.map Text.trim).getD j.title
    description := (form.description.map Text.trim).getD j.description
    budget := form.budget.getD j.budget
    category := (form.category.map Text.trim).getD j.category
    status := (form.status.bind fun text => Named.ofName? (Text.trim text)).getD j.status
    updatedAt := now }

/-- The fields of two forms, of the second where both give one. -/
def overriddenBy (p q : JobChangeForm) : JobChangeForm where
  title := q.title.or p.title
  description := q.description.or p.description
  budget := q.budget.or p.budget
  category := q.category.or p.category
  status := q.status.or p.status

structure Disjoint (p q : JobChangeForm) : Prop where
  title : p.title = none ∨ q.title = none
  description : p.description = none ∨ q.description = none
  budget : p.budget = none ∨ q.budget = none
  category : p.category = none ∨ q.category = none
  status : p.status = none ∨ q.status = none

/-! ## Faults and forms together -/

/-- Of a job only the freelancer counts for the faults of a form. -/
theorem Faulty.of_same {k : Job} (same : k.freelancerId = j.freelancerId)
    (faulty : form.Faulty j) : form.Faulty k := by
  cases faulty with
  | title given blank => exact .title given blank
  | category given blank => exact .category given blank
  | budget given notPositive => exact .budget given notPositive
  | unknown given unnamed => exact .unknown given unnamed
  | started given named unassigned => exact .started given named (same.trans unassigned)
  | reopened given named assigned => exact .reopened given named (same ▸ assigned)

theorem faulty_revise_iff : q.Faulty (p.revise j now) ↔ q.Faulty j :=
  ⟨.of_same rfl, .of_same rfl⟩

theorem Faulty.of_overriddenBy (faulty : (p.overriddenBy q).Faulty j) :
    p.Faulty j ∨ q.Faulty j := by
  cases faulty with
  | title given blank =>
      rcases Option.or_eq_some_iff.mp given with given | ⟨_, given⟩
      · exact .inr (.title given blank)
      · exact .inl (.title given blank)
  | category given blank =>
      rcases Option.or_eq_some_iff.mp given with given | ⟨_, given⟩
      · exact .inr (.category given blank)
      · exact .inl (.category given blank)
  | budget given notPositive =>
      rcases Option.or_eq_some_iff.mp given with given | ⟨_, given⟩
      · exact .inr (.budget given notPositive)
      · exact .inl (.budget given notPositive)
  | unknown given unnamed =>
      rcases Option.or_eq_some_iff.mp given with given | ⟨_, given⟩
      · exact .inr (.unknown given unnamed)
      · exact .inl (.unknown given unnamed)
  | started given named unassigned =>
      rcases Option.or_eq_some_iff.mp given with given | ⟨_, given⟩
      · exact .inr (.started given named unassigned)
      · exact .inl (.started given named unassigned)
  | reopened given named assigned =>
      rcases Option.or_eq_some_iff.mp given with given | ⟨_, given⟩
      · exact .inr (.reopened given named assigned)
      · exact .inl (.reopened given named assigned)

theorem overriddenBy_self (p : JobChangeForm) : p.overriddenBy p = p := by
  simp [overriddenBy]

theorem Disjoint.overriddenBy_comm (disjoint : p.Disjoint q) :
    p.overriddenBy q = q.overriddenBy p := by
  have either {α : Type} {x y : Option α} (none : x = none ∨ y = none) : y.or x = x.or y := by
    rcases none with rfl | rfl <;> simp
  simp only [overriddenBy, JobChangeForm.mk.injEq]
  exact ⟨either disjoint.title, either disjoint.description, either disjoint.budget,
    either disjoint.category, either disjoint.status⟩

/-- One form after another does what both do together. -/
theorem revise_revise (known : ¬q.Faulty j) (before after both : Timestamp) :
    q.revise (p.revise j before) after =
      { (p.overriddenBy q).revise j both with updatedAt := after } := by
  have later {α : Type} (x y : Option α) (z : α) : x.getD (y.getD z) = (x.or y).getD z := by
    cases x <;> rfl
  have state : (q.status.bind fun text => Named.ofName? (Text.trim text)).or
      (p.status.bind fun text => (Named.ofName? (Text.trim text) : Option JobStatus)) =
        (q.status.or p.status).bind fun text => Named.ofName? (Text.trim text) := by
    cases given : q.status with
    | none => simp
    | some text =>
        cases named : (Named.ofName? (Text.trim text) : Option JobStatus) with
        | none =>
            refine absurd (.unknown given fun status same => ?_) known
            rw [(JobStatus.ofName?_eq_some_iff status _).mpr same] at named
            cases named
        | some status => simp [named]
  simp only [revise, later, state, overriddenBy, Option.map_or]

end Hiring.JobChangeForm

/-! ## Checking a form -/

namespace Hiring.JobChange

theorem filledText_of_filled {field : String} {value : Option String}
    (filled : ∀ text, value = some text → Text.trim text ≠ "") :
    filledText field value = .ok (value.map Text.trim) := by
  cases value with
  | none => rfl
  | some text =>
      have left := Text.nonBlank?_eq_some_iff.mpr ⟨rfl, filled text rfl⟩
      rw [filledText, left]
      rfl

theorem filledText_ok {field text : String} {value given : Option String}
    (ok : filledText field value = .ok given) (is : value = some text) : Text.trim text ≠ "" := by
  subst is
  intro blank
  rw [filledText, Text.nonBlank?_eq_none_iff.mpr blank] at ok
  cases ok

theorem givenAmount_of_positive {field : String} {value : Option Binary64}
    (positive : ∀ amount, value = some amount → amount.isPositive = true) :
    givenAmount field value = .ok value := by
  cases value with
  | none => rfl
  | some amount =>
      rw [givenAmount, positiveAmount, if_pos (positive amount rfl)]
      rfl

theorem givenAmount_ok {field : String} {value given : Option Binary64} {amount : Binary64}
    (ok : givenAmount field value = .ok given) (is : value = some amount) :
    amount.isPositive = true := by
  subst is
  by_contra notPositive
  rw [givenAmount, positiveAmount, if_neg notPositive] at ok
  cases ok

theorem givenStatus_of_named {value : Option String}
    (named : ∀ text, value = some text → ∃ status : JobStatus, Named.name status = Text.trim text) :
    givenStatus value = .ok (value.bind fun text => Named.ofName? (Text.trim text)) := by
  cases value with
  | none => rfl
  | some text =>
      obtain ⟨status, isName⟩ := named text rfl
      have found := (JobStatus.ofName?_eq_some_iff status _).mpr isName
      rw [givenStatus, Named.read, found, Option.bind_some, found]
      rfl

theorem givenStatus_ok {text : String} {value : Option String} {given : Option JobStatus}
    (ok : givenStatus value = .ok given) (is : value = some text) :
    ∃ status : JobStatus, given = some status ∧ Named.name status = Text.trim text := by
  subst is
  cases read : (Named.read text : Except UnknownName JobStatus) with
  | error name =>
      rw [givenStatus, read] at ok
      cases ok
  | ok status =>
      rw [givenStatus, read] at ok
      cases ok
      exact ⟨status, rfl, (JobStatus.read_eq_ok_iff status text).mp read⟩

theorem checkStatus_of_allowed {status : Option JobStatus}
    (started : status = some .inProgress → j.freelancerId ≠ none)
    (opened : status = some .opened → j.freelancerId = none) : checkStatus status j = .ok () := by
  rw [checkStatus, if_neg fun both => started both.1 both.2, if_neg fun both => both.2 (opened both.1)]

theorem named_injective {status status' : JobStatus} (same : Named.name status = Named.name status') :
    status = status' := by
  have found := (JobStatus.ofName?_eq_some_iff status _).mpr same
  rw [(JobStatus.ofName?_eq_some_iff status' _).mpr rfl] at found
  exact (Option.some.inj found).symm

/-- A form without faults makes the change that it says. -/
theorem ofForm_of_faultless (faultless : ¬form.Faulty j) : ∃ change,
    ofForm form j = .ok change ∧ ∀ now, change.apply j now = form.revise j now := by
  have title : filledText "title" form.title = .ok (form.title.map Text.trim) :=
    filledText_of_filled fun text given blank => faultless (.title given blank)
  have category : filledText "category" form.category = .ok (form.category.map Text.trim) :=
    filledText_of_filled fun text given blank => faultless (.category given blank)
  have budget : givenAmount "budget" form.budget = .ok form.budget := by
    refine givenAmount_of_positive fun amount given => ?_
    by_contra notPositive
    exact faultless (.budget given (by simpa using notPositive))
  have status : givenStatus form.status = _ := givenStatus_of_named fun text given => by
    by_contra unnamed
    push Not at unnamed
    exact faultless (.unknown given unnamed)
  have allowed : checkStatus (form.status.bind fun text => Named.ofName? (Text.trim text)) j =
      .ok () := by
    refine checkStatus_of_allowed (fun starts unassigned => ?_) (fun opens => ?_)
    · obtain ⟨text, given, named⟩ := Option.bind_eq_some_iff.mp starts
      have isName := (JobStatus.ofName?_eq_some_iff _ _).mp named
      exact faultless (.started given isName.symm unassigned)
    · obtain ⟨text, given, named⟩ := Option.bind_eq_some_iff.mp opens
      have isName := (JobStatus.ofName?_eq_some_iff _ _).mp named
      by_contra assigned
      exact faultless (.reopened given isName.symm assigned)
  refine ⟨⟨_, form.description.map Text.trim, _, _, _⟩, ?_, fun now => rfl⟩
  rw [ofForm, title, category, budget, status]
  change (checkStatus _ j >>= fun _ => _) = _
  rw [allowed]
  rfl

theorem faultless_of_ofForm {change : JobChange} (asked : ofForm form j = .ok change) :
    ¬form.Faulty j := by
  unfold ofForm at asked
  obtain ⟨_, isTitle, asked⟩ := bind_ok asked
  obtain ⟨_, isCategory, asked⟩ := bind_ok asked
  obtain ⟨_, isBudget, asked⟩ := bind_ok asked
  obtain ⟨status, isStatus, asked⟩ := bind_ok asked
  obtain ⟨_, allowed, _⟩ := bind_ok asked
  obtain ⟨startable, openable⟩ := checkStatus_ok allowed
  intro faulty
  cases faulty with
  | title given blank => exact filledText_ok isTitle given blank
  | category given blank => exact filledText_ok isCategory given blank
  | budget given notPositive =>
      rw [givenAmount_ok isBudget given] at notPositive
      cases notPositive
  | unknown given unnamed =>
      obtain ⟨status, _, isName⟩ := givenStatus_ok isStatus given
      exact unnamed status isName
  | started given named unassigned =>
      obtain ⟨status, rfl, isName⟩ := givenStatus_ok isStatus given
      obtain rfl : status = .inProgress := named_injective (isName.trans named)
      exact startable rfl unassigned
  | reopened given named assigned =>
      obtain ⟨status, rfl, isName⟩ := givenStatus_ok isStatus given
      obtain rfl : status = .opened := named_injective (isName.trans named)
      exact assigned (openable rfl)

theorem filledText_tells (field : String) (value : Option String) :
    Tells 400 (filledText field value) := by
  unfold filledText
  split
  · exact .ok _
  · split
    · exact .error rfl
    · exact .ok _

theorem givenAmount_tells (field : String) (value : Option Binary64) :
    Tells 400 (givenAmount field value) := by
  unfold givenAmount positiveAmount
  split
  · exact .ok _
  · dsimp only
    split
    · exact .ok _
    · exact .error rfl

theorem givenStatus_tells (value : Option String) : Tells 400 (givenStatus value) := by
  unfold givenStatus
  split
  · exact .ok _
  · rename_i text
    cases (Named.read text : Except UnknownName JobStatus) with
    | error name => exact .error rfl
    | ok status => exact .ok _

theorem ofForm_tells (form : JobChangeForm) (j : Job) : Tells 400 (ofForm form j) := by
  refine .bind (filledText_tells _ _) fun _ => .bind (filledText_tells _ _) fun _ => ?_
  refine .bind (givenAmount_tells _ _) fun _ => .bind (givenStatus_tells _) fun _ => ?_
  refine .bind ?_ fun _ => .ok _
  unfold checkStatus
  split
  · exact .error rfl
  · split
    · exact .error rfl
    · exact .ok _

theorem ofForm_of_faulty (faulty : form.Faulty j) :
    ∃ f, ofForm form j = .error f ∧ f.problem.status = 400 :=
  (ofForm_tells form j).failed fun _ made => faultless_of_ofForm made faulty

end Hiring.JobChange

/-! ## The row of a job -/

namespace Store

def withJobRevised (s : Store) (id : Uuid) (form : JobChangeForm) (now : Timestamp) : Store :=
  { s with jobs := s.jobs.map fun k => if k.id = id then form.revise k now else k }

def withJobTime (s : Store) (id : Uuid) (now : Timestamp) : Store :=
  { s with jobs := s.jobs.map fun k => if k.id = id then { k with updatedAt := now } else k }

/-- What is shown of a job beside its own row can be read back: its milestones and its two users. -/
def ShowsJob (s : Store) (j : Job) : Prop :=
  (∀ m ∈ s.milestones, m.jobId = j.id → m.isReadable = true) ∧
    ∀ u ∈ s.users, u.id ∈ Hiring.partiesOf [j] → u.isReadable = true

theorem FindsJob.revised (found : s.FindsJob id j) :
    (s.withJobRevised id form now).FindsJob id (form.revise j now) := by
  have again := Rows.find?_map_update Job.id
    (fun k => if k.id = id then form.revise k now else k) (fun k => by split <;> rfl) found
  rw [if_pos found.id_eq] at again
  exact again

/-- Replacing the row of a job is the same as revising it, as there is but one. -/
theorem map_revise (unique : Rows.Unique Job.id s.jobs) (found : s.FindsJob id j) :
    { s with jobs := s.jobs.map fun k => if k.id = j.id then form.revise j now else k } =
      s.withJobRevised id form now := by
  rw [withJobRevised, found.id_eq]
  congr 1
  exact unique.map_change_congr found.mem found.id_eq rfl

theorem revise_fits_iff (fits : j.fits = true) :
    (form.revise j now).fits = true ↔ (Call.updateJob caller id form).Storable := by
  constructor
  · intro fits'
    simp only [Job.fits, Bool.and_eq_true, ← Text.fits_some_iff, ← Text.fits_none_iff] at fits'
    obtain ⟨⟨title, description⟩, category⟩ := fits'
    simp only [Call.Storable, Call.texts, List.forall_mem_cons]
    refine ⟨fun t is => ?_, fun t is => ?_, fun t is => ?_, List.forall_mem_nil _⟩
    · rwa [JobChangeForm.revise, is] at title
    · rwa [JobChangeForm.revise, is] at description
    · rwa [JobChangeForm.revise, is] at category
  · intro storable
    simp only [Call.Storable, Call.texts, List.forall_mem_cons] at storable
    obtain ⟨title, description, category, _⟩ := storable
    simp only [Job.fits, Bool.and_eq_true] at fits ⊢
    refine ⟨⟨?_, ?_⟩, ?_⟩
    · exact Hiring.JobChange.getD_of (p := fun t => Text.fitsColumn 255 t = true)
        (fun t is => (title t is).fitsColumn) fits.1.1
    · exact Hiring.JobChange.getD_of (p := fun t => Text.isStorable t = true)
        (fun t is => (description t is).isStorable) fits.1.2
    · exact Hiring.JobChange.getD_of (p := fun t => Text.fitsColumn 100 t = true)
        (fun t is => (category t is).fitsColumn) fits.2

end Store

namespace Hiring

theorem milestonesOf_of_shown (shows : s.ShowsJob j) : ∃ ms, Store.milestonesOf [j.id] s = .ok ms := by
  refine ⟨_, Store.readRows_of_all fun m hm => ?_⟩
  obtain ⟨member, own⟩ := List.mem_filter.mp (List.mem_mergeSort.mp hm)
  exact shows.1 m member (by simpa using own)

theorem viewJob_of_shown (shows : s.ShowsJob j) :
    ∃ v, viewJob j (partiesOf [j]) ctx s = (.ok v, s) := by
  obtain ⟨ms, milestones⟩ := milestonesOf_of_shown shows
  have users := Store.usersWithIds_of_all shows.2
  exact ⟨_, (Action.bind_of_ok (Action.query_of_ok milestones)).trans
    ((Action.bind_of_ok (Action.query_of_ok users)).trans rfl)⟩

theorem viewJob_of_not_shown (hidden : ¬s.ShowsJob j) :
    viewJob j (partiesOf [j]) ctx s = (.error (.store .unreadable), s) := by
  by_cases milestones : ∀ m ∈ s.milestones, m.jobId = j.id → m.isReadable = true
  · have loaded : Store.milestonesOf [j.id] s = .ok _ := Store.readRows_of_all fun m hm => by
      obtain ⟨member, own⟩ := List.mem_filter.mp (List.mem_mergeSort.mp hm)
      exact milestones m member (by simpa using own)
    have users : ¬∀ u ∈ s.users, u.id ∈ partiesOf [j] → u.isReadable = true :=
      fun users => hidden ⟨milestones, users⟩
    push Not at users
    obtain ⟨u, hu, asked, unreadable⟩ := users
    have failed := Store.usersWithIds_of_unreadable hu asked (by simpa using unreadable)
    refine (Action.bind_of_ok (Action.query_of_ok loaded)).trans (Action.bind_of_error ?_)
    rw [Action.query, failed]
  · push Not at milestones
    obtain ⟨m, hm, own, unreadable⟩ := milestones
    have failed : Store.milestonesOf [j.id] s = .error .unreadable :=
      Store.readRows_of_unreadable (List.mem_mergeSort.mpr
        (List.mem_filter.mpr ⟨hm, by simpa using own⟩)) (by simpa using unreadable)
    apply Action.bind_of_error
    rw [Action.query, failed]

theorem reload_of_shown (found : s.FindsJob id j) (readable : j.isReadable = true)
    (shows : s.ShowsJob j) :
    ∃ v, (findJob id >>= fun k => viewJob k (partiesOf [k])) ctx s = (.ok v, s) := by
  obtain ⟨v, isView⟩ := @viewJob_of_shown ctx _ _ shows
  exact ⟨v, (Action.bind_of_ok (findJob_of_readable found readable)).trans isView⟩

theorem reload_of_hidden (found : s.FindsJob id j)
    (hidden : ¬(j.isReadable = true ∧ s.ShowsJob j)) :
    (findJob id >>= fun k => viewJob k (partiesOf [k])) ctx s =
      (.error (.store .unreadable), s) := by
  by_cases readable : j.isReadable = true
  · exact (Action.bind_of_ok (findJob_of_readable found readable)).trans
      (viewJob_of_not_shown fun shows => hidden ⟨readable, shows⟩)
  · exact Action.bind_of_error (findJob_of_unreadable found readable)

/-! ## Changing a job -/

section Loaded

variable (connected : ctx.connected = true) (loaded : findJob id ctx s = (.ok j, s))

include connected loaded

theorem updateJob_of_other (other : j.clientId ≠ caller) :
    updateJob caller id form ctx s = (.error (.notOwner "update"), s) := by
  rw [updateJob, Action.bind_of_ok (Action.connect_of_connected connected),
    Action.bind_of_ok loaded]
  exact Action.bind_of_error (Action.require_of_false (decide_eq_false other))

variable (owned : j.clientId = caller)

include owned

theorem updateJob_of_faulty (faulty : form.Faulty j) :
    ∃ f, updateJob caller id form ctx s = (.error f, s) ∧ f.problem.status = 400 := by
  obtain ⟨f, failed, told⟩ := JobChange.ofForm_of_faulty faulty
  refine ⟨f, ?_, told⟩
  rw [updateJob, Action.bind_of_ok (Action.connect_of_connected connected),
    Action.bind_of_ok loaded, Action.bind_of_ok (Action.require_of_true (decide_eq_true owned)),
    failed]
  exact Action.bind_of_error rfl

/-- A form without faults comes to the statement that replaces the row, and then to what is shown. -/
theorem updateJob_of_faultless (faultless : ¬form.Faulty j) :
    updateJob caller id form ctx s =
      (Action.change (Store.replaceJob (form.revise j ctx.now)) .store >>= fun _ =>
        findJob id >>= fun k => viewJob k (partiesOf [k])) ctx s := by
  obtain ⟨change, made, is⟩ := JobChange.ofForm_of_faultless faultless
  rw [updateJob, Action.bind_of_ok (Action.connect_of_connected connected),
    Action.bind_of_ok loaded, Action.bind_of_ok (Action.require_of_true (decide_eq_true owned)),
    made, ← is]
  exact (Action.bind_of_ok rfl).trans (Action.bind_of_ok rfl)

variable (faultless : ¬form.Faulty j)

include faultless

theorem updateJob_of_unfit (unfit : ¬(form.revise j ctx.now).fits = true) :
    updateJob caller id form ctx s = (.error (.store .rejected), s) := by
  have refused : Store.replaceJob (form.revise j ctx.now) s = .error .rejected := by
    rw [Store.replaceJob, if_pos (by simpa using unfit)]
  rw [updateJob_of_faultless connected loaded owned faultless]
  exact Action.bind_of_error (Action.change_of_error refused)

theorem updateJob_of_fit (unique : Rows.Unique Job.id s.jobs) (found : s.FindsJob id j)
    (fit : (form.revise j ctx.now).fits = true) :
    updateJob caller id form ctx s =
      (findJob id >>= fun k => viewJob k (partiesOf [k])) ctx
        (s.withJobRevised id form ctx.now) := by
  have written : Store.replaceJob (form.revise j ctx.now) s =
      .ok ((), s.withJobRevised id form ctx.now) := by
    rw [Store.replaceJob, if_neg (by simp [fit])]
    exact congrArg (fun t => Except.ok ((), t)) (Store.map_revise unique found)
  rw [updateJob_of_faultless connected loaded owned faultless,
    Action.bind_of_ok (Action.change_of_ok written)]

end Loaded

end Hiring

namespace Server

variable {server : Server}

/-- What a request to change a job is answered with.  It is answered with 500 if the store cannot be
reached or the row of the job cannot be read back, and when all is done if the time or something else
that is shown cannot. -/
def AnswersJobUpdate (server : Server) (caller id : Uuid) (form : JobChangeForm) (ctx : Context)
    (r : Request) (s : Store) : Prop :=
  FirstOf [
    (ctx.connected = false, server.Ends ctx r s 500 s),
    (∀ j ∈ s.jobs, j.id ≠ id, server.Ends ctx r s 404 s)]
  (∃ j ∈ s.jobs, j.id = id ∧ FirstOf [
    (¬j.isReadable = true, server.Ends ctx r s 500 s),
    (j.clientId ≠ caller, server.Ends ctx r s 403 s),
    (form.Faulty j, server.Ends ctx r s 400 s),
    (¬(Call.updateJob caller id form).Storable, server.Ends ctx r s 500 s),
    (¬(ctx.now.isRepresentable = true ∧ s.ShowsJob j),
      server.Ends ctx r s 500 (s.withJobRevised id form ctx.now))]
  (server.Ends ctx r s 200 (s.withJobRevised id form ctx.now)))

namespace UpdatesJob

variable (updates : server.UpdatesJob caller id form ctx r)

include updates

theorem ends_of_error {f : Failure} (failed : Hiring.updateJob caller id form ctx s = (.error f, s')) :
    server.Ends ctx r s f.problem.status s' :=
  Server.ends_of_error (asked?_updateJob_iff.mpr updates) (Action.bind_of_error failed)

theorem ends_of_ok {v : Hiring.JobView} (shown : Hiring.updateJob caller id form ctx s = (.ok v, s')) :
    server.Ends ctx r s 200 s' :=
  Server.ends_of_ok (asked?_updateJob_iff.mpr updates) (Action.bind_of_ok shown)

theorem answersJobUpdate (sound : s.Sound) : server.AnswersJobUpdate caller id form ctx r s := by
  refine ⟨fun lost => ?_, fun isConnected => ?_⟩
  · exact updates.ends_of_error (Action.bind_of_error (Action.connect_of_lost lost))
  have connected : ctx.connected = true := by simpa using isConnected
  have connects := Action.connect_of_connected (s := s) connected
  refine ⟨fun missing => ?_, fun isThere => ?_⟩
  · exact updates.ends_of_error ((Action.bind_of_ok connects).trans
      (Action.bind_of_error (Hiring.findJob_of_missing missing)))
  push Not at isThere
  obtain ⟨j, hj, rfl⟩ := isThere
  have found : s.FindsJob j.id j := sound.keyed.jobId.find?_eq hj rfl
  refine ⟨j, hj, rfl, fun unreadable => ?_, fun isReadable => ?_⟩
  · exact updates.ends_of_error ((Action.bind_of_ok connects).trans
      (Action.bind_of_error (Hiring.findJob_of_unreadable found unreadable)))
  have readable := not_not.mp isReadable
  have loaded : Hiring.findJob j.id ctx s = (.ok j, s) :=
    Hiring.findJob_of_readable found readable
  refine ⟨fun other => ?_, fun isOwned => ?_⟩
  · exact updates.ends_of_error (Hiring.updateJob_of_other connected loaded other)
  have owned := not_not.mp isOwned
  refine ⟨fun faulty => ?_, fun faultless => ?_⟩
  · obtain ⟨f, failed, told⟩ := Hiring.updateJob_of_faulty connected loaded owned faulty
    rw [← told]
    exact updates.ends_of_error failed
  have fits : (form.revise j ctx.now).fits = true ↔ (Call.updateJob caller j.id form).Storable :=
    Store.revise_fits_iff (sound.fitting.jobs j hj)
  refine ⟨fun unstorable => ?_, fun isStorable => ?_⟩
  · exact updates.ends_of_error (Hiring.updateJob_of_unfit connected loaded owned faultless
      fun fit => unstorable (fits.mp fit))
  have written := Hiring.updateJob_of_fit connected loaded owned faultless sound.keyed.jobId found
    (fits.mpr (not_not.mp isStorable))
  have times : (form.revise j ctx.now).isReadable = true ↔ ctx.now.isRepresentable = true := by
    rw [Job.isReadable, Bool.and_eq_true] at readable
    rw [Job.isReadable, JobChangeForm.revise, readable.1, Bool.true_and]
  refine ⟨fun hidden => ?_, fun shown => ?_⟩
  · refine updates.ends_of_error (written.trans (Hiring.reload_of_hidden found.revised ?_))
    exact fun shown => hidden ⟨times.mp shown.1, shown.2⟩
  · obtain ⟨timely, shows⟩ := not_not.mp shown
    obtain ⟨v, isView⟩ := Hiring.reload_of_shown found.revised (times.mpr timely) shows
    exact updates.ends_of_ok (written.trans isView)

end UpdatesJob

end Server

/-! ## Updates one after another -/

/-- A store in which a form would be accepted for a job, by its client and in good time. -/
structure Store.AdmitsUpdate (s : Store) (caller id : Uuid) (form : JobChangeForm) (j : Job) :
    Prop where
  found : s.FindsJob id j
  readable : j.isReadable = true
  owned : j.clientId = caller
  faultless : ¬form.Faulty j
  storable : (Call.updateJob caller id form).Storable
  shows : s.ShowsJob j

namespace Store.AdmitsUpdate

theorem storable_overriddenBy (first : (Call.updateJob caller id p).Storable)
    (second : (Call.updateJob caller id q).Storable) :
    (Call.updateJob caller id (p.overriddenBy q)).Storable := by
  have either {size : Option Nat} {x y : Option String}
      (ofX : ∀ t, x.map Text.trim = some t → Text.Fits size t)
      (ofY : ∀ t, y.map Text.trim = some t → Text.Fits size t) :
      ∀ t, (y.or x).map Text.trim = some t → Text.Fits size t := by
    cases y with
    | none => exact ofX
    | some y => exact ofY
  simp only [Call.Storable, Call.texts, List.forall_mem_cons] at first second ⊢
  exact ⟨either first.1 second.1, either first.2.1 second.2.1, either first.2.2.1 second.2.2.1,
    List.forall_mem_nil _⟩

/-- What two forms one after another are accepted for, both together are. -/
theorem overriddenBy {k : Job} (first : s.AdmitsUpdate caller id p j)
    (second : (s.withJobRevised id p now).AdmitsUpdate caller id q k) :
    s.AdmitsUpdate caller id (p.overriddenBy q) j := by
  have isRevised : p.revise j now = k := Option.some.inj (first.found.revised.symm.trans second.found)
  subst isRevised
  refine { first with
    faultless := fun faulty => ?_
    storable := storable_overriddenBy first.storable second.storable }
  rcases faulty.of_overriddenBy with faulty | faulty
  · exact first.faultless faulty
  · exact second.faultless (JobChangeForm.faulty_revise_iff.mpr faulty)

/-- A form is accepted after another if it was before. -/
theorem after (admits : s.AdmitsUpdate caller id q j) (timely : now.isRepresentable = true)
    (p : JobChangeForm) :
    (s.withJobRevised id p now).AdmitsUpdate caller id q (p.revise j now) where
  found := admits.found.revised
  readable := by
    have created := admits.readable
    rw [Job.isReadable, Bool.and_eq_true] at created ⊢
    exact ⟨created.1, timely⟩
  owned := admits.owned
  faultless faulty := admits.faultless (JobChangeForm.faulty_revise_iff.mp faulty)
  storable := admits.storable
  shows := admits.shows

/-- A form that is accepted after another was so before. -/
theorem before {k : Job} (first : s.AdmitsUpdate caller id p j)
    (second : (s.withJobRevised id p now).AdmitsUpdate caller id q k) :
    s.AdmitsUpdate caller id q j := by
  have isRevised : p.revise j now = k := Option.some.inj (first.found.revised.symm.trans second.found)
  subst isRevised
  exact { first with
    faultless := fun faulty => second.faultless (JobChangeForm.faulty_revise_iff.mpr faulty)
    storable := second.storable }

theorem withJobTime_withJobRevised (s : Store) (id : Uuid) (p : JobChangeForm)
    (before after : Timestamp) :
    (s.withJobRevised id p before).withJobTime id after = s.withJobRevised id p after := by
  unfold withJobTime withJobRevised
  congr 1
  exact Rows.map_change_twice s.jobs fun _ => rfl

/-- Two updates one after another leave what both together leave, but for the time. -/
theorem withJobRevised_twice {k : Job} (unique : Rows.Unique Job.id s.jobs)
    (first : s.AdmitsUpdate caller id p j)
    (second : (s.withJobRevised id p now).AdmitsUpdate caller id q k) (later both : Timestamp) :
    s.withJobRevised id (p.overriddenBy q) both =
      ((s.withJobRevised id p now).withJobRevised id q later).withJobTime id both := by
  have known := (first.before second).faultless
  have once : ((s.jobs.map fun i => if i.id = id then p.revise i now else i).map fun i =>
      if i.id = id then q.revise i both else i) =
        s.jobs.map fun i => if i.id = id then q.revise (p.revise i now) both else i :=
    Rows.map_change_twice s.jobs fun _ => rfl
  have same : (p.overriddenBy q).revise j both = q.revise (p.revise j now) both :=
    (JobChangeForm.revise_revise known now both both).symm
  rw [withJobTime_withJobRevised]
  unfold withJobRevised
  congr 1
  exact (unique.map_change_congr first.found.mem first.found.id_eq same).trans once.symm

end Store.AdmitsUpdate

namespace Server

variable {server : Server}

namespace UpdatesJob

variable (updates : server.UpdatesJob caller id form ctx r) (sound : s.Sound)

include updates sound

theorem admits_of_answered (answered : (server.handle ctx r s).1.status = 200) :
    ctx.connected = true ∧ ctx.now.isRepresentable = true ∧
      ∃ j, s.AdmitsUpdate caller id form j := by
  have answers := updates.answersJobUpdate sound
  -- Every refusal has another status.
  have unsaid {status : Nat} {left : Store} (other : status ≠ 200) :
      ¬server.Ends ctx r s status left := not_ends answered other
  obtain ⟨before, j, hj, rfl, answers⟩ := answers.of_unsaid (by
    simp only [List.forall_mem_cons]
    exact ⟨unsaid (by decide), unsaid (by decide), List.forall_mem_nil _⟩)
  obtain ⟨refusals, _⟩ := answers.of_unsaid (by
    simp only [List.forall_mem_cons]
    exact ⟨unsaid (by decide), unsaid (by decide), unsaid (by decide), unsaid (by decide),
      unsaid (by decide), List.forall_mem_nil _⟩)
  simp only [List.forall_mem_cons] at before refusals
  obtain ⟨readable, owned, faultless, storable, shown, _⟩ := refusals
  obtain ⟨timely, shows⟩ := not_not.mp shown
  exact ⟨by simpa using before.1, timely, j, sound.keyed.jobId.find?_eq hj rfl, not_not.mp readable,
    not_not.mp owned, faultless, not_not.mp storable, shows⟩

theorem ends_of_admits (connected : ctx.connected = true) (timely : ctx.now.isRepresentable = true)
    (admits : s.AdmitsUpdate caller id form j) :
    server.Ends ctx r s 200 (s.withJobRevised id form ctx.now) := by
  have answers := updates.answersJobUpdate sound
  have isThere : ¬∀ k ∈ s.jobs, k.id ≠ id := fun missing =>
    missing j admits.found.mem admits.found.id_eq
  obtain ⟨k, hk, same, answers⟩ := answers.of_otherwise (by
    simp only [List.forall_mem_cons]
    exact ⟨by simp [connected], isThere, List.forall_mem_nil _⟩)
  obtain rfl := sound.keyed.jobId.eq_of_same hk admits.found.mem
    (same.trans admits.found.id_eq.symm)
  apply answers.of_otherwise
  simp only [List.forall_mem_cons]
  exact ⟨not_not.mpr admits.readable, not_not.mpr admits.owned, admits.faultless,
    not_not.mpr admits.storable, not_not.mpr ⟨timely, admits.shows⟩,
    List.forall_mem_nil _⟩

end UpdatesJob

def UpdatesTo (server : Server) (caller id : Uuid) (form : JobChangeForm) (s left : Store) : Prop :=
  ∃ ctx r, server.UpdatesJob caller id form ctx r ∧ server.Ends ctx r s 200 left

/-- Every request to change a job with a form is answered with 200 if the store can be reached and the
time can be read back, and leaves a store that depends on the time. -/
def GrantsUpdate (server : Server) (caller id : Uuid) (form : JobChangeForm) (s : Store)
    (left : Timestamp → Store) : Prop :=
  ∀ ctx r, server.UpdatesJob caller id form ctx r → ctx.connected = true →
    ctx.now.isRepresentable = true → server.Ends ctx r s 200 (left ctx.now)

/-- Updates of a job one after another: both together do the same, the same one again does nothing
more, and their order does not matter if they give different fields.  Only the time of the last change
of the job may differ. -/
structure JobUpdatesCompose (server : Server) (caller id : Uuid) (s : Store) : Prop where
  together : ∀ p q s₁ s₂, server.UpdatesTo caller id p s s₁ → server.UpdatesTo caller id q s₁ s₂ →
    server.GrantsUpdate caller id (p.overriddenBy q) s (s₂.withJobTime id)
  again : ∀ p s₁, server.UpdatesTo caller id p s s₁ →
    server.GrantsUpdate caller id p s₁ (s₁.withJobTime id)
  swapped : ∀ p q s₁ s₂, p.Disjoint q → server.UpdatesTo caller id p s s₁ →
    server.UpdatesTo caller id q s₁ s₂ → (∃ left, server.GrantsUpdate caller id q s left) ∧
      ∀ s', server.UpdatesTo caller id q s s' →
        server.GrantsUpdate caller id p s' (s₂.withJobTime id)

theorem UpdatesTo.admits (sound : s.Sound) (updates : server.UpdatesTo caller id form s s') :
    s'.Sound ∧ ∃ j now, now.isRepresentable = true ∧ s' = s.withJobRevised id form now ∧
      s.AdmitsUpdate caller id form j := by
  obtain ⟨ctx, r, updates, answered, rfl⟩ := updates
  obtain ⟨connected, timely, j, admits⟩ := updates.admits_of_answered sound answered
  exact ⟨server.handle_sound ctx r sound, j, ctx.now, timely,
    (updates.ends_of_admits sound connected timely admits).2, admits⟩

theorem grantsUpdate_of_admits (sound : s.Sound) (admits : s.AdmitsUpdate caller id form j)
    {left : Timestamp → Store} (is : ∀ now, s.withJobRevised id form now = left now) :
    server.GrantsUpdate caller id form s left := by
  intro ctx r updates connected timely
  rw [← is]
  exact updates.ends_of_admits sound connected timely admits

open Store.AdmitsUpdate (withJobRevised_twice withJobTime_withJobRevised)

theorem jobUpdatesCompose (server : Server) (sound : s.Sound) (caller id : Uuid) :
    server.JobUpdatesCompose caller id s := by
  have unique := sound.keyed.jobId
  constructor
  · intro p q s₁ s₂ first second
    obtain ⟨sound₁, j, t₁, _, rfl, admits⟩ := first.admits sound
    obtain ⟨_, k, t₂, _, rfl, admits'⟩ := second.admits sound₁
    exact grantsUpdate_of_admits sound (admits.overriddenBy admits') fun now =>
      withJobRevised_twice unique admits admits' t₂ now
  · intro p s₁ first
    obtain ⟨sound₁, j, t₁, timely, rfl, admits⟩ := first.admits sound
    have admits' := admits.after timely p
    refine grantsUpdate_of_admits sound₁ admits' fun now => ?_
    have twice := withJobRevised_twice unique admits admits' now now
    rw [JobChangeForm.overriddenBy_self, withJobTime_withJobRevised] at twice
    rw [← twice, withJobTime_withJobRevised]
  · intro p q s₁ s₂ disjoint first second
    obtain ⟨sound₁, j, t₁, _, rfl, admits⟩ := first.admits sound
    obtain ⟨_, k, t₂, _, rfl, admits'⟩ := second.admits sound₁
    have admitsQ := admits.before admits'
    refine ⟨⟨_, grantsUpdate_of_admits sound admitsQ fun _ => rfl⟩, fun s' instead => ?_⟩
    obtain ⟨sound', _, t, timely, rfl, _⟩ := instead.admits sound
    have admitsP := admits.after timely q
    refine grantsUpdate_of_admits sound' admitsP fun now => ?_
    have twice := withJobRevised_twice unique admits admits' t₂ now
    have swapped := withJobRevised_twice unique admitsQ admitsP now now
    rw [← disjoint.overriddenBy_comm, twice] at swapped
    simp only [withJobTime_withJobRevised] at swapped ⊢
    exact swapped.symm

/-- In a store that satisfies its constraints, a request to change a job is refused for the first thing
that speaks against it; else the job has the fields that the form gives, and nothing else is different.
Updates of a job compose. -/
theorem job_updates (server : Server) (s : Store) (holds : s.Constrained) :
    (∀ caller id form ctx r, server.UpdatesJob caller id form ctx r →
      server.AnswersJobUpdate caller id form ctx r s) ∧
    ∀ caller id, server.JobUpdatesCompose caller id s :=
  ⟨fun _ _ _ _ _ updates => updates.answersJobUpdate holds.sound,
    fun caller id => server.jobUpdatesCompose holds.sound caller id⟩

def jobUpdate (body : String) : Request :=
  { removal with
    method := .put
    headers := ("content-type", "application/json") :: removal.headers
    body := Text.Utf8.ofString body }

def retitling : Request := jobUpdate "\x7b\"title\":\" Shop \"\x7d"

def completion : Request := jobUpdate "\x7b\"status\":\"COMPLETED\"\x7d"

def retitledCompletion : Request :=
  jobUpdate "\x7b\"title\":\" Shop \",\"status\":\"COMPLETED\"\x7d"

theorem jobUpdate_updates {body : String}
    (read : (jobUpdate body).decodeBody JobChangeForm.decoder = .ok form) :
    plain.UpdatesJob ann.id siteJob.id form firstMoment (jobUpdate body) :=
  ⟨rfl, removal_removes.path, ann_known rfl, read⟩

theorem retitling_updates :
    plain.UpdatesJob ann.id siteJob.id ⟨some " Shop ", none, none, none, none⟩ firstMoment
      retitling :=
  jobUpdate_updates
    (decodeBody_of_leading (by decide +kernel) (by decide +kernel) (by decide +kernel))

theorem completion_updates :
    plain.UpdatesJob ann.id siteJob.id ⟨none, none, none, none, some "COMPLETED"⟩ firstMoment
      completion :=
  jobUpdate_updates
    (decodeBody_of_leading (by decide +kernel) (by decide +kernel) (by decide +kernel))

theorem retitledCompletion_updates :
    plain.UpdatesJob ann.id siteJob.id ⟨some " Shop ", none, none, none, some "COMPLETED"⟩
      firstMoment retitledCompletion :=
  jobUpdate_updates
    (decodeBody_of_leading (by decide +kernel) (by decide +kernel) (by decide +kernel))

theorem siteJob_admits {form : JobChangeForm} (made : (JobChange.ofForm form siteJob).isOk = true)
    (fits : (form.revise siteJob firstMoment.now).fits = true) :
    siteStore.AdmitsUpdate ann.id siteJob.id form siteJob where
  found := rfl
  readable := by decide
  owned := rfl
  faultless faulty := by
    obtain ⟨f, failed, _⟩ := JobChange.ofForm_of_faulty faulty
    rw [failed] at made
    cases made
  storable := (Store.revise_fits_iff rfl).mp fits
  shows := ⟨by decide, by decide⟩

theorem retitling_admitted :
    siteStore.AdmitsUpdate ann.id siteJob.id ⟨some " Shop ", none, none, none, none⟩ siteJob :=
  siteJob_admits (by decide +kernel) (by decide +kernel)

theorem completion_admitted :
    siteStore.AdmitsUpdate ann.id siteJob.id ⟨none, none, none, none, some "COMPLETED"⟩ siteJob :=
  siteJob_admits (by decide +kernel) (by decide +kernel)

theorem job_updates_site :
    siteStore.Constrained ∧
      plain.AnswersJobUpdate ann.id siteJob.id ⟨some " Shop ", none, none, none, none⟩ firstMoment
        retitling siteStore ∧
      ∃ s₁ s₂, plain.Ends firstMoment retitling siteStore 200 s₁ ∧
        plain.Ends firstMoment completion s₁ 200 s₂ ∧
          plain.Ends firstMoment retitledCompletion siteStore 200
            (s₂.withJobTime siteJob.id firstMoment.now) := by
  have sound := siteStore_sound
  obtain ⟨answers, composes⟩ := job_updates plain siteStore sound.constrained
  have timely : firstMoment.now.isRepresentable = true := by decide
  have first := retitling_updates.ends_of_admits sound rfl timely retitling_admitted
  have sound₁ := plain.handle_sound firstMoment retitling sound
  rw [first.2] at sound₁
  have second := completion_updates.ends_of_admits sound₁ rfl timely
    (completion_admitted.after timely _)
  have together := (composes ann.id siteJob.id).together _ _ _ _
    ⟨firstMoment, retitling, retitling_updates, first⟩
    ⟨firstMoment, completion, completion_updates, second⟩
  exact ⟨sound.constrained, answers _ _ _ _ _ retitling_updates, _, _, first, second,
    together firstMoment retitledCompletion retitledCompletion_updates rfl timely⟩

/-- Not every request to change somebody else's job is answered with 403. -/
theorem ancient_job_update_not_forbidden :
    ancientStore.Constrained ∧
      plain.UpdatesJob ann.id ancientJob.id ⟨some " Shop ", none, none, none, none⟩ firstMoment
        retitling ∧
      firstMoment.connected = true ∧ ancientJob ∈ ancientStore.jobs ∧
        ancientJob.clientId ≠ ann.id ∧
          (plain.handle firstMoment retitling ancientStore).1.status = 500 := by
  have answers := (retitling_updates.answersJobUpdate ancientStore_sound).of_otherwise (by
    simp only [List.forall_mem_cons]
    exact ⟨by decide, fun missing => missing ancientJob List.mem_cons_self rfl,
      List.forall_mem_nil _⟩)
  obtain ⟨j, hj, _, unreadable, _⟩ := answers
  obtain rfl : j = ancientJob := List.mem_singleton.mp hj
  exact ⟨ancientStore_sound.constrained, retitling_updates, rfl, List.mem_cons_self, by decide,
    (unreadable (by decide)).1⟩

end Server

end GigBoard
