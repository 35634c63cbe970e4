import GigBoard.Proofs.InternalErrors
import GigBoard.Proofs.JobUpdates
import GigBoard.Proofs.Submissions

/-!
# Posting jobs

What a request to post a job is answered with.  A job is posted with all of its milestones or not at
all; then its milestones are those that were sent, in the order in which they were sent, and every answer
about the job shows them so.
-/

set_option autoImplicit false

namespace GigBoard

open Account (User)
open Delivery (Milestone)
open Hiring (IsAmount IsText Job JobForm JobView MilestoneForm MilestoneView findJob partiesOf postJob
  storeJob viewJob)
open Http (Request Resource)

variable {ctx : Context} {r : Request} {s s' : Store} {caller id : Uuid} {form : JobForm} {job j : Job}
  {ms : List Milestone} {u : User}

/-! ## Forms -/

namespace Hiring

structure JobForm.IsFilled (form : JobForm) : Prop where
  title : ∃ t, IsText form.title t
  category : ∃ t, IsText form.category t
  budget : ∃ b, IsAmount form.budget b
  milestones : ∀ f ∈ form.milestones.getD [], (∃ t, IsText f.title t) ∧ ∃ b, IsAmount f.amount b

theorem JobForm.Makes.isFilled (makes : form.Makes caller ctx job ms) : form.IsFilled where
  title := ⟨_, makes.title⟩
  category := ⟨_, makes.category⟩
  budget := ⟨_, makes.budget⟩
  milestones := (makes.forall_forms_iff fun made =>
    iff_of_true ⟨⟨_, made.title⟩, _, made.amount⟩ trivial).mpr fun _ _ => trivial

theorem JobForm.IsFilled.makes (filled : form.IsFilled) (caller : Uuid) (ctx : Context) :
    ∃ job ms, form.Makes caller ctx job ms := by
  obtain ⟨⟨title, isTitle⟩, ⟨category, isCategory⟩, ⟨budget, isBudget⟩, milestones⟩ := filled
  have each : ∀ p ∈ (form.milestones.getD []).zipIdx, ∃ m,
      p.1.Makes (ctx.freshId (p.2 + 1)) (ctx.freshId 0) p.2 ctx.now m := by
    intro p hp
    obtain ⟨⟨t, isText⟩, b, isAmount⟩ := milestones p.1 (List.fst_mem_of_mem_zipIdx hp)
    exact ⟨⟨_, _, t, _, b, _, _, _, _⟩, rfl, rfl, isText, rfl, isAmount, rfl, rfl, rfl, rfl⟩
  obtain ⟨ms, made⟩ := Rows.exists_forall₂ each
  exact ⟨⟨_, title, _, budget, category, _, _, _, _, _⟩, ms, rfl, isTitle, rfl, isBudget, isCategory,
    rfl, rfl, rfl, rfl, rfl, made⟩

theorem MilestoneForm.toMilestone_tells (f : MilestoneForm) (key job : Uuid) (place : Nat)
    (now : Timestamp) : Tells 400 (f.toMilestone key job place now) :=
  .bind (requiredText_tells _ _) fun _ => .bind (positiveAmount_tells _ _) fun _ => .ok _

theorem JobForm.toMilestones_tells (freshId : Nat → Uuid) (job : Uuid) (now : Timestamp)
    (forms : List MilestoneForm) (order : Nat) :
    Tells 400 (toMilestones freshId job now order forms) := by
  induction forms generalizing order with
  | nil => exact .ok _
  | cons f forms ih => exact .bind (f.toMilestone_tells _ _ _ _) fun _ => .bind (ih _) fun _ => .ok _

theorem JobForm.toRows_tells (form : JobForm) (client : Uuid) (ctx : Context) :
    Tells 400 (form.toRows client ctx) :=
  .bind (requiredText_tells _ _) fun _ => .bind (requiredText_tells _ _) fun _ =>
    .bind (positiveAmount_tells _ _) fun _ => .bind (toMilestones_tells _ _ _ _ _) fun _ => .ok _

end Hiring

/-! ## Storing a job with its milestones -/

/-- An identifier made up for a job and so many milestones is in use, or is made up twice. -/
def Context.Repeats (ctx : Context) (s : Store) (count : Nat) : Prop :=
  (∃ j ∈ s.jobs, j.id = ctx.freshId 0) ∨
    ¬(s.milestones.map Milestone.id ++
      (List.range count).map fun place => ctx.freshId (place + 1)).Nodup

namespace Store

def withJob (s : Store) (job : Job) (ms : List Milestone) : Store :=
  { s with
    jobs := s.jobs ++ [job]
    milestones := s.milestones ++ ms }

end Store

namespace Hiring

theorem JobForm.Makes.repeats_iff (makes : form.Makes caller ctx job ms) :
    ¬ctx.Repeats s (form.milestones.getD []).length ↔
      (∀ j ∈ s.jobs, j.id ≠ job.id) ∧ Rows.Unique Milestone.id (s.milestones ++ ms) := by
  rw [Context.Repeats, makes.length_eq, ← makes.ids, ← makes.id, ← List.map_append, not_or, not_not,
    Rows.Unique]
  push Not
  rfl

theorem storeJob_sound (sound : s.Sound) (stored : storeJob job ms ctx s = (.ok (), s')) :
    s'.Sound := by
  obtain ⟨s₁, added, planned⟩ := storeJob_ensures job ms () s' stored
  exact Store.addMilestones_sound (Store.addJob_sound sound added) planned

/-- All that the store asks of a job and its milestones before it keeps them. -/
theorem storeJob_eq_ok_iff (makes : form.Makes caller ctx job ms) (sound : s.Sound) :
    storeJob job ms ctx s = (.ok (), s') ↔
      ((Call.postJob caller form).Storable ∧ ¬(Call.postJob caller form).Crowded ∧
        s.hasUser caller = true ∧ ¬ctx.Repeats s (form.milestones.getD []).length) ∧
          s' = s.withJob job ms := by
  rw [makes.repeats_iff, makes.fits_iff]
  constructor
  · intro stored
    have after := storeJob_sound sound stored
    have few : ¬(Call.postJob caller form).Crowded := by
      rw [Call.Crowded, makes.length_eq]
      intro many
      obtain ⟨f, s₂, failed, _⟩ : ∃ f s₂, storeJob job ms ctx s = (.error f, s₂) ∧ f.IsInternal :=
        storeJob_of_crowd many
      cases stored.symm.trans failed
    obtain ⟨s₁, added, planned⟩ := storeJob_ensures job ms () s' stored
    obtain ⟨jobFits, unknown, client, _, rfl⟩ := Store.addJob_ok added
    obtain ⟨fit, _, _, _, rfl⟩ := Store.addMilestones_ok planned
    exact ⟨⟨⟨jobFits, fit⟩, few, makes.clientId ▸ client, unknown, after.keyed.milestoneId⟩, rfl⟩
  · rintro ⟨⟨⟨jobFits, fit⟩, few, client, unknown, unused⟩, rfl⟩
    rcases ended : storeJob job ms ctx s with ⟨f | _, s'⟩
    · rcases storeJob_confined makes sound.linked unknown (fun _ => unused) f s' ended
        (storeJob_internal ended) with ⟨_, unstorable | crowded⟩ | ⟨_, stranger⟩
      · exact absurd (makes.fits_iff.mpr ⟨jobFits, fit⟩) unstorable
      · exact absurd crowded few
      · exact absurd client stranger
    · obtain ⟨s₁, added, planned⟩ := storeJob_ensures job ms () s' ended
      obtain ⟨_, _, _, _, rfl⟩ := Store.addJob_ok added
      obtain ⟨_, _, _, _, rfl⟩ := Store.addMilestones_ok planned
      rfl

theorem postJob_of_lost (makes : form.Makes caller ctx job ms) (lost : ctx.connected = false) :
    postJob caller form ctx s = (.error (.store .unavailable), s) := by
  unfold postJob
  refine (Action.bind_of_ok rfl).trans ?_
  rw [JobForm.toRows_eq_ok_iff.mpr makes]
  exact (Action.bind_of_ok rfl).trans (Action.bind_of_error (Action.connect_of_lost lost))

theorem postJob_of_unfilled (unfilled : ¬form.IsFilled) :
    ∃ f, postJob caller form ctx s = (.error f, s) ∧ f.problem.status = 400 := by
  obtain ⟨f, failed, told⟩ := (form.toRows_tells caller ctx).failed fun rows made =>
    unfilled (JobForm.toRows_eq_ok_iff.mp made).isFilled
  refine ⟨f, ?_, told⟩
  unfold postJob
  refine (Action.bind_of_ok rfl).trans ?_
  rw [failed]
  exact Action.bind_of_error rfl

theorem postJob_of_stored (makes : form.Makes caller ctx job ms) (connected : ctx.connected = true)
    (stored : storeJob job ms ctx s = (.ok (), s')) :
    postJob caller form ctx s = (findJob job.id >>= fun k => viewJob k [caller]) ctx s' := by
  have committed : Action.transaction (storeJob job ms) ctx s = (.ok (), s') := by
    rw [Action.transaction, stored]
  unfold postJob
  refine (Action.bind_of_ok rfl).trans ?_
  rw [JobForm.toRows_eq_ok_iff.mpr makes]
  change (Action.connect >>= fun _ => Action.transaction (storeJob job ms) >>= fun _ =>
    findJob job.id >>= fun k => viewJob k [caller]) ctx s = _
  rw [Action.bind_of_ok (Action.connect_of_connected connected), Action.bind_of_ok committed]

end Hiring

/-! ## What is shown of a new job -/

def Hiring.Job.viewNew (j : Job) (client : User) (ms : List Milestone) : JobView where
  id := j.id
  title := j.title
  description := j.description
  budget := j.budget
  category := j.category
  status := j.status
  clientId := j.clientId
  freelancerId := none
  createdAt := j.createdAt
  updatedAt := j.updatedAt
  client := some (.ofUser client)
  freelancer := none
  milestones := ms.map .ofMilestone
  applicationCount := none
  applications := none

/-- A job stands in a store for which nobody has applied yet, with its client and its milestones. -/
structure Store.HoldsNew (s : Store) (j : Job) (u : User) (ms : List Milestone) : Prop where
  found : s.FindsJob j.id j
  unassigned : j.freelancerId = none
  client : u ∈ s.users
  own : u.id = j.clientId
  milestones : s.milestonesFor j.id = ms
  unapplied : ∀ a ∈ s.applications, a.jobId ≠ j.id

namespace Hiring

theorem JobForm.Makes.milestones_sorted (makes : form.Makes caller ctx job ms) :
    ms.Pairwise fun a b => a.order ≤ b.order := by
  have sorted : (ms.map Milestone.order).Pairwise (· ≤ ·) := by
    rw [makes.places, List.pairwise_map]
    exact List.pairwise_le_range.imp Int.ofNat_le.mpr
  exact List.pairwise_map.mp sorted

/-- What refers to a job refers to one that is there, so nothing refers to a new one but its milestones. -/
theorem JobForm.Makes.holdsNew (makes : form.Makes caller ctx job ms) (sound : s.Sound)
    (unknown : ∀ j ∈ s.jobs, j.id ≠ job.id) (hu : u ∈ s.users) (own : u.id = caller) :
    (s.withJob job ms).HoldsNew job u ms where
  found := Rows.find?_append_one Job.id unknown
  unassigned := makes.freelancerId
  client := hu
  own := own.trans makes.clientId.symm
  milestones := by
    have others : s.milestones.filter (·.jobId = job.id) = [] := by
      rw [List.filter_eq_nil_iff]
      intro o ho isIts
      obtain ⟨k, hk, same⟩ := (s.hasJob_iff o.jobId).mp (sound.linked.milestoneJob o ho)
      exact unknown k hk (same.trans (of_decide_eq_true isIts))
    have its : ms.filter (·.jobId = job.id) = ms :=
      List.filter_eq_self.mpr fun m hm => decide_eq_true (makes.its m hm)
    rw [Store.milestonesFor, Store.withJob, List.filter_append, others, its, List.nil_append]
    exact List.mergeSort_of_pairwise (makes.milestones_sorted.imp decide_eq_true)
  unapplied a ha same := by
    obtain ⟨k, hk, isIts⟩ := (s.hasJob_iff a.jobId).mp (sound.linked.applicationJob a ha)
    exact unknown k hk (isIts.trans same)

end Hiring

namespace Store.HoldsNew

variable (holds : s.HoldsNew j u ms)

include holds

theorem partiesOf_eq : partiesOf [j] = [u.id] := by
  rw [partiesOf, List.flatMap_singleton, holds.own, holds.unassigned]
  rfl

theorem showsJob_iff (keyed : s.Keyed) :
    s.ShowsJob j ↔ (∀ m ∈ ms, m.isReadable = true) ∧ u.isReadable = true := by
  rw [Store.ShowsJob, holds.partiesOf_eq, ← holds.milestones]
  refine and_congr ?_ ?_
  · simp only [Store.mem_milestonesFor, and_imp]
  · constructor
    · exact fun shown => shown u holds.client List.mem_cons_self
    · intro readable v hv isIts
      obtain rfl := keyed.userId.eq_of_same hv holds.client (List.mem_singleton.mp isIts)
      exact readable

theorem full_eq (keyed : s.Keyed) : JobView.full s .ofUser j = j.viewNew u ms := by
  have client : Account.among s.users j.clientId = some u :=
    keyed.userId.find?_eq holds.client holds.own
  rw [JobView.full, JobView.make, client, holds.unassigned, Store.filter_milestonesFor,
    holds.milestones]
  rfl

end Store.HoldsNew

namespace Hiring

section New

variable (holds : s.HoldsNew j u ms) (keyed : s.Keyed) (shows : s.ShowsJob j)

include holds keyed shows

theorem viewJob_of_new : viewJob j [u.id] ctx s = (.ok (j.viewNew u ms), s) := by
  obtain ⟨milestones, planned⟩ := milestonesOf_of_shown shows
  have users := Store.usersWithIds_of_all shows.2
  rw [← holds.partiesOf_eq, ← holds.full_eq keyed,
    ← JobView.make_loaded keyed planned List.mem_cons_self users (fun _ isParty => isParty)]
  exact (Action.bind_of_ok (Action.query_of_ok planned)).trans
    ((Action.bind_of_ok (Action.query_of_ok users)).trans rfl)

variable (readable : j.isReadable = true) (connected : ctx.connected = true)

include readable connected

theorem showJob_of_new : showJob j.id ctx s = (.ok (JobView.detailed s j), s) := by
  obtain ⟨milestones, planned⟩ := milestonesOf_of_shown shows
  have none : s.applications.filter (·.jobId = j.id) = [] := by
    rw [List.filter_eq_nil_iff]
    exact fun a ha own => holds.unapplied a ha (of_decide_eq_true own)
  have read : Store.applicationsFor j.id s = .ok [] := by
    rw [Store.applicationsFor, none, Store.newestFirst, List.mergeSort_nil]
    rfl
  have users := Store.usersWithIds_of_all shows.2
  obtain ⟨d, given⟩ : ∃ d, showJob j.id ctx s = (.ok d, s) := by
    rw [showJob, Action.bind_of_ok (Action.connect_of_connected connected),
      Action.bind_of_ok (findJob_of_readable holds.found readable),
      Action.bind_of_ok (Action.query_of_ok planned), Action.bind_of_ok (Action.query_of_ok read),
      List.map_nil, List.append_nil, Action.bind_of_ok (Action.query_of_ok users)]
    exact ⟨_, rfl⟩
  obtain ⟨k, found, rfl⟩ := showJob_ensures keyed _ _ _ given
  obtain rfl := Option.some.inj (found.symm.trans holds.found)
  exact given

theorem listMilestones_of_new :
    Delivery.listMilestones j.id ctx s = (.ok (ms.map .ofMilestone), s) := by
  obtain ⟨milestones, planned⟩ := milestonesOf_of_shown shows
  obtain ⟨views, given⟩ : ∃ views, Delivery.listMilestones j.id ctx s = (.ok views, s) :=
    ⟨_, (Action.bind_of_ok (Action.connect_of_connected connected)).trans
      ((Action.bind_of_ok (findJob_of_readable holds.found readable)).trans
        ((Action.bind_of_ok (Action.query_of_ok planned)).trans rfl))⟩
  rw [given, listMilestones_ensures keyed _ _ _ given, holds.milestones]

end New

/-- A job that is stored is shown if its time and the row of its client can be read back. -/
theorem postJob_of_kept (makes : form.Makes caller ctx job ms) (sound : s.Sound)
    (connected : ctx.connected = true) (unknown : ∀ j ∈ s.jobs, j.id ≠ job.id)
    (stored : storeJob job ms ctx s = (.ok (), s.withJob job ms)) (hu : u ∈ s.users)
    (own : u.id = caller) :
    postJob caller form ctx s =
      if ctx.now.isRepresentable = true ∧ u.isReadable = true then
        (.ok (job.viewNew u ms), s.withJob job ms)
      else (.error (.store .unreadable), s.withJob job ms) := by
  have holds := makes.holdsNew sound unknown hu own
  have keyed := (storeJob_sound sound stored).keyed
  rw [postJob_of_stored makes connected stored]
  by_cases readable : job.isReadable = true
  · rw [Action.bind_of_ok (findJob_of_readable holds.found readable), ← own]
    have timely : ctx.now.isRepresentable = true := makes.isReadable.symm.trans readable
    have all : ∀ m ∈ ms, m.isReadable = true := fun m hm =>
      (makes.milestone_isReadable m hm).trans timely
    by_cases client : u.isReadable = true
    · rw [if_pos ⟨timely, client⟩]
      exact viewJob_of_new holds keyed ((holds.showsJob_iff keyed).mpr ⟨all, client⟩)
    · rw [if_neg fun both => client both.2, ← holds.partiesOf_eq]
      exact viewJob_of_not_shown fun shows => client ((holds.showsJob_iff keyed).mp shows).2
  · rw [if_neg fun both => readable (makes.isReadable.trans both.1)]
    exact Action.bind_of_error (findJob_of_unreadable holds.found readable)

end Hiring

structure Hiring.JobForm.IsPostable (form : JobForm) (caller : Uuid) (ctx : Context) (s : Store) :
    Prop where
  filled : form.IsFilled
  connected : ctx.connected = true
  storable : (Call.postJob caller form).Storable
  few : ¬(Call.postJob caller form).Crowded
  client : ∃ u ∈ s.users, u.id = caller ∧ u.isReadable = true
  new : ¬ctx.Repeats s (form.milestones.getD []).length
  timely : ctx.now.isRepresentable = true

namespace Server

variable {server : Server}

theorem ShowsJob.asked (isAsked : ShowsJob id r) :
    server.asked? ctx.now r = some (.showJob id) := by
  obtain ⟨segment, path, isId⟩ := isAsked.path
  refine asked?_eq_some_iff.mpr ⟨_, .read, path, by rw [isAsked.method]; rfl, ?_⟩
  simp only [Resource.callFor?, isId]
  rfl

theorem ListsMilestones.asked (isAsked : ListsMilestones id r) :
    server.asked? ctx.now r = some (.listMilestones id) := by
  obtain ⟨segment, path, isId⟩ := isAsked.path
  refine asked?_eq_some_iff.mpr ⟨_, .read, path, by rw [isAsked.method]; rfl, ?_⟩
  simp only [Resource.callFor?, isId]
  rfl

/-- What a request to post a job is answered with.  When the job is stored it is answered with 500 all
the same if the time or the row of the client cannot be read back. -/
def AnswersPosting (server : Server) (caller : Uuid) (form : JobForm) (ctx : Context) (r : Request)
    (s : Store) : Prop :=
  FirstOf [
    (¬form.IsFilled, server.Ends ctx r s 400 s),
    (ctx.connected = false, server.Ends ctx r s 500 s),
    (¬(Call.postJob caller form).Storable, server.Ends ctx r s 500 s),
    ((Call.postJob caller form).Crowded, server.Ends ctx r s 500 s),
    (∀ u ∈ s.users, u.id ≠ caller, server.Ends ctx r s 500 s),
    (ctx.Repeats s (form.milestones.getD []).length, server.Ends ctx r s 500 s)]
  (∃ job ms, form.Makes caller ctx job ms ∧ ∃ u ∈ s.users, u.id = caller ∧
    FirstOf [
      (¬(ctx.now.isRepresentable = true ∧ u.isReadable = true),
        server.Ends ctx r s 500 (s.withJob job ms))]
    (server.EndsWith ctx r s 201 (job.viewNew u ms).toJson (s.withJob job ms)))

/-- The answers about a job show its row and its milestones in their order, and are given as long as the
store can be reached. -/
structure ShowsPlan (server : Server) (s : Store) (job : Job) (ms : List Milestone) : Prop where
  detail : ∀ ctx r, ShowsJob job.id r → ctx.connected = true → ∃ d : JobView, d.row = job ∧
    d.milestones = ms.map .ofMilestone ∧ server.EndsWith ctx r s 200 d.toJson s
  list : ∀ ctx r, ListsMilestones job.id r → ctx.connected = true → server.EndsWith ctx r s 200
    (.array ((ms.map MilestoneView.ofMilestone).map MilestoneView.toJson)) s

theorem showsPlan (server : Server) (holds : s.HoldsNew job u ms) (keyed : s.Keyed)
    (shows : s.ShowsJob job) (readable : job.isReadable = true) : server.ShowsPlan s job ms where
  detail ctx r isAsked connected := by
    refine ⟨JobView.detailed s job, rfl, ?_, ?_⟩
    · rw [← holds.milestones]
      exact JobView.listed_milestones job
    · have shown : Hiring.showJob job.id ctx s = _ :=
        Hiring.showJob_of_new holds keyed shows readable connected
      exact endsWith_of_ok (by rw [isAsked.method]; decide) isAsked.asked
        (Action.bind_of_ok shown) rfl
  list ctx r isAsked connected := by
    have shown : Delivery.listMilestones job.id ctx s = _ :=
      Hiring.listMilestones_of_new holds keyed shows readable connected
    exact endsWith_of_ok (by rw [isAsked.method]; decide) isAsked.asked
      (Action.bind_of_ok shown) rfl

namespace PostsJob

variable (posts : server.PostsJob caller form ctx r)

include posts

theorem ends_of_error {f : Failure} (failed : postJob caller form ctx s = (.error f, s')) :
    server.Ends ctx r s f.problem.status s' :=
  Server.ends_of_error (asked?_postJob_iff.mpr posts) (Action.bind_of_error failed)

theorem endsWith_of_ok {v : JobView} (shown : postJob caller form ctx s = (.ok v, s')) :
    server.EndsWith ctx r s 201 v.toJson s' :=
  Server.endsWith_of_ok (by rw [posts.method]; decide) (asked?_postJob_iff.mpr posts)
    (Action.bind_of_ok shown) rfl

/-- What the store does not keep leaves nothing behind. -/
theorem ends_of_unstored (makes : form.Makes caller ctx job ms) (connected : ctx.connected = true)
    (never : ∀ s', storeJob job ms ctx s ≠ (.ok (), s')) : server.Ends ctx r s 500 s := by
  rcases stored : storeJob job ms ctx s with ⟨f | _, s'⟩
  · have internal := Hiring.storeJob_internal stored
    rw [← Failure.status_eq_iff.mpr internal]
    exact posts.ends_of_error
      (Hiring.postJob_of_unstored connected (JobForm.toRows_eq_ok_iff.mpr makes) stored)
  · exact absurd stored (never s')

theorem answersPosting (sound : s.Sound) : server.AnswersPosting caller form ctx r s := by
  refine ⟨fun unfilled => ?_, fun isFilled => ?_⟩
  · obtain ⟨f, failed, told⟩ := Hiring.postJob_of_unfilled unfilled
    rw [← told]
    exact posts.ends_of_error failed
  obtain ⟨job, ms, makes⟩ := (not_not.mp isFilled).makes caller ctx
  refine ⟨fun lost => posts.ends_of_error (Hiring.postJob_of_lost makes lost), fun isConnected => ?_⟩
  have connected : ctx.connected = true := by simpa using isConnected
  have kept {s' : Store} : storeJob job ms ctx s = (.ok (), s') ↔ _ :=
    Hiring.storeJob_eq_ok_iff makes sound
  have refused := posts.ends_of_unstored (s := s) makes connected
  refine ⟨fun unstorable => refused fun _ stored => unstorable (kept.mp stored).1.1,
    fun isStorable => ?_⟩
  refine ⟨fun crowded => refused fun _ stored => (kept.mp stored).1.2.1 crowded, fun few => ?_⟩
  refine ⟨fun nobody => refused fun _ stored => ?_, fun somebody => ?_⟩
  · obtain ⟨u, hu, own⟩ := (s.hasUser_iff caller).mp (kept.mp stored).1.2.2.1
    exact nobody u hu own
  push Not at somebody
  obtain ⟨u, hu, own⟩ := somebody
  refine ⟨fun repeats => refused fun _ stored => (kept.mp stored).1.2.2.2 repeats, fun new => ?_⟩
  have stored := kept.mpr
    ⟨⟨not_not.mp isStorable, few, (s.hasUser_iff caller).mpr ⟨u, hu, own⟩, new⟩, rfl⟩
  have shown := Hiring.postJob_of_kept makes sound connected (makes.repeats_iff.mp new).1 stored hu own
  refine ⟨job, ms, makes, u, hu, own, fun hidden => ?_, fun visible => ?_⟩
  · exact posts.ends_of_error (shown.trans (if_neg hidden))
  · exact posts.endsWith_of_ok (shown.trans (if_pos (not_not.mp visible)))

theorem posted_of_created (sound : s.Sound) (created : (server.handle ctx r s).1.status = 201) :
    form.IsPostable caller ctx s ∧ ∃ job ms, form.Makes caller ctx job ms ∧
      (server.handle ctx r s).2 = s.withJob job ms ∧ server.ShowsPlan (s.withJob job ms) job ms := by
  -- Every refusal has another status.
  have unsaid {status : Nat} {left : Store} (other : status ≠ 201) :
      ¬server.Ends ctx r s status left := not_ends created other
  obtain ⟨none, job, ms, makes, u, hu, own, last⟩ := (posts.answersPosting sound).of_unsaid (by
    simp only [List.forall_mem_cons]
    refine ⟨?_, ?_, ?_, ?_, ?_, ?_, nofun⟩
    all_goals exact unsaid (by decide))
  obtain ⟨visible, shown⟩ := last.of_unsaid (by
    simp only [List.forall_mem_cons]
    exact ⟨unsaid (by decide), nofun⟩)
  simp only [List.forall_mem_cons, not_not] at none visible
  obtain ⟨filled, isConnected, storable, few, _, new, _⟩ := none
  obtain ⟨⟨timely, readable⟩, _⟩ := visible
  have connected : ctx.connected = true := by simpa using isConnected
  refine ⟨⟨filled, connected, storable, few, ⟨u, hu, own, readable⟩, new, timely⟩, job, ms, makes,
    shown.ends.2, ?_⟩
  have stored : storeJob job ms ctx s = (.ok (), s.withJob job ms) :=
    (Hiring.storeJob_eq_ok_iff makes sound).mpr
      ⟨⟨storable, few, (s.hasUser_iff caller).mpr ⟨u, hu, own⟩, new⟩, rfl⟩
  have after := Hiring.storeJob_sound sound stored
  have holds := makes.holdsNew sound (makes.repeats_iff.mp new).1 hu own
  refine server.showsPlan holds after.keyed ((holds.showsJob_iff after.keyed).mpr ⟨?_, readable⟩) ?_
  · exact fun m hm => (makes.milestone_isReadable m hm).trans timely
  · exact makes.isReadable.trans timely

theorem created_of_postable (sound : s.Sound) (postable : form.IsPostable caller ctx s) :
    (server.handle ctx r s).1.status = 201 := by
  obtain ⟨filled, connected, storable, few, ⟨u, hu, own, readable⟩, new, timely⟩ := postable
  obtain ⟨job, ms, _, v, hv, isOwn, last⟩ := (posts.answersPosting sound).of_otherwise (by
    simp only [List.forall_mem_cons]
    exact ⟨not_not.mpr filled, by simp [connected], not_not.mpr storable, few,
      fun nobody => nobody u hu own, new, nofun⟩)
  obtain rfl := sound.keyed.userId.eq_of_same hv hu (isOwn.trans own.symm)
  exact (last.2 (not_not.mpr ⟨timely, readable⟩)).ends.1

end PostsJob

/-- In a store that satisfies its constraints, a request to post a job is refused for the first thing
that speaks against it, more milestones than one statement adds among them.  If nothing does, the job is
stored with one milestone for each that was sent, and shown with them in the same order; else nothing is
stored, unless all is stored and cannot be read back. -/
theorem jobs_posted (server : Server) (s : Store) (holds : s.Constrained) (caller : Uuid)
    (form : JobForm) (ctx : Context) (r : Request) (posts : server.PostsJob caller form ctx r) :
    server.AnswersPosting caller form ctx r s ∧
      ((server.handle ctx r s).1.status = 201 ↔ form.IsPostable caller ctx s) ∧
      ((server.handle ctx r s).1.status = 201 → ∃ job ms, form.Makes caller ctx job ms ∧
        (server.handle ctx r s).2 = s.withJob job ms ∧
          server.ShowsPlan (s.withJob job ms) job ms) :=
  ⟨posts.answersPosting holds.sound,
    ⟨fun created => (posts.posted_of_created holds.sound created).1,
      posts.created_of_postable holds.sound⟩,
    fun created => (posts.posted_of_created holds.sound created).2⟩

def annPosts : Request where
  method := .post
  target := "/api/jobs"
  headers := ("content-type", "application/json") :: removal.headers
  body := Text.Utf8.ofString ("\x7b\"title\":\" Site \",\"category\":\"Web\",\"budget\":1," ++
    "\"milestones\":[\x7b\"title\":\"Draft\",\"amount\":1\x7d," ++
      "\x7b\"title\":\"Final\",\"amount\":1\x7d]\x7d")

def annPlans : JobForm where
  title := some " Site "
  description := none
  budget := some (.powerOfTen 0)
  category := some "Web"
  milestones := some [⟨some "Draft", none, some (.powerOfTen 0)⟩,
    ⟨some "Final", none, some (.powerOfTen 0)⟩]

theorem annPosts_posts : plain.PostsJob ann.id annPlans firstMoment annPosts where
  method := rfl
  path := by decide +kernel
  caller := ann_known rfl
  body := decodeBody_of_leading (by decide +kernel) (by decide +kernel) (by decide +kernel)

theorem annPlans_filled : annPlans.IsFilled where
  title := ⟨"Site", " Site ", rfl, by decide +kernel, by decide⟩
  category := ⟨"Web", "Web", rfl, by decide +kernel, by decide⟩
  budget := ⟨.powerOfTen 0, rfl, by decide +kernel⟩
  milestones := by
    have amount : ∃ b, IsAmount (some (.powerOfTen 0)) b := ⟨.powerOfTen 0, rfl, by decide +kernel⟩
    intro f hf
    rcases List.mem_cons.mp hf with rfl | hf
    · exact ⟨⟨"Draft", "Draft", rfl, by decide +kernel, by decide⟩, amount⟩
    · obtain rfl := List.mem_singleton.mp hf
      exact ⟨⟨"Final", "Final", rfl, by decide +kernel, by decide⟩, amount⟩

theorem annPlans_storable : (Call.postJob ann.id annPlans).Storable := by
  have short : ∀ p ∈ (Call.postJob ann.id annPlans).texts, ∀ t ∈ p.2,
      Text.NoNul t ∧ ∀ n ∈ p.1, t.length ≤ n := by
    decide +kernel
  exact fun p hp t is => short p hp t is

theorem annPlans_few : ¬(Call.postJob ann.id annPlans).Crowded :=
  Nat.not_lt.mpr (by decide)

theorem jobs_posted_two :
    annAndBob.Constrained ∧ plain.PostsJob ann.id annPlans firstMoment annPosts ∧
      (plain.handle firstMoment annPosts annAndBob).1.status = 201 ∧
        ∃ job ms, annPlans.Makes ann.id firstMoment job ms ∧ ms.length = 2 ∧
          plain.ShowsPlan (annAndBob.withJob job ms) job ms := by
  have holds := annAndBob_sound.constrained
  obtain ⟨_, created_iff, shows⟩ := jobs_posted plain annAndBob holds _ _ _ _ annPosts_posts
  have new : ¬firstMoment.Repeats annAndBob 2 := by
    rw [Context.Repeats, not_or]
    exact ⟨nofun, by decide⟩
  have created := created_iff.mpr ⟨annPlans_filled, rfl, annPlans_storable, annPlans_few,
    ⟨ann, List.mem_cons_self, rfl, by decide⟩, new, by decide⟩
  obtain ⟨job, ms, makes, _, plan⟩ := shows created
  exact ⟨holds, annPosts_posts, created, job, ms, makes, makes.length_eq.symm, plan⟩

/-- Not every job that gives all that is needed is answered with 201, and not everything that is answered
with 500 leaves nothing behind. -/
theorem ancient_client_not_answered :
    ancientAccount.Constrained ∧ firstMoment.connected = true ∧ ancientAnn ∈ ancientAccount.users ∧
      plain.PostsJob ancientAnn.id annPlans firstMoment annPosts ∧ annPlans.IsFilled ∧
        (Call.postJob ancientAnn.id annPlans).Storable ∧
          (plain.handle firstMoment annPosts ancientAccount).1.status = 500 ∧
            (plain.handle firstMoment annPosts ancientAccount).2 ≠ ancientAccount := by
  have answers := annPosts_posts.answersPosting ancientAccount_sound
  have new : ¬firstMoment.Repeats ancientAccount 2 := by
    rw [Context.Repeats, not_or]
    exact ⟨nofun, by decide⟩
  obtain ⟨job, ms, _, u, hu, _, last⟩ := answers.of_otherwise (by
    simp only [List.forall_mem_cons]
    exact ⟨not_not.mpr annPlans_filled, by decide, not_not.mpr annPlans_storable, annPlans_few,
      fun nobody => nobody ancientAnn List.mem_cons_self rfl, new, nofun⟩)
  obtain rfl := List.mem_singleton.mp hu
  obtain ⟨failed, left⟩ := last.1 (by decide)
  refine ⟨ancientAccount_sound.constrained, rfl, List.mem_cons_self, annPosts_posts,
    annPlans_filled, annPlans_storable, failed, ?_⟩
  rw [left]
  intro same
  cases congrArg Store.jobs same

end Server

end GigBoard
