import GigBoard.Proofs.Pages

/-!
# Views of a job

A job is shown in lists, where milestones, users and numbers are loaded for a whole page at once and
dealt out afterwards, and in detail, where they are loaded for the one job.  Both come to the same: what
a view shows of a job depends on the store and on the job alone.  `JobView.listed` and
`JobView.detailed` are these views.
-/

set_option autoImplicit false

namespace GigBoard

open Account (User UserSummary)
open Delivery (Milestone)
open Hiring (Application ApplicationView Job JobView MilestoneView applicationsWith partiesOf)
open Http (Request Resource Response)

variable {ctx : Context} {r : Request} {s : Store}

/-! ## Rows that are loaded together -/

namespace Store

/-- Among the users loaded by some identifiers, each of these finds whom it finds among all. -/
theorem among_usersWithIds {ids : List Uuid} {users : List User} {id : Uuid}
    (loaded : usersWithIds ids s = .ok users) (asked : id ∈ ids) :
    Account.among users id = Account.among s.users id := by
  rw [readRows_ok loaded, Account.among, Account.among, List.find?_filter]
  congr 1
  funext u
  by_cases same : u.id = id
  · simp [same, asked]
  · simp [same]

def milestonesFor (s : Store) (job : Uuid) : List Milestone :=
  (s.milestones.filter (·.jobId = job)).mergeSort fun a b => decide (a.order ≤ b.order)

theorem mem_milestonesFor {job : Uuid} {m : Milestone} :
    m ∈ s.milestonesFor job ↔ m ∈ s.milestones ∧ m.jobId = job := by
  rw [milestonesFor, List.mem_mergeSort, List.mem_filter, decide_eq_true_eq]

theorem filter_milestonesFor (job : Uuid) :
    (s.milestonesFor job).filter (·.jobId = job) = s.milestonesFor job := by
  rw [List.filter_eq_self]
  intro m hm
  exact decide_eq_true (mem_milestonesFor.mp hm).2

theorem mergeSort_order_sorted (ms : List Milestone) :
    (ms.mergeSort fun a b => decide (a.order ≤ b.order)).Pairwise fun a b => a.order ≤ b.order :=
  mergeSort_by_key (fun _ _ => decide_eq_true_iff) ms

theorem milestonesFor_sorted (keyed : s.Keyed) (job : Uuid) :
    (s.milestonesFor job).Pairwise fun a b => a.order < b.order := by
  have places : Rows.Unique (fun m => (m.jobId, m.order)) (s.milestonesFor job) := by
    have kept := keyed.milestonePlace.filter (·.jobId = job)
    exact ((List.mergeSort_perm _ _).map _).nodup_iff.mpr kept
  have sorted := mergeSort_order_sorted (s.milestones.filter (·.jobId = job))
  refine (sorted.and ((Rows.unique_iff_pairwise _ _).mp places)).imp_of_mem ?_
  rintro a b ha hb ⟨le, ne⟩
  have differ : a.order ≠ b.order := by
    intro same
    apply ne
    rw [(mem_milestonesFor.mp ha).2, (mem_milestonesFor.mp hb).2, same]
  omega

/-- Of the milestones loaded for some jobs, those of one of them are as they are loaded for it alone. -/
theorem filter_milestonesOf {ids : List Uuid} {ms : List Milestone} {job : Uuid} (keyed : s.Keyed)
    (loaded : milestonesOf ids s = .ok ms) (asked : job ∈ ids) :
    ms.filter (·.jobId = job) = s.milestonesFor job := by
  rw [readRows_ok loaded]
  have sameRows : (((s.milestones.filter fun m => ids.contains m.jobId).mergeSort fun a b =>
      decide (a.order ≤ b.order)).filter (·.jobId = job)).Perm (s.milestonesFor job) := by
    have bulk := (List.mergeSort_perm (s.milestones.filter fun m => ids.contains m.jobId)
      fun a b => decide (a.order ≤ b.order)).filter (·.jobId = job)
    refine bulk.trans (.trans (.of_eq ?_) (List.mergeSort_perm _ _).symm)
    rw [List.filter_filter]
    apply List.filter_congr
    intro m _
    by_cases same : m.jobId = job
    · simp [same, asked]
    · simp [same]
  apply List.Perm.eq_of_pairwise _ ((mergeSort_order_sorted _).filter _)
    (mergeSort_order_sorted _) sameRows
  -- Two milestones of the job with the same place are one.
  intro a b ha hb le ge
  obtain ⟨memberA, ofA⟩ := mem_milestonesFor.mp (sameRows.mem_iff.mp ha)
  obtain ⟨memberB, ofB⟩ := mem_milestonesFor.mp hb
  apply keyed.milestonePlace.eq_of_same memberA memberB
  rw [ofA, ofB, show a.order = b.order by omega]

end Store

namespace Hiring

theorem clientId_mem_partiesOf {jobs : List Job} {j : Job} (hj : j ∈ jobs) :
    j.clientId ∈ partiesOf jobs :=
  List.mem_flatMap.mpr ⟨j, hj, List.mem_cons_self⟩

theorem freelancerId_mem_partiesOf {jobs : List Job} {j : Job} {f : Uuid} (hj : j ∈ jobs)
    (assigned : j.freelancerId = some f) : f ∈ partiesOf jobs := by
  refine List.mem_flatMap.mpr ⟨j, hj, List.mem_cons_of_mem _ ?_⟩
  rw [assigned]
  exact List.mem_cons_self

/-! ## Views made of loaded rows -/

def JobView.full (s : Store) (summary : User → UserSummary) (j : Job) : JobView :=
  JobView.make j (s.milestonesFor j.id) s.users summary

/-- What is made of the rows loaded for some jobs shows each of them in full. -/
theorem JobView.make_loaded {j : Job} {jobIds ids : List Uuid} {ms : List Milestone}
    {users : List User} (keyed : s.Keyed) (planned : Store.milestonesOf jobIds s = .ok ms)
    (asked : j.id ∈ jobIds) (loaded : Store.usersWithIds ids s = .ok users)
    (parties : ∀ id ∈ partiesOf [j], id ∈ ids) (summary : User → UserSummary) :
    JobView.make j ms users summary = JobView.full s summary j := by
  have client := Store.among_usersWithIds loaded
    (parties _ (clientId_mem_partiesOf List.mem_cons_self))
  have freelancer : j.freelancerId.bind (Account.among users) =
      j.freelancerId.bind (Account.among s.users) := by
    cases assigned : j.freelancerId with
    | none => rfl
    | some f =>
        exact Store.among_usersWithIds loaded
          (parties f (freelancerId_mem_partiesOf List.mem_cons_self assigned))
  unfold full make
  rw [client, freelancer, Store.filter_milestonesOf keyed planned asked, Store.filter_milestonesFor]

def ApplicationView.shown (s : Store) (summary : User → UserSummary) (a : Application) :
    ApplicationView :=
  { ApplicationView.ofApplication a with
    freelancer := (Account.among s.users a.freelancerId).map summary }

theorem ApplicationView.withFreelancer_loaded {ids : List Uuid} {users : List User}
    {a : Application} {v : ApplicationView} {summary : User → UserSummary}
    (loaded : Store.usersWithIds ids s = .ok users) (asked : a.freelancerId ∈ ids)
    (made : withFreelancer users summary a = .ok v) : v = shown s summary a := by
  unfold withFreelancer at made
  rw [Store.among_usersWithIds loaded asked] at made
  unfold shown
  split at made
  · cases made
  · rename_i found
    cases made
    rw [found]
    rfl

theorem ApplicationView.mapM_loaded {ids : List Uuid} {users : List User} {as : List Application}
    {views : List ApplicationView} {summary : User → UserSummary}
    (loaded : Store.usersWithIds ids s = .ok users) (asked : ∀ a ∈ as, a.freelancerId ∈ ids)
    (made : as.mapM (withFreelancer users summary) = .ok views) :
    views = as.map (shown s summary) := by
  induction as generalizing views with
  | nil =>
      cases made
      rfl
  | cons a as ih =>
      obtain ⟨askedFirst, askedRest⟩ := List.forall_mem_cons.mp asked
      rw [List.mapM_cons] at made
      obtain ⟨v, isFirst, made⟩ := bind_ok made
      obtain ⟨rest, isRest, made⟩ := bind_ok made
      cases made
      rw [withFreelancer_loaded loaded askedFirst isFirst, ih askedRest isRest]
      rfl

end Hiring

/-! ## What is answered about a job -/

namespace Hiring

def JobView.listed (s : Store) (j : Job) : JobView :=
  { JobView.full s .ofUser j with
    applicationCount := some (applicationsWith s (·.jobId = j.id)).length }

def JobView.detailed (s : Store) (j : Job) : JobView :=
  { JobView.full s .withBio j with
    applicationCount := some (applicationsWith s (·.jobId = j.id)).length
    applications :=
      some ((applicationsWith s (·.jobId = j.id)).map (ApplicationView.shown s .ofUser)) }

/-- What was counted for each of some identifiers is found under it. -/
theorem countAmong_groups (ids : List Uuid) (id : Uuid) :
    countAmong (ids.eraseDups.map fun k => (k, ids.count k)) id = ids.count id := by
  rw [countAmong, List.find?_map]
  cases found : ids.eraseDups.find?
      ((fun p : Uuid × Nat => p.1 = id) ∘ fun k => (k, ids.count k)) with
  | none =>
      have absent : id ∉ ids := by
        intro hid
        simpa using List.find?_eq_none.mp found id (List.mem_eraseDups.mpr hid)
      exact (List.count_eq_zero_of_not_mem absent).symm
  | some k =>
      have same : k = id := by simpa using List.find?_some found
      rw [← same]
      rfl

/-- The counts of all jobs at once are dealt out as each job is counted by itself. -/
theorem countAmong_applicationCounts {ids : List Uuid} {counts : List (Uuid × Nat)} {id : Uuid}
    (counted : Store.applicationCounts ids s = .ok counts) (asked : id ∈ ids) :
    countAmong counts id = (applicationsWith s (·.jobId = id)).length := by
  cases counted
  rw [countAmong_groups, List.count_filter (List.contains_iff_mem.mpr asked), List.count,
    List.countP_map, applicationsWith, Store.length_newestPassing]
  apply List.countP_congr
  intro a _
  simp

/-- The rows of a page of jobs, with what was loaded for all of them, are the jobs as they are listed. -/
theorem views_eq_listed {jobs : List Job} {ms : List Milestone} {users : List User}
    {counts : List (Uuid × Nat)} (keyed : s.Keyed)
    (planned : Store.milestonesOf (jobs.map (·.id)) s = .ok ms)
    (counted : Store.applicationCounts (jobs.map (·.id)) s = .ok counts)
    (loaded : Store.usersWithIds (partiesOf jobs) s = .ok users) :
    (jobs.map fun j => { JobView.make j ms users .ofUser with
      applicationCount := some (countAmong counts j.id) }) = jobs.map (JobView.listed s) := by
  apply List.map_congr_left
  intro j hj
  have parties : ∀ id ∈ partiesOf [j], id ∈ partiesOf jobs := by
    intro id isParty
    obtain ⟨k, hk, ofK⟩ := List.mem_flatMap.mp isParty
    rw [List.mem_singleton.mp hk] at ofK
    exact List.mem_flatMap.mpr ⟨j, hj, ofK⟩
  rw [JobView.make_loaded keyed planned (List.mem_map_of_mem hj) loaded parties, JobView.listed,
    countAmong_applicationCounts counted (List.mem_map_of_mem hj)]

theorem searchJobs_ensures_listed (keyed : s.Keyed) (q : JobQuery) :
    (searchJobs q).Ensures ctx s fun listing _ =>
      ∃ jobs : List Job, (∀ j ∈ jobs, j ∈ s.jobs) ∧ listing.data = jobs.map (JobView.listed s) := by
  have proper := q.page.resolve_proper
  refine .ofExcept fun f _ => .connect (.query fun total _ => ?_)
  refine proper.ensures_offset (.query fun jobs read => .query fun milestones planned => ?_)
  refine .query fun counts counted => .query fun users loaded => ?_
  have stored : ∀ j ∈ jobs, j ∈ s.jobs := by
    unfold Store.jobsWindow at read
    split at read
    · rw [Store.readRows_ok read]
      intro j hj
      have passing := Store.mem_newestFirst.mp (List.mem_of_mem_drop (List.mem_of_mem_take hj))
      exact (List.mem_filter.mp passing).1
    · cases read
  refine .ofExcept_last fun listing made => ⟨jobs, stored, ?_⟩
  rw [(Listing.of_make proper (mapError_ok made)).1]
  exact views_eq_listed keyed planned counted loaded

theorem showJob_ensures (keyed : s.Keyed) (id : Uuid) :
    (showJob id).Ensures ctx s fun v _ => ∃ j, s.FindsJob id j ∧ v = JobView.detailed s j := by
  refine .connect (.reading (findJob_readOnly id) fun j found => ?_)
  obtain ⟨found, _⟩ := findJob_ok found
  obtain rfl := found.id_eq
  refine .query fun milestones planned => .query fun applications read => ?_
  refine .query fun users loaded => .ofExcept fun views made => ?_
  have rows : applications = applicationsWith s (·.jobId = j.id) := Store.readRows_ok read
  have shown : views = applications.map (ApplicationView.shown s .ofUser) := by
    apply ApplicationView.mapM_loaded loaded _ made
    intro a ha
    exact List.mem_append_right _ (List.mem_map_of_mem ha)
  intro v s' ok
  cases ok
  refine ⟨j, found, ?_⟩
  rw [JobView.make_loaded keyed planned List.mem_cons_self loaded
    (fun _ => List.mem_append_left _), shown, rows, List.length_map]
  rfl

theorem listApplications_ensures_shown (id : Uuid) (q : PageQuery) :
    (listApplications id q).Ensures ctx s fun listing _ =>
      listing.IsPage (fun v => v)
        ((applicationsWith s (·.jobId = id)).map (ApplicationView.shown s .withBio)) q.resolve := by
  have proper := q.resolve_proper
  refine .connect (.reading (findJob_readOnly id) fun j _ => .query fun total counted => ?_)
  refine proper.ensures_offset (.query fun applications read => .query fun users loaded => ?_)
  refine .ofExcept fun views shown => ?_
  rw [countApplications_eq, ← List.length_map (f := ApplicationView.shown s .withBio)] at counted
  refine Listing.ensures_isPage proper (Except.ok.inj counted).symm fun bounded => ?_
  rw [List.length_map] at bounded
  have isSlice : applications = q.resolve.slice (applicationsWith s (·.jobId = id)) :=
    (Store.readRows_ok read).trans (proper.window_eq_slice_of_le bounded)
  have areShown := ApplicationView.mapM_loaded loaded (fun a ha => List.mem_map_of_mem ha) shown
  rw [areShown, isSlice, List.map_id', Page.slice, Page.slice, List.map_drop, List.map_take]

theorem listMilestones_ensures (keyed : s.Keyed) (id : Uuid) :
    (Delivery.listMilestones id).Ensures ctx s fun views _ =>
      views = (s.milestonesFor id).map .ofMilestone := by
  refine .connect (.reading (findJob_readOnly id) fun j _ => .query fun milestones planned => ?_)
  have its : milestones.filter (·.jobId = id) = milestones := by
    rw [List.filter_eq_self, Store.readRows_ok planned]
    intro m hm
    rw [List.mem_mergeSort, List.mem_filter] at hm
    simpa using hm.2
  intro views s' ok
  cases ok
  rw [← Store.filter_milestonesOf keyed planned List.mem_cons_self, its]

/-! ## Questions about a job that is there -/

theorem showJob_succeeds (linked : s.Linked) (readable : s.Readable) {id : Uuid} {j : Job}
    (found : s.FindsJob id j) (connected : ctx.connected = true) :
    (showJob id).Succeeds ctx s := by
  obtain ⟨milestones, planned⟩ := Store.milestonesOf_of_readable readable [id]
  have read : Store.applicationsFor id s = .ok (applicationsWith s (·.jobId = id)) :=
    Store.readRows_of_all fun a ha =>
      readable.applications a (Store.mem_newestPassing.mp ha).1
  have loaded := Store.usersWithIds_of_readable readable
    (partiesOf [j] ++ (applicationsWith s (·.jobId = id)).map (·.freelancerId))
  obtain ⟨views, shown⟩ : ∃ views, (applicationsWith s (·.jobId = id)).mapM
      (ApplicationView.withFreelancer (s.users.filter fun u =>
        (partiesOf [j] ++ (applicationsWith s (·.jobId = id)).map (·.freelancerId)).contains u.id)
        .ofUser) = .ok views := by
    apply mapM_of_all
    intro a ha
    have known := linked.applicationFreelancer a (Store.mem_newestPassing.mp ha).1
    obtain ⟨u, isAmong⟩ := Store.among_loaded known
      (List.mem_append_right (partiesOf [j]) (List.mem_map_of_mem ha))
    rw [ApplicationView.withFreelancer, isAmong]
    exact ⟨_, rfl⟩
  unfold showJob
  refine .bind (Action.connect_of_connected connected) (.bind (findJob_of_found readable found) ?_)
  refine .bind (Action.query_of_ok planned) (.bind (Action.query_of_ok read) ?_)
  refine .bind (Action.query_of_ok loaded) ?_
  rw [shown]
  exact .bind rfl .done

theorem listMilestones_succeeds (readable : s.Readable) {id : Uuid} {j : Job}
    (found : s.FindsJob id j) (connected : ctx.connected = true) :
    (Delivery.listMilestones id).Succeeds ctx s := by
  obtain ⟨milestones, planned⟩ := Store.milestonesOf_of_readable readable [id]
  unfold Delivery.listMilestones
  refine .bind (Action.connect_of_connected connected) (.bind (findJob_of_found readable found) ?_)
  exact .bind (Action.query_of_ok planned) .done

end Hiring

/-! ## Biographies -/

def Account.UserSummary.withoutBio (u : UserSummary) : UserSummary := { u with bio := none }

def Hiring.ApplicationView.withoutBio (v : ApplicationView) : ApplicationView :=
  { v with freelancer := v.freelancer.map UserSummary.withoutBio }

namespace Hiring

theorem ApplicationView.withoutBio_shown (a : Application) :
    (shown s .withBio a).withoutBio = (shown s .ofUser a).withoutBio := by
  simp only [shown, withoutBio, Option.map_map]
  rfl

/-- Two views show the same job, its parties perhaps with biographies in one view only. -/
structure JobView.SameJob (v d : JobView) : Prop where
  row : d.row = v.row
  client : d.client.map UserSummary.withoutBio = v.client.map UserSummary.withoutBio
  freelancer : d.freelancer.map UserSummary.withoutBio = v.freelancer.map UserSummary.withoutBio
  milestones : d.milestones = v.milestones
  applicationCount : d.applicationCount = v.applicationCount

theorem JobView.listed_sameJob_detailed (s : Store) (j : Job) :
    (listed s j).SameJob (detailed s j) where
  row := rfl
  client := by
    simp only [listed, detailed, full, make, Option.map_map]
    rfl
  freelancer := by
    simp only [listed, detailed, full, make, Option.map_map]
    rfl
  milestones := rfl
  applicationCount := rfl

theorem JobView.listed_milestones (j : Job) :
    (listed s j).milestones = (s.milestonesFor j.id).map .ofMilestone := by
  simp only [listed, full, make, Store.filter_milestonesFor]

theorem among_isSome {id : Uuid} (known : s.hasUser id = true) :
    (Account.among s.users id).isSome = true := by
  obtain ⟨u, hu, same⟩ := (s.hasUser_iff id).mp known
  rw [Account.among, List.find?_isSome]
  exact ⟨u, hu, decide_eq_true same⟩

theorem JobView.listed_parties {j : Job} (linked : s.Linked) (hj : j ∈ s.jobs) :
    (listed s j).client.isSome = true ∧
      ((listed s j).freelancer.isSome = true ↔ j.freelancerId ≠ none) := by
  simp only [listed, full, make, Option.isSome_map]
  refine ⟨among_isSome (linked.jobClient j hj), ?_⟩
  cases assigned : j.freelancerId with
  | none => simp
  | some f => simpa using among_isSome (linked.jobFreelancer j hj f assigned)

end Hiring

/-! ## Answers about one job -/

namespace Server

variable {server : Server}

structure ShowsJob (job : Uuid) (r : Request) : Prop where
  method : r.method = .get
  path : ∃ segment, Resource.ofPath? r.path = some (.job segment) ∧ Http.pathId segment = .ok job

structure ListsMilestones (job : Uuid) (r : Request) : Prop where
  method : r.method = .get
  path : ∃ segment, Resource.ofPath? r.path = some (.milestonesOf segment) ∧
    Http.pathId segment = .ok job

theorem ShowsJob.calls {now : Timestamp} {call : Call} {job : Uuid} (isAsked : ShowsJob job r)
    (asked : server.asked? now r = some call) : call = .showJob job := by
  obtain ⟨segment, path, isId⟩ := isAsked.path
  have made := Option.some.inj (callFor?_of_asked isAsked.method path asked)
  rw [isId] at made
  exact (Except.ok.inj made).symm

theorem ListsMilestones.calls {now : Timestamp} {call : Call} {job : Uuid}
    (isAsked : ListsMilestones job r) (asked : server.asked? now r = some call) :
    call = .listMilestones job := by
  obtain ⟨segment, path, isId⟩ := isAsked.path
  have made := Option.some.inj (callFor?_of_asked isAsked.method path asked)
  rw [isId] at made
  exact (Except.ok.inj made).symm

/-- How the answers about a job fit the item of a list that shows it, and its applications as they are
shown in detail. -/
structure JobViewsAgree (server : Server) (s : Store) (v : JobView) (as : List ApplicationView) :
    Prop where
  stored : v.row ∈ s.jobs
  client : v.client.isSome = true
  freelancer : v.freelancer.isSome = true ↔ v.freelancerId ≠ none
  milestones : ∃ ms : List Milestone, v.milestones = ms.map .ofMilestone ∧
    (∀ m, m ∈ ms ↔ m ∈ s.milestones ∧ m.jobId = v.id) ∧ ms.Pairwise fun a b => a.order < b.order
  applications : Store.NewestOf Application.createdAt Application.id s.applications
    (·.jobId = v.id) (as.map ApplicationView.row)
  count : v.applicationCount = some as.length
  detail : ∀ ctx r, ShowsJob v.id r → (server.handle ctx r s).1.status = 200 →
    ∃ d : JobView, (server.handle ctx r s).1.body = some d.toJson ∧ v.SameJob d ∧
      d.applications = some as
  milestoneList : ∀ ctx r, ListsMilestones v.id r → (server.handle ctx r s).1.status = 200 →
    (server.handle ctx r s).1.body = some (.array (v.milestones.map (·.toJson)))
  total : ∀ ctx r, ListsApplications v.id r → (server.handle ctx r s).1.status = 200 →
    ∃ listing : Listing ApplicationView,
      (server.handle ctx r s).1.body = some (listing.toJson ApplicationView.toJson) ∧
        listing.total = as.length
  pages : ∀ (limit : Nat) (steps : List (Context × Request)), 1 ≤ limit →
    (∀ (i : Nat) ctx r, steps[i]? = some (ctx, r) → ListsApplications v.id r ∧
      r.page = ⟨i + 1, limit⟩ ∧ (server.handle ctx r s).1.status = 200) →
    (steps.length : Int) = ⌈(as.length : ℚ) / limit⌉ →
      ∃ views : List ApplicationView,
        (steps.flatMap fun step => (server.handle step.1 step.2 s).1.rows) =
          views.map ApplicationView.toJson ∧
        views.map ApplicationView.withoutBio = as.map ApplicationView.withoutBio
  answered : s.Readable → s.applications.length < 2 ^ 62 → ∀ ctx r, ctx.connected = true →
    server.asked? ctx.now r ≠ none →
      ShowsJob v.id r ∨ ListsMilestones v.id r ∨ ListsApplications v.id r →
        (server.handle ctx r s).1.status = 200

theorem listsApplications_showsPage {job : Uuid} (isAsked : ListsApplications job r)
    (answered : (server.handle ctx r s).1.status = 200) :
    (server.handle ctx r s).1.ShowsPage ApplicationView.toJson (fun v => v)
      ((applicationsWith s (·.jobId = job)).map (ApplicationView.shown s .withBio)) r.page := by
  obtain ⟨c, answer, s', asked, ok, body⟩ := call_of_answered isAsked.method answered
  obtain ⟨q, isPage, rfl⟩ := isAsked.calls asked
  obtain ⟨listing, given, rfl⟩ := Call.answering_result ok
  have one := Hiring.listApplications_ensures_shown job q listing s' given
  rw [isPage] at one
  exact ⟨listing, body, one⟩

theorem listed_agrees (server : Server) (sound : s.Sound) {j : Job} (hj : j ∈ s.jobs) :
    server.JobViewsAgree s (JobView.listed s j)
      ((applicationsWith s (·.jobId = j.id)).map (ApplicationView.shown s .ofUser)) := by
  have keyed := sound.keyed
  have found : s.FindsJob j.id j := keyed.jobId.find?_eq hj rfl
  obtain ⟨client, freelancer⟩ := JobView.listed_parties sound.linked hj
  constructor
  · exact hj
  · exact client
  · exact freelancer
  · exact ⟨s.milestonesFor j.id, JobView.listed_milestones j, fun m => Store.mem_milestonesFor,
      Store.milestonesFor_sorted keyed j.id⟩
  · rw [List.map_map, show ApplicationView.row ∘ ApplicationView.shown s .ofUser = id from rfl,
      List.map_id]
    exact Store.newestPassing_newestOf keyed.applicationId fun _ => decide_eq_true_iff
  · rw [List.length_map]
    rfl
  · intro ctx r isAsked answered
    obtain ⟨d, s', given, body⟩ := shown_of_answered isAsked.method (fun _ => isAsked.calls) rfl
      answered
    obtain ⟨k, foundToo, rfl⟩ := Hiring.showJob_ensures keyed _ _ _ given
    obtain rfl := Option.some.inj (found.symm.trans foundToo)
    exact ⟨_, body, JobView.listed_sameJob_detailed s j, rfl⟩
  · intro ctx r isAsked answered
    obtain ⟨views, s', given, body⟩ := shown_of_answered isAsked.method (fun _ => isAsked.calls) rfl
      answered
    rw [body, Hiring.listMilestones_ensures keyed _ _ _ given, JobView.listed_milestones]
    rfl
  · intro ctx r isAsked answered
    obtain ⟨listing, body, one⟩ := listsApplications_showsPage isAsked answered
    refine ⟨listing, body, ?_⟩
    rw [one.total, List.length_map, List.length_map]
    rfl
  · intro limit steps positive first all
    obtain ⟨views, shown, are⟩ := rows_of_pages
      (fun _ _ => listsApplications_showsPage) steps first
    rw [List.length_map] at all
    rw [Page.take_all positive (by rwa [List.length_map]), List.map_id'] at are
    refine ⟨views, shown, ?_⟩
    rw [are, List.map_map, List.map_map]
    exact List.map_congr_left fun a _ => ApplicationView.withoutBio_shown a
  · intro readable few ctx r connected comes isAsked
    obtain ⟨call, asked⟩ := Option.ne_none_iff_exists'.mp comes
    obtain isAsked | isAsked | isAsked := isAsked
    · obtain rfl := isAsked.calls asked
      exact answered_of_succeeds isAsked.method asked rfl
        (Hiring.showJob_succeeds sound.linked readable found connected)
    · obtain rfl := isAsked.calls asked
      exact answered_of_succeeds isAsked.method asked rfl
        (Hiring.listMilestones_succeeds readable found connected)
    · obtain ⟨q, _, rfl⟩ := isAsked.calls asked
      exact answered_of_succeeds isAsked.method asked rfl
        (Hiring.listApplications_succeeds few sound.linked readable found q connected)

/-- In a store that satisfies its constraints, all that is answered about a job fits the items of the
lists in which it is shown. -/
theorem job_views_agree (server : Server) (s : Store) (holds : s.Constrained) (ctx : Context)
    (r : Request) (isGet : r.method = .get) (path : Resource.ofPath? r.path = some .jobs)
    (answered : (server.handle ctx r s).1.status = 200) :
    ∃ listing : Listing JobView,
      (server.handle ctx r s).1.body = some (listing.toJson JobView.toJson) ∧
        ∀ v ∈ listing.data, ∃ as, server.JobViewsAgree s v as := by
  have sound := holds.sound
  have isAsked : SearchesJobs (r.param "category") (r.param "status") (r.param "search") r :=
    ⟨isGet, path, rfl, rfl, rfl⟩
  obtain ⟨call, answer, s', asked, ok, body⟩ := call_of_answered isGet answered
  obtain ⟨q, _, rfl⟩ := isAsked.calls asked
  obtain ⟨listing, given, rfl⟩ := Call.answering_result ok
  obtain ⟨jobs, stored, items⟩ := Hiring.searchJobs_ensures_listed sound.keyed _ _ _ given
  refine ⟨listing, body, fun v isItem => ?_⟩
  rw [items] at isItem
  obtain ⟨j, hj, rfl⟩ := List.mem_map.mp isItem
  exact ⟨_, server.listed_agrees sound (stored j hj)⟩

def allJobs : Request where
  method := .get
  target := "/api/jobs"
  headers := []
  body := []

theorem allJobs_answered :
    (plain.handle firstMoment allJobs siteStore).1.status = 200 ∧
      (plain.handle firstMoment allJobs siteStore).1.rows.length = 1 := by
  have isAsked : SearchesJobs none none none allJobs := by constructor <;> decide +kernel
  have few : siteStore.jobs.length < 2 ^ 62 := by decide
  have answered : (plain.handle firstMoment allJobs siteStore).1.status = 200 := by
    have comes : plain.asked? firstMoment.now allJobs ≠ none := by decide +kernel
    obtain ⟨call, asked⟩ := Option.ne_none_iff_exists'.mp comes
    obtain ⟨q, _, rfl⟩ := isAsked.calls asked
    have readable : siteStore.Readable := by constructor <;> decide
    exact answered_of_succeeds isAsked.method asked rfl
      (Hiring.searchJobs_succeeds few readable rfl rfl rfl)
  have onlySite : Store.NewestOf Job.createdAt Job.id siteStore.jobs (Job.Matches none none none)
      [siteJob] :=
    ⟨List.pairwise_singleton _ _, fun j => ⟨fun isSite => ⟨isSite, nofun, nofun, nofun⟩, And.left⟩⟩
  have lists := plain.paginates_jobs siteStore_sound.keyed few none none none onlySite
  obtain ⟨listing, body, one⟩ := lists.page firstMoment allJobs isAsked answered
  have isPage : allJobs.page = ⟨1, 10⟩ := by decide +kernel
  have data := one.data
  rw [isPage] at data
  refine ⟨answered, ?_⟩
  rw [Http.Response.rows_of_listing body, List.length_map, ← List.length_map JobView.row, data]
  rfl

theorem job_views_agree_site :
    siteStore.Constrained ∧ allJobs.method = .get ∧
      Resource.ofPath? allJobs.path = some .jobs ∧
        (plain.handle firstMoment allJobs siteStore).1.status = 200 ∧
          (plain.handle firstMoment allJobs siteStore).1.rows.length = 1 ∧
            ∃ listing : Listing JobView,
              (plain.handle firstMoment allJobs siteStore).1.body =
                some (listing.toJson JobView.toJson) ∧
                ∀ v ∈ listing.data, ∃ as, plain.JobViewsAgree siteStore v as := by
  have holds := siteStore_sound.constrained
  have path : Resource.ofPath? allJobs.path = some .jobs := by decide +kernel
  obtain ⟨answered, one⟩ := allJobs_answered
  exact ⟨holds, rfl, path, answered, one,
    job_views_agree plain siteStore holds firstMoment allJobs rfl path answered⟩

end Server

end GigBoard
