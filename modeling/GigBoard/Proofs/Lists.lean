import GigBoard.Proofs.Answers
import GigBoard.Proofs.Order
import GigBoard.Proofs.Paging
import GigBoard.Proofs.Searching

/-!
# Lists in pages

Jobs, the applications for a job, those of a freelancer and the reviews of a user are listed page by
page.  Each page shows its part of all rows that are meant, the newest first, with their number; the
pages one after the other show every row once, and behind the last there is nothing.
-/

set_option autoImplicit false

namespace GigBoard

open Hiring (Application ApplicationView Job JobView)
open Http (Request Resource Response)
open Reputation (Review ReviewView)
open Store (NewestOf newestFirst newestPassing)

variable {ctx : Context} {r : Request} {s : Store}

/-! ## Rows on a page -/

def Hiring.JobView.row (v : JobView) : Job :=
  ⟨v.id, v.title, v.description, v.budget, v.category, v.status, v.clientId, v.freelancerId,
    v.createdAt, v.updatedAt⟩

def Hiring.ApplicationView.row (v : ApplicationView) : Application :=
  ⟨v.id, v.jobId, v.freelancerId, v.coverLetter, v.proposedBudget, v.status, v.createdAt,
    v.updatedAt⟩

def Reputation.ReviewView.row (v : ReviewView) : Review :=
  ⟨v.id, v.jobId, v.reviewerId, v.revieweeId, v.rating, v.comment, v.createdAt⟩

namespace Store

variable {α β : Type} {time : β → Timestamp} {id : β → Uuid}

theorem newestFirst_map (f : α → β) (rows : List α) :
    (newestFirst (fun a => time (f a)) (fun a => id (f a)) rows).map f =
      newestFirst time id (rows.map f) :=
  List.map_mergeSort fun _ _ _ _ => rfl

/-- Where every row finds its job, joining loses no row. -/
theorem map_fst_joined {job : α → Uuid} {rows : List α} (known : ∀ a ∈ rows, s.hasJob (job a)) :
    (rows.filterMap fun a => (s.jobs.find? (·.id = job a)).map fun j => (a, j)).map Prod.fst =
      rows := by
  have kept : ∀ a ∈ rows,
      ((s.jobs.find? (·.id = job a)).map fun j => (a, j)).map Prod.fst = some a := by
    intro a ha
    have found : (s.jobs.find? (·.id = job a)).isSome = true := by
      rw [List.find?_isSome]
      exact List.any_eq_true.mp (known a ha)
    obtain ⟨j, isJob⟩ := Option.isSome_iff_exists.mp found
    rw [isJob]
    rfl
  rw [List.map_filterMap, List.filterMap_congr kept, List.filterMap_some]

theorem newestPassing_few {table : List β} (few : table.length < 2 ^ 62) (test : β → Bool) :
    (newestPassing time id test table).length < 2 ^ 62 := by
  rw [length_newestPassing]
  exact List.countP_le_length.trans_lt few

theorem window_of_readable {isReadable test : β → Bool} {table : List β} (offset limit : Int)
    (readable : ∀ r ∈ table, isReadable r = true) :
    ∃ rows, readRows isReadable (window offset limit (newestPassing time id test table)) = .ok rows ∧
      ∀ r ∈ rows, r ∈ table := by
  have members : ∀ r ∈ window offset limit (newestPassing time id test table), r ∈ table := by
    intro r hr
    exact (mem_newestPassing.mp (List.mem_of_mem_drop (List.mem_of_mem_take hr))).1
  exact ⟨_, readRows_of_all fun r hr => readable r (members r hr), members⟩

end Store

/-! ## One page at a time -/

section OnePage

variable {p : Page} {α β : Type} {told : β → Store → Prop} {next : Int → Action β}

theorem Page.Proper.ensures_offset (proper : p.Proper) (rest : (next p.start).Ensures ctx s told) :
    (Action.ofExcept (p.offset.mapError Failure.arithmetic) >>= next).Ensures ctx s told := by
  refine .ofExcept fun offset given => ?_
  rw [proper.offset_ok] at given
  cases given
  exact rest

theorem Page.Proper.succeeds_offset (proper : p.Proper) (rest : (next p.start).Succeeds ctx s) :
    (Action.ofExcept (p.offset.mapError Failure.arithmetic) >>= next).Succeeds ctx s := by
  rw [proper.offset_ok]
  exact .bind rfl rest

theorem mapError_ok {ε ε' α : Type} {x : Except ε α} {f : ε → ε'} {a : α}
    (ok : x.mapError f = .ok a) : x = .ok a := by
  cases x with
  | error e => cases ok
  | ok b =>
      cases ok
      rfl

/-- What is given of some views as a page is that page, if the views show it.  That it is given bounds
the number of rows. -/
theorem Listing.ensures_isPage {row : β → α} {rows : List α} (proper : p.Proper) {views : List β}
    {total : Nat} (counted : total = rows.length)
    (shows : rows.length ≤ 9223372036854775807 → views.map row = p.slice rows) :
    (Action.ofExcept ((Listing.make views total p).mapError Failure.arithmetic)).Ensures ctx s
      fun listing _ => listing.IsPage row rows p := by
  refine .ofExcept_last fun listing made => ?_
  obtain ⟨rfl, bounded⟩ := Listing.of_make proper (mapError_ok made)
  rw [counted] at bounded ⊢
  exact ⟨rfl, rfl, rfl, shows bounded⟩

theorem Listing.succeeds (proper : p.Proper) {n : Nat} (few : n < 2 ^ 62) {views : List β} :
    (Action.ofExcept ((Listing.make views n p).mapError Failure.arithmetic)).Succeeds ctx s := by
  rw [Listing.make_ok proper few]
  exact .done

end OnePage

namespace Hiring

def jobsPassing (s : Store) (f : Store.JobFilter) : List Job :=
  newestPassing Job.createdAt Job.id f.accepts s.jobs

theorem countJobs_eq {f : Store.JobFilter} (sendable : f.isSendable = true) :
    Store.countJobs f s = .ok (jobsPassing s f).length := by
  rw [Store.countJobs, if_pos sendable, jobsPassing, Store.length_newestPassing,
    List.countP_eq_length_filter]

theorem searchJobs_ensures (q : JobQuery) :
    (searchJobs q).Ensures ctx s fun listing _ =>
      ∃ f, q.filter = .ok f ∧ f.isSendable = true ∧
        listing.IsPage JobView.row (jobsPassing s f) q.page.resolve := by
  have proper := q.page.resolve_proper
  refine .ofExcept fun f filtered => .connect (.query fun total counted => ?_)
  refine proper.ensures_offset (.query fun jobs read => .query fun milestones _ => ?_)
  refine .query fun counts _ => .query fun users _ => ?_
  have sendable : f.isSendable = true := by
    by_contra refused
    rw [Store.countJobs, if_neg refused] at counted
    cases counted
  rw [countJobs_eq sendable] at counted
  cases counted
  rw [Store.jobsWindow, if_pos sendable] at read
  intro listing s' ok
  refine ⟨f, filtered, sendable, Listing.ensures_isPage proper rfl (fun bounded => ?_) _ _ ok⟩
  have isSlice : jobs = q.page.resolve.slice (jobsPassing s f) :=
    (Store.readRows_ok read).trans (proper.window_eq_slice_of_le bounded)
  rw [← isSlice, List.map_map]
  exact List.map_id _

theorem searchJobs_succeeds (few : s.jobs.length < 2 ^ 62) (readable : s.Readable) {q : JobQuery}
    {f : Store.JobFilter} (filtered : q.filter = .ok f) (sendable : f.isSendable = true)
    (connected : ctx.connected = true) : (searchJobs q).Succeeds ctx s := by
  have proper := q.page.resolve_proper
  obtain ⟨jobs, read⟩ : ∃ jobs,
      Store.jobsWindow f q.page.resolve.start q.page.resolve.limit s = .ok jobs := by
    rw [Store.jobsWindow, if_pos sendable]
    obtain ⟨jobs, read, _⟩ := Store.window_of_readable _ _ readable.jobs
    exact ⟨jobs, read⟩
  obtain ⟨milestones, loaded⟩ := Store.milestonesOf_of_readable readable (jobs.map (·.id))
  unfold searchJobs
  rw [filtered]
  refine .bind rfl (.bind (Action.connect_of_connected connected) ?_)
  refine .bind (Action.query_of_ok (countJobs_eq sendable)) (proper.succeeds_offset ?_)
  refine .bind (Action.query_of_ok read) (.bind (Action.query_of_ok loaded) ?_)
  refine .bind (Action.query_of_ok rfl) ?_
  refine .bind (Action.query_of_ok (Store.usersWithIds_of_readable readable _)) ?_
  exact Listing.succeeds proper (Store.newestPassing_few few _)

/-- The applications with a property that belongs to their rows. -/
def applicationsWith (s : Store) (test : Application → Bool) : List Application :=
  newestPassing Application.createdAt Application.id test s.applications

theorem countApplications_eq (test : Application → Bool) :
    Store.countApplications test s = .ok (applicationsWith s test).length := by
  rw [Store.countApplications, applicationsWith, Store.length_newestPassing]

theorem withFreelancer_row {users : List Account.User}
    {summary : Account.User → Account.UserSummary} {a : Application} {v : ApplicationView}
    (made : ApplicationView.withFreelancer users summary a = .ok v) : v.row = a := by
  unfold ApplicationView.withFreelancer at made
  split at made
  · cases made
  · cases made
    rfl

theorem listApplications_ensures (id : Uuid) (q : PageQuery) :
    (listApplications id q).Ensures ctx s fun listing _ =>
      (∃ j, s.FindsJob id j) ∧
        listing.IsPage ApplicationView.row (applicationsWith s (·.jobId = id)) q.resolve := by
  have proper := q.resolve_proper
  refine .connect (.reading (findJob_readOnly id) fun j found => .query fun total counted => ?_)
  refine proper.ensures_offset (.query fun applications read => .query fun users _ => ?_)
  refine .ofExcept fun views made => ?_
  rw [countApplications_eq] at counted
  cases counted
  intro listing s' ok
  refine ⟨⟨j, (findJob_ok found).1⟩,
    Listing.ensures_isPage proper rfl (fun bounded => ?_) _ _ ok⟩
  have isSlice : applications = q.resolve.slice (applicationsWith s (·.jobId = id)) :=
    (Store.readRows_ok read).trans (proper.window_eq_slice_of_le bounded)
  rw [← isSlice]
  exact mapM_ok made fun a _ v isView => withFreelancer_row isView

theorem listApplications_succeeds (few : s.applications.length < 2 ^ 62) (linked : s.Linked)
    (readable : s.Readable) {id : Uuid} {j : Job} (found : s.FindsJob id j) (q : PageQuery)
    (connected : ctx.connected = true) : (listApplications id q).Succeeds ctx s := by
  have proper := q.resolve_proper
  obtain ⟨applications, read, members⟩ : ∃ applications,
      Store.applicationsWindow id q.resolve.start q.resolve.limit s = .ok applications ∧
        ∀ a ∈ applications, a ∈ s.applications :=
    Store.window_of_readable _ _ readable.applications
  obtain ⟨views, shown⟩ : ∃ views, applications.mapM (ApplicationView.withFreelancer
      (s.users.filter fun u => (applications.map (·.freelancerId)).contains u.id) .withBio) =
        .ok views := by
    apply mapM_of_all
    intro a ha
    have known := linked.applicationFreelancer a (members a ha)
    obtain ⟨u, loaded⟩ := Store.among_loaded known (List.mem_map_of_mem ha)
    rw [ApplicationView.withFreelancer, loaded]
    exact ⟨_, rfl⟩
  unfold listApplications
  refine .bind (Action.connect_of_connected connected) (.bind (findJob_of_found readable found) ?_)
  refine .bind (Action.query_of_ok (countApplications_eq _)) (proper.succeeds_offset ?_)
  refine .bind (Action.query_of_ok read) ?_
  refine .bind (Action.query_of_ok (Store.usersWithIds_of_readable readable _)) ?_
  rw [shown]
  exact .bind rfl (Listing.succeeds proper (Store.newestPassing_few few _))

/-- Every application of a freelancer stands beside its job, so the pairs are the applications. -/
theorem map_fst_ownApplications (linked : s.Linked) (caller : Uuid) :
    (newestFirst (fun p : Application × Job => p.1.createdAt) (fun p => p.1.id)
      ((s.applications.filter (·.freelancerId = caller)).filterMap fun a =>
        (s.jobs.find? (·.id = a.jobId)).map fun j => (a, j))).map Prod.fst =
      applicationsWith s (·.freelancerId = caller) := by
  rw [Store.newestFirst_map, Store.map_fst_joined]
  · rfl
  · intro a ha
    exact linked.applicationJob a (List.mem_filter.mp ha).1

theorem listOwnApplications_ensures (linked : s.Linked) (caller : Uuid) (q : PageQuery) :
    (listOwnApplications caller q).Ensures ctx s fun listing _ =>
      listing.IsPage ApplicationView.row (applicationsWith s (·.freelancerId = caller))
        q.resolve := by
  have proper := q.resolve_proper
  refine .connect (.query fun total counted => ?_)
  refine proper.ensures_offset (.query fun pairs read => ?_)
  rw [countApplications_eq] at counted
  cases counted
  refine Listing.ensures_isPage proper rfl fun bounded => ?_
  rw [List.map_map, ← proper.window_eq_slice_of_le bounded,
    ← map_fst_ownApplications linked, Store.readRows_ok read, Store.window, Store.window,
    List.map_take, List.map_drop]
  rfl

theorem listOwnApplications_succeeds (few : s.applications.length < 2 ^ 62)
    (readable : s.Readable) (caller : Uuid) (q : PageQuery) (connected : ctx.connected = true) :
    (listOwnApplications caller q).Succeeds ctx s := by
  have proper := q.resolve_proper
  obtain ⟨pairs, read⟩ : ∃ pairs,
      Store.applicationsOfWindow caller q.resolve.start q.resolve.limit s = .ok pairs := by
    refine ⟨_, Store.readRows_of_all ?_⟩
    rintro ⟨a, j⟩ member
    have joined := Store.mem_newestFirst.mp (List.mem_of_mem_drop (List.mem_of_mem_take member))
    obtain ⟨b, hb, isPair⟩ := List.mem_filterMap.mp joined
    obtain ⟨k, found, same⟩ := Option.map_eq_some_iff.mp isPair
    cases same
    rw [readable.applications a (List.mem_filter.mp hb).1,
      readable.jobs j (List.mem_of_find?_eq_some found)]
    rfl
  unfold listOwnApplications
  refine .bind (Action.connect_of_connected connected) ?_
  refine .bind (Action.query_of_ok (countApplications_eq _)) (proper.succeeds_offset ?_)
  refine .bind (Action.query_of_ok read) ?_
  exact Listing.succeeds proper (Store.newestPassing_few few _)

end Hiring

namespace Reputation

def reviewsOf (s : Store) (user : Uuid) : List Review :=
  newestPassing Review.createdAt Review.id (·.revieweeId = user) s.reviews

theorem countReviewsOf_eq (user : Uuid) :
    Store.countReviewsOf user s = .ok (reviewsOf s user).length := by
  rw [Store.countReviewsOf, reviewsOf, Store.length_newestPassing]

theorem make_row {users : List Account.User} {r : Review} {v : ReviewView}
    (made : ReviewView.make users r = .ok v) : v.row = r := by
  unfold ReviewView.make at made
  cases loaded : Account.summaryAmong users r.reviewerId with
  | error f =>
      rw [loaded] at made
      cases made
  | ok reviewer =>
      rw [loaded] at made
      cases made
      rfl

theorem listReviews_ensures (user : Uuid) (q : PageQuery) :
    (listReviews user q).Ensures ctx s fun listing _ =>
      s.hasUser user = true ∧ listing.IsPage ReviewView.row (reviewsOf s user) q.resolve := by
  have proper := q.resolve_proper
  refine .connect (.query fun known asked => .require fun isKnown => ?_)
  cases asked
  refine .query fun total counted => proper.ensures_offset (.query fun reviews read => ?_)
  refine .query fun reviewers _ => .ofExcept fun views made => ?_
  rw [countReviewsOf_eq] at counted
  cases counted
  intro listing s' ok
  refine ⟨isKnown, Listing.ensures_isPage proper rfl (fun bounded => ?_) _ _ ok⟩
  have isSlice : reviews = q.resolve.slice (reviewsOf s user) :=
    (Store.readRows_ok read).trans (proper.window_eq_slice_of_le bounded)
  rw [← isSlice]
  exact mapM_ok made fun r _ v isView => make_row isView

/-- Part of the reviews of a user can be shown with their reviewers. -/
theorem window_shown (linked : s.Linked) (readable : s.Readable) (user : Uuid)
    (offset limit : Int) :
    ∃ reviews views, Store.reviewsOfWindow user offset limit s = .ok reviews ∧
      reviews.mapM (ReviewView.make
        (s.users.filter fun u => (reviews.map (·.reviewerId)).contains u.id)) = .ok views := by
  obtain ⟨reviews, read, members⟩ : ∃ reviews,
      Store.reviewsOfWindow user offset limit s = .ok reviews ∧ ∀ r ∈ reviews, r ∈ s.reviews :=
    Store.window_of_readable _ _ readable.reviews
  obtain ⟨views, shown⟩ : ∃ views, reviews.mapM (ReviewView.make
      (s.users.filter fun u => (reviews.map (·.reviewerId)).contains u.id)) = .ok views := by
    apply mapM_of_all
    intro r hr
    have isThere := linked.reviewReviewer r (members r hr)
    obtain ⟨u, loaded⟩ := Store.among_loaded isThere (List.mem_map_of_mem hr)
    rw [ReviewView.make, Account.summaryAmong, loaded]
    exact ⟨_, rfl⟩
  exact ⟨reviews, views, read, shown⟩

theorem listReviews_succeeds (few : s.reviews.length < 2 ^ 62) (linked : s.Linked)
    (readable : s.Readable) {user : Uuid} (known : s.hasUser user = true) (q : PageQuery)
    (connected : ctx.connected = true) : (listReviews user q).Succeeds ctx s := by
  have proper := q.resolve_proper
  obtain ⟨reviews, views, read, shown⟩ :=
    window_shown linked readable user q.resolve.start q.resolve.limit
  have isKnown : Action.query (fun s => .ok (s.hasUser user)) ctx s = (.ok true, s) := by
    rw [Action.query, known]
  unfold listReviews
  refine .bind (Action.connect_of_connected connected) (.bind isKnown (.bind rfl ?_))
  refine .bind (Action.query_of_ok (countReviewsOf_eq _)) (proper.succeeds_offset ?_)
  refine .bind (Action.query_of_ok read) ?_
  refine .bind (Action.query_of_ok (Store.usersWithIds_of_readable readable _)) ?_
  rw [shown]
  exact .bind rfl (Listing.succeeds proper (Store.newestPassing_few few _))

end Reputation

end GigBoard
