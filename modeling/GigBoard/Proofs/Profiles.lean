import GigBoard.Proofs.InternalErrors
import GigBoard.Proofs.Ties
import GigBoard.Proofs.Wallets

/-!
# Profiles and lists

A profile counts the reviews that its user received and shows the first of them, and the newest jobs on
both sides.  All of this is also shown by lists, in pages.  The lists break ties of time by
identifiers, a profile does not do so for jobs.  So its jobs are those of the lists exactly if no tie
is in the other order; requests at different times leave no ties at all.
-/

set_option autoImplicit false

namespace GigBoard

open Account (ProfileView User)
open Hiring (Job JobForm JobSummary JobView)
open Http (Request Resource Response)
open Reputation (Review ReviewView reviewsOf)
open Store (Newer NewestOf latestFirst newestPassing newestPassing_newestOf)

variable {ctx : Context} {r : Request} {s s' : Store} {call : Call} {user : Uuid} {has : Job → Bool}

/-! ## When jobs are posted -/

def Store.PostedApart (s : Store) : Prop := Rows.Unique Job.createdAt s.jobs

namespace Server

variable {server : Server}

theorem handle_createdAt_sublist (server : Server) (ctx : Context) (r : Request) (sound : s.Sound) :
    ((server.handle ctx r s).2.jobs.map Job.createdAt).Sublist
      (s.jobs.map Job.createdAt ++ [ctx.now]) := by
  have posted := (server.handle_posting_sublist ctx r sound).map Prod.snd
  rwa [List.map_append, List.map_map, List.map_map] at posted

theorem run_createdAt_sublist (server : Server) (steps : List (Context × Request))
    (sound : s.Sound) :
    ((server.run steps s).jobs.map Job.createdAt).Sublist
      (s.jobs.map Job.createdAt ++ steps.map fun step => step.1.now) := by
  induction steps generalizing s with
  | nil =>
      rw [List.map_nil, List.append_nil]
      exact .refl _
  | cons step steps ih =>
      obtain ⟨ctx, r⟩ := step
      refine (ih (server.handle_sound ctx r sound)).trans ?_
      rw [List.map_cons, List.append_cons]
      exact (server.handle_createdAt_sublist ctx r sound).append_right _

/-- Requests at different times post jobs at different times. -/
theorem run_postedApart (server : Server) {past : List (Context × Request)}
    (apart : (past.map fun step => step.1.now).Nodup) : (server.run past .empty).PostedApart := by
  have times := server.run_createdAt_sublist past Store.empty_sound
  exact List.Nodup.sublist times apart

end Server

/-! ## The newest jobs -/

namespace Store

theorem newestJobs_ok {limit : Int} {rows : List Job} (read : newestJobs limit has s = .ok rows) :
    rows = (latestFirst Job.createdAt (s.jobs.filter has)).take limit.toNat :=
  readRows_ok read

/-- A summary tells which job of the store it is of. -/
theorem ofJob_mem_iff {rows : List Job} (keyed : s.Keyed) (stored : rows ⊆ s.jobs) {j : Job}
    (hj : j ∈ s.jobs) : JobSummary.ofJob j ∈ rows.map .ofJob ↔ j ∈ rows := by
  refine ⟨fun member => ?_, List.mem_map_of_mem⟩
  obtain ⟨k, hk, same⟩ := List.mem_map.mp member
  have sameId : k.id = j.id := congrArg JobSummary.id same
  rwa [keyed.jobId.eq_of_same (stored hk) hj sameId] at hk

/-- The newest jobs with a property are shown in the order of the lists exactly if each of them has a
greater identifier than those of its time that stand behind it in the table. -/
theorem newestJobs_listed_iff (keyed : s.Keyed) (has : Job → Bool) (n : Nat) :
    ((latestFirst Job.createdAt (s.jobs.filter has)).take n).map JobSummary.ofJob =
        ((newestPassing Job.createdAt Job.id has s.jobs).take n).map .ofJob ↔
      ∀ j k, [j, k].Sublist s.jobs → has j = true → has k = true → j.createdAt = k.createdAt →
        .ofJob j ∈ ((latestFirst Job.createdAt (s.jobs.filter has)).take n).map JobSummary.ofJob →
          k.id.value < j.id.value := by
  have unique := keyed.jobId.filter has
  have stored : (latestFirst Job.createdAt (s.jobs.filter has)).take n ⊆ s.jobs := fun j hj =>
    List.mem_of_mem_filter ((perm_latestFirst _).mem_iff.mp (List.mem_of_mem_take hj))
  have stored' : (newestPassing Job.createdAt Job.id has s.jobs).take n ⊆ s.jobs := fun j hj =>
    (mem_newestPassing.mp (List.mem_of_mem_take hj)).1
  constructor
  · intro same j k before hasJ hasK tied shown
    have same := congrArg (List.map JobSummary.id) same
    rw [List.map_map, List.map_map] at same
    refine greater_of_take_eq unique (keyed.jobId.eq_of_column stored stored' same)
      (Rows.before_filter_iff.mpr ⟨before, hasJ, hasK⟩) tied ?_
    exact (ofJob_mem_iff keyed stored (before.subset (by simp))).mp shown
  · intro greater
    congr 1
    refine take_eq_of_greater unique fun j k before tied shown => ?_
    obtain ⟨before, hasJ, hasK⟩ := Rows.before_filter_iff.mp before
    exact greater j k before hasJ hasK tied (List.mem_map_of_mem shown)

end Store

/-! ## Views of reviews -/

namespace Reputation

def ReviewView.Shows (s : Store) (q : Review) (v : ReviewView) : Prop :=
  ReviewView.make s.users q = .ok v

def ViewsOf (s : Store) (user : Uuid) (views : List ReviewView) : Prop :=
  List.Forall₂ (ReviewView.Shows s) (reviewsOf s user) views

theorem exists_viewsOf (linked : s.Linked) (user : Uuid) : ∃ views, ViewsOf s user views := by
  obtain ⟨views, made⟩ : ∃ views, (reviewsOf s user).mapM (ReviewView.make s.users) = .ok views := by
    apply mapM_of_all
    intro q hq
    have known := linked.reviewReviewer q (Store.mem_newestPassing.mp hq).1
    obtain ⟨u, found⟩ := Option.isSome_iff_exists.mp (Hiring.among_isSome known)
    rw [ReviewView.make, Account.summaryAmong, found]
    exact ⟨_, rfl⟩
  exact ⟨views, mapM_eq_ok_iff.mp made⟩

/-- Views made of the users loaded for some reviews show them as the store has them. -/
theorem shows_of_loaded {ids : List Uuid} {rows : List Review} {users : List User}
    {views : List ReviewView} (loaded : Store.usersWithIds ids s = .ok users)
    (asked : ∀ q ∈ rows, q.reviewerId ∈ ids)
    (made : rows.mapM (ReviewView.make users) = .ok views) :
    List.Forall₂ (ReviewView.Shows s) rows views := by
  have each := mapM_eq_ok_iff.mp made
  clear made
  induction each with
  | nil => exact .nil
  | cons isView _ ih =>
      obtain ⟨askedFirst, askedRest⟩ := List.forall_mem_cons.mp asked
      refine .cons ?_ (ih askedRest)
      rw [ReviewView.make, Account.summaryAmong, Store.among_usersWithIds loaded askedFirst] at isView
      exact isView

theorem shows_unique {rows : List Review} {views views' : List ReviewView}
    (shows : List.Forall₂ (ReviewView.Shows s) rows views)
    (shows' : List.Forall₂ (ReviewView.Shows s) rows views') : views = views' := by
  apply List.right_unique_forall₂' _ shows shows'
  intro q v v' isView isView'
  exact Except.ok.inj (isView.symm.trans isView')

namespace ViewsOf

variable {views : List ReviewView}

theorem rows (all : ViewsOf s user views) : views.map ReviewView.row = reviewsOf s user :=
  mapM_ok (mapM_eq_ok_iff.mpr all) fun _ _ _ made => make_row made

theorem length (all : ViewsOf s user views) : (reviewsOf s user).length = views.length :=
  List.Forall₂.length_eq all

theorem slice (all : ViewsOf s user views) (p : Page) :
    List.Forall₂ (ReviewView.Shows s) (p.slice (reviewsOf s user)) (p.slice views) :=
  List.forall₂_drop _ (List.forall₂_take _ all)

end ViewsOf

theorem listReviews_ensures_shown {views : List ReviewView} (all : ViewsOf s user views)
    (q : PageQuery) :
    (listReviews user q).Ensures ctx s fun listing _ =>
      listing.IsPage (fun v => v) views q.resolve := by
  have proper := q.resolve_proper
  refine .connect (.query fun known asked => .require fun _ => .query fun total counted => ?_)
  refine proper.ensures_offset (.query fun reviews read => .query fun users loaded => ?_)
  refine .ofExcept fun shown made => ?_
  rw [countReviewsOf_eq, all.length] at counted
  refine Listing.ensures_isPage proper (Except.ok.inj counted).symm fun bounded => ?_
  rw [← all.length] at bounded
  have isSlice : reviews = q.resolve.slice (reviewsOf s user) :=
    (Store.readRows_ok read).trans (proper.window_eq_slice_of_le bounded)
  have shows := shows_of_loaded loaded (fun q hq => List.mem_map_of_mem hq) made
  rw [isSlice] at shows
  rw [List.map_id', shows_unique shows (all.slice q.resolve)]

end Reputation

/-! ## What a profile shows -/

namespace Account

structure ShowsProfileOf (s : Store) (user : Uuid) (views : List ReviewView) (v : ProfileView) :
    Prop where
  count : v.reviewCount = views.length
  received : v.reviewsReceived = views.take 20
  clientJobs : v.clientJobs =
    ((latestFirst Job.createdAt (s.jobs.filter (·.clientId = user))).take 20).map .ofJob
  freelancerJobs : v.freelancerJobs =
    ((latestFirst Job.createdAt (s.jobs.filter (·.freelancerId = some user))).take 20).map .ofJob

theorem showProfile_ensures {views : List ReviewView}
    (all : Reputation.ViewsOf s user views) :
    (showProfile user).Ensures ctx s fun v _ => ShowsProfileOf s user views v := by
  refine .connect (.query fun row _ => .expect fun u _ => .query fun sum _ => ?_)
  refine .query fun count counted => .query fun reviews read => .query fun users loaded => ?_
  refine .ofExcept fun shown made => .query fun posted readPosted => .query fun taken readTaken => ?_
  have isPart : reviews = (reviewsOf s user).take 20 := Store.readRows_ok read
  have shows := Reputation.shows_of_loaded loaded (fun q hq => List.mem_map_of_mem hq) made
  rw [isPart] at shows
  rw [Reputation.countReviewsOf_eq, all.length] at counted
  intro v s' ok
  cases ok
  refine ⟨(Except.ok.inj counted).symm, ?_, ?_, ?_⟩
  · exact Reputation.shows_unique shows (List.forall₂_take 20 all)
  · exact congrArg (List.map JobSummary.ofJob) (Store.newestJobs_ok readPosted)
  · exact congrArg (List.map JobSummary.ofJob) (Store.newestJobs_ok readTaken)

theorem showProfile_succeeds (linked : s.Linked) (readable : s.Readable)
    (known : s.hasUser user = true) (connected : ctx.connected = true) :
    (showProfile user).Succeeds ctx s := by
  obtain ⟨u, found⟩ := Option.isSome_iff_exists.mp (Hiring.among_isSome known)
  have isUser : Store.user? user s = .ok (some u) := by
    rw [Store.user?, Store.readRow_of_readable readable.users, ← found]
    rfl
  obtain ⟨reviews, views, read, shown⟩ :=
    Reputation.window_shown linked readable user 0 profileReviews
  obtain ⟨posted, readPosted⟩ :=
    Store.newestJobs_of_readable readable profileJobs (·.clientId = user)
  obtain ⟨taken, readTaken⟩ :=
    Store.newestJobs_of_readable readable profileJobs (·.freelancerId = some user)
  unfold showProfile
  refine .bind (Action.connect_of_connected connected) (.bind (Action.query_of_ok isUser) ?_)
  refine .bind rfl (.bind (Action.query_of_ok rfl) (.bind (Action.query_of_ok rfl) ?_))
  refine .bind (Action.query_of_ok read) ?_
  refine .bind (Action.query_of_ok (Store.usersWithIds_of_readable readable _)) ?_
  rw [shown]
  refine .bind rfl (.bind (Action.query_of_ok readPosted) (.bind (Action.query_of_ok readTaken) ?_))
  exact .done

end Account

/-! ## Jobs in profiles and in lists -/

def Hiring.JobSummary.ofView (v : JobView) : JobSummary :=
  ⟨v.id, v.title, v.category, v.budget, v.status, v.createdAt⟩

namespace Store

variable {rows items : List Job}

/-- Rows that are in two lists with the newest first stand in the same order in both. -/
theorem filter_mem_comm (sorted : rows.Pairwise (Newer Job.createdAt Job.id))
    (sorted' : items.Pairwise (Newer Job.createdAt Job.id)) :
    rows.filter (· ∈ items) = items.filter (· ∈ rows) := by
  apply eq_of_newer (sorted.filter _) (sorted'.filter _)
  intro j
  simp only [List.mem_filter, decide_eq_true_eq]
  exact And.comm

theorem summaries_filter (keyed : s.Keyed) (storedRows : rows ⊆ s.jobs)
    (stored : items ⊆ s.jobs) :
    (rows.map JobSummary.ofJob).filter (· ∈ items.map .ofJob) =
      (rows.filter (· ∈ items)).map .ofJob := by
  rw [List.filter_map]
  congr 1
  apply List.filter_congr
  intro j hj
  simp only [Function.comp_apply, ofJob_mem_iff keyed stored (storedRows hj)]

/-- The summaries that two lists with the newest first have in common stand in the same order in both. -/
theorem summaries_filter_comm (keyed : s.Keyed) (storedRows : rows ⊆ s.jobs)
    (stored : items ⊆ s.jobs) (sorted : rows.Pairwise (Newer Job.createdAt Job.id))
    (sorted' : items.Pairwise (Newer Job.createdAt Job.id)) :
    (rows.map JobSummary.ofJob).filter (· ∈ items.map .ofJob) =
      (items.map JobSummary.ofJob).filter (· ∈ rows.map .ofJob) := by
  rw [summaries_filter keyed storedRows stored, summaries_filter keyed stored storedRows,
    filter_mem_comm sorted sorted']

end Store

namespace Server

variable {server : Server}

/-- The jobs that a profile shows are the newest twenty with a property.  They stand in this order in
the list of all jobs, with the same fields, and those of them that a search finds do so on its pages. -/
structure JobsAgree (server : Server) (s : Store) (has : Job → Bool) (shown : List JobSummary) :
    Prop where
  newest : ∃ rows, NewestOf Job.createdAt Job.id s.jobs (fun j => has j = true) rows ∧
    shown = (rows.take 20).map .ofJob
  listed : ∀ (limit : Nat) (steps : List (Context × Request)), 1 ≤ limit →
    (∀ (i : Nat) ctx r, steps[i]? = some (ctx, r) → SearchesJobs none none none r ∧
      r.page = ⟨i + 1, limit⟩ ∧ (server.handle ctx r s).1.status = 200) →
    (steps.length : Int) = ⌈(s.jobs.length : ℚ) / limit⌉ →
      ∃ views : List JobView,
        (steps.flatMap fun step => (server.handle step.1 step.2 s).1.rows) =
          views.map JobView.toJson ∧
        shown = ((views.filter fun v => has v.row).take 20).map .ofView
  searched : ∀ category status search ctx r, SearchesJobs category status search r →
    (server.handle ctx r s).1.status = 200 → ∃ listing : Listing JobView,
      (server.handle ctx r s).1.body = some (listing.toJson JobView.toJson) ∧
        shown.filter (· ∈ listing.data.map .ofView) =
          (listing.data.map JobSummary.ofView).filter (· ∈ shown)

theorem searchesJobs_showsPage (server : Server) {category status search : Option String}
    {rows : List Job} (keyed : s.Keyed)
    (newest : NewestOf Job.createdAt Job.id s.jobs (Job.Matches category status search) rows)
    (isAsked : SearchesJobs category status search r)
    (answered : (server.handle ctx r s).1.status = 200) :
    (server.handle ctx r s).1.ShowsPage JobView.toJson JobView.row rows r.page := by
  obtain ⟨call, answer, s', asked, ok, body⟩ := call_of_answered isAsked.method answered
  obtain ⟨q, isPage, rfl⟩ := isAsked.calls asked
  obtain ⟨listing, given, rfl⟩ := Call.answering_result ok
  obtain ⟨f, filtered, _, one⟩ := Hiring.searchJobs_ensures _ listing s' given
  have same : Hiring.jobsPassing s f = rows :=
    (newestPassing_newestOf keyed.jobId (Hiring.JobQuery.accepts_iff filtered)).unique newest
  rw [same, isPage] at one
  exact ⟨listing, body, one⟩

/-- Enough pages of the list of all jobs show every job, the newest first. -/
theorem rows_of_allJobs (keyed : s.Keyed) {limit : Nat} {steps : List (Context × Request)}
    (positive : 1 ≤ limit)
    (first : ∀ (i : Nat) ctx r, steps[i]? = some (ctx, r) → SearchesJobs none none none r ∧
      r.page = ⟨i + 1, limit⟩ ∧ (server.handle ctx r s).1.status = 200)
    (enough : (steps.length : Int) = ⌈(s.jobs.length : ℚ) / limit⌉) :
    ∃ views : List JobView,
      (steps.flatMap fun step => (server.handle step.1 step.2 s).1.rows) =
        views.map JobView.toJson ∧
      views.map JobView.row = Store.newestFirst Job.createdAt Job.id s.jobs := by
  have all : NewestOf Job.createdAt Job.id s.jobs (Job.Matches none none none)
      (Store.newestFirst Job.createdAt Job.id s.jobs) := by
    refine ⟨Store.newestFirst_sorted keyed.jobId, fun j => ?_⟩
    rw [Store.mem_newestFirst, and_iff_left ⟨nofun, nofun, nofun⟩]
  obtain ⟨views, shown, are⟩ := rows_of_pages
    (fun _ _ => server.searchesJobs_showsPage keyed all) steps first
  rw [Page.take_all positive (by rwa [(Store.perm_newestFirst _).length_eq])] at are
  exact ⟨views, shown, are⟩

theorem jobsAgree_newest (server : Server) (keyed : s.Keyed) (has : Job → Bool) :
    server.JobsAgree s has
      (((newestPassing Job.createdAt Job.id has s.jobs).take 20).map .ofJob) := by
  have newest : NewestOf Job.createdAt Job.id s.jobs (fun j => has j = true) _ :=
    newestPassing_newestOf keyed.jobId fun _ => Iff.rfl
  refine ⟨⟨_, newest, rfl⟩, ?_, ?_⟩
  · intro limit steps positive first enough
    obtain ⟨views, shown, are⟩ := rows_of_allJobs keyed positive first enough
    refine ⟨views, shown, ?_⟩
    have own : (views.filter fun v => has v.row).map JobView.row =
        newestPassing Job.createdAt Job.id has s.jobs := by
      have kept := List.filter_map (f := JobView.row) (p := has) (l := views)
      rw [are, Store.filter_newestFirst keyed.jobId] at kept
      exact kept.symm
    rw [← own, ← List.map_take, List.map_map]
    rfl
  · intro category status search ctx r isAsked answered
    classical
    have found : NewestOf Job.createdAt Job.id s.jobs (Job.Matches category status search) _ :=
      newestPassing_newestOf keyed.jobId fun _ => decide_eq_true_iff
    obtain ⟨listing, body, one⟩ := server.searchesJobs_showsPage keyed found isAsked answered
    refine ⟨listing, body, ?_⟩
    have items : listing.data.map JobSummary.ofView =
        (r.page.slice (newestPassing Job.createdAt Job.id
          (fun j => decide (j.Matches category status search)) s.jobs)).map JobSummary.ofJob := by
      rw [← one.data, List.map_map]
      rfl
    rw [items]
    refine Store.summaries_filter_comm keyed (fun j hj => ?_) (fun j hj => ?_) newest.sorted.take
      (found.sorted.take).drop
    · exact ((newest.members j).mp (List.mem_of_mem_take hj)).1
    · exact ((found.members j).mp (List.mem_of_mem_take (List.mem_of_mem_drop hj))).1

/-- Of the jobs with a property a profile shows the twenty that were posted last.  They agree with the
lists exactly if each of them has a greater identifier than those of its time that stand behind it in
the table: with one tie in the other order they do not. -/
structure ShowsNewest (server : Server) (s : Store) (has : Job → Bool) (shown : List JobSummary) :
    Prop where
  latest : ∃ rows : List Job, rows.Perm (s.jobs.filter has) ∧
    rows.Pairwise (fun j k => k.createdAt ≤ j.createdAt) ∧ shown = (rows.take 20).map .ofJob
  agree_iff : server.JobsAgree s has shown ↔ ∀ j k, [j, k].Sublist s.jobs → has j = true →
    has k = true → j.createdAt = k.createdAt → .ofJob j ∈ shown → k.id.value < j.id.value

theorem showsNewest (server : Server) (keyed : s.Keyed) (has : Job → Bool) :
    server.ShowsNewest s has
      (((latestFirst Job.createdAt (s.jobs.filter has)).take 20).map .ofJob) where
  latest := ⟨_, Store.perm_latestFirst _, Store.latestFirst_sorted _, rfl⟩
  agree_iff := by
    rw [← Store.newestJobs_listed_iff keyed]
    constructor
    · intro agree
      obtain ⟨rows, newest, shown⟩ := agree.newest
      rw [shown, newest.unique (newestPassing_newestOf keyed.jobId fun _ => Iff.rfl)]
    · intro same
      rw [same]
      exact server.jobsAgree_newest keyed has

theorem ShowsNewest.agree {shown : List JobSummary} (shows : server.ShowsNewest s has shown)
    (apart : s.PostedApart) : server.JobsAgree s has shown := by
  refine shows.agree_iff.mpr fun j k before _ _ tied _ => absurd tied ?_
  exact List.pairwise_iff_forall_sublist.mp ((Rows.unique_iff_pairwise _ _).mp apart) before

structure ShowsProfile (user : Uuid) (r : Request) : Prop where
  method : r.method = .get
  path : ∃ segment, Resource.ofPath? r.path = some (.profile segment) ∧
    Http.pathId segment = .ok user

theorem ShowsProfile.asked (isAsked : ShowsProfile user r) :
    server.asked? ctx.now r = some (.showProfile user) := by
  obtain ⟨segment, path, isId⟩ := isAsked.path
  apply asked_of_callFor? isAsked.method path
  simp only [Resource.callFor?, isId]
  rfl

/-- How the profile of a user fits the lists.  It counts the reviews that the user received, which are
all by others, and shows the first of them as the pages of their list do; its jobs are the newest on
both sides. -/
structure ProfileAgrees (server : Server) (s : Store) (user : Uuid) (v : ProfileView) : Prop where
  counted : v.reviewCount = s.reviews.countP (·.revieweeId = user)
  received : ∀ w ∈ v.reviewsReceived, w.row ∈ s.reviews ∧ w.revieweeId = user
  byOthers : ∀ q ∈ s.reviews, q.revieweeId = user → q.reviewerId ≠ user
  total : ∀ ctx r, ListsReviews user r → (server.handle ctx r s).1.status = 200 →
    ∃ listing : Listing ReviewView,
      (server.handle ctx r s).1.body = some (listing.toJson ReviewView.toJson) ∧
        listing.total = v.reviewCount
  pages : ∀ (limit : Nat) (steps : List (Context × Request)), 1 ≤ limit →
    (∀ (i : Nat) ctx r, steps[i]? = some (ctx, r) → ListsReviews user r ∧
      r.page = ⟨i + 1, limit⟩ ∧ (server.handle ctx r s).1.status = 200) →
    (steps.length : Int) = ⌈(v.reviewCount : ℚ) / limit⌉ →
      ∃ views : List ReviewView,
        (steps.flatMap fun step => (server.handle step.1 step.2 s).1.rows) =
          views.map ReviewView.toJson ∧
        views.length = v.reviewCount ∧ v.reviewsReceived = views.take (min 20 v.reviewCount)
  clientJobs : server.ShowsNewest s (·.clientId = user) v.clientJobs
  freelancerJobs : server.ShowsNewest s (·.freelancerId = some user) v.freelancerJobs

theorem listsReviews_showsPage (server : Server) {views : List ReviewView}
    (all : Reputation.ViewsOf s user views) (isAsked : ListsReviews user r)
    (answered : (server.handle ctx r s).1.status = 200) :
    (server.handle ctx r s).1.ShowsPage ReviewView.toJson (fun v => v) views r.page := by
  obtain ⟨call, answer, s', asked, ok, body⟩ := call_of_answered isAsked.method answered
  obtain ⟨q, isPage, rfl⟩ := isAsked.calls asked
  obtain ⟨listing, given, rfl⟩ := Call.answering_result ok
  have one := Reputation.listReviews_ensures_shown all q listing s' given
  rw [isPage] at one
  exact ⟨listing, body, one⟩

theorem profileAgrees (server : Server) (sound : s.Sound) (reviews : s.ReviewsConsistent)
    {views : List ReviewView} {v : ProfileView} (all : Reputation.ViewsOf s user views)
    (shows : Account.ShowsProfileOf s user views v) : server.ProfileAgrees s user v := by
  have counted : v.reviewCount = s.reviews.countP (·.revieweeId = user) := by
    rw [shows.count, ← all.length, reviewsOf, Store.length_newestPassing]
  constructor
  · exact counted
  · intro w hw
    rw [shows.received] at hw
    have row : w.row ∈ reviewsOf s user := by
      rw [← all.rows]
      exact List.mem_map_of_mem (List.mem_of_mem_take hw)
    obtain ⟨stored, own⟩ := Store.mem_newestPassing.mp row
    exact ⟨stored, of_decide_eq_true own⟩
  · intro q hq own byUser
    exact (reviews.differentUsers q hq).2.2 (byUser.trans own.symm)
  · intro ctx r isAsked answered
    obtain ⟨listing, body, one⟩ := server.listsReviews_showsPage all isAsked answered
    exact ⟨listing, body, one.total.trans (congrArg Nat.cast shows.count.symm)⟩
  · intro limit steps positive first enough
    obtain ⟨found, shown, are⟩ := rows_of_pages
      (fun _ _ => server.listsReviews_showsPage all) steps first
    rw [shows.count] at enough
    rw [Page.take_all positive enough, List.map_id'] at are
    subst are
    refine ⟨found, shown, shows.count.symm, ?_⟩
    rw [shows.received, shows.count, List.take_eq_take_min]
  · rw [shows.clientJobs]
    exact server.showsNewest sound.keyed _
  · rw [shows.freelancerJobs]
    exact server.showsNewest sound.keyed _

/-- After every run the profile of a user fits the lists of reviews.  The jobs that it shows are the
newest ones; they agree with the lists of jobs if the requests came at different times, and in general
exactly if no two jobs of one time stand the other way round.  If the times can be read back, the
profile of every user is shown. -/
theorem profile_agrees (server : Server) (past : List (Context × Request)) (user : Uuid)
    (ctx : Context) (r : Request) (isAsked : ShowsProfile user r) :
    ((server.handle ctx r (server.run past .empty)).1.status = 200 → ∃ v : ProfileView,
      (server.handle ctx r (server.run past .empty)).1.body = some v.toJson ∧
        server.ProfileAgrees (server.run past .empty) user v ∧
        ((past.map fun step => step.1.now).Nodup →
          server.JobsAgree (server.run past .empty) (·.clientId = user) v.clientJobs ∧
          server.JobsAgree (server.run past .empty) (·.freelancerId = some user)
            v.freelancerJobs)) ∧
    ((∀ step ∈ past, step.1.now.isRepresentable = true) → ctx.connected = true →
      (server.run past .empty).hasUser user = true →
        (server.handle ctx r (server.run past .empty)).1.status = 200) := by
  have coherent := server.run_coherent past
  have sound := coherent.sound
  refine ⟨fun answered => ?_, fun timely connected known => ?_⟩
  · obtain ⟨v, s', given, body⟩ := shown_of_answered isAsked.method
      (fun c asked => Option.some.inj (asked.symm.trans isAsked.asked)) rfl answered
    obtain ⟨views, all⟩ := Reputation.exists_viewsOf sound.linked user
    have agrees := server.profileAgrees sound
      (coherent.reviewsConsistent (server.run_attributed past)) all
      (Account.showProfile_ensures all v s' given)
    refine ⟨v, body, agrees, fun times => ?_⟩
    have apart := server.run_postedApart times
    exact ⟨agrees.clientJobs.agree apart, agrees.freelancerJobs.agree apart⟩
  · have readable := server.run_readable past Store.empty_readable timely
    exact answered_of_succeeds isAsked.method isAsked.asked rfl
      (Account.showProfile_succeeds sound.linked readable known connected)

/-- The time at which the newcomer registers, as the first of the users. -/
def openingMoment : Context := ⟨true, ⟨-1⟩, fun n => .ofNat (n + 1)⟩

def shopPosting : Request where
  method := .post
  target := "/api/jobs"
  headers := ("content-type", "application/json") :: removal.headers
  body := Text.Utf8.ofString "\x7b\"title\":\"Shop\",\"budget\":1,\"category\":\"Web\"\x7d"

def shopForm : JobForm := ⟨some "Shop", none, some (.powerOfTen 0), some "Web", none⟩

def annProfile : Request where
  method := .get
  target := "/api/users/00000000-0000-0000-0000-000000000001"
  headers := []
  body := []

/-- The time of the first posting again, with other identifiers. -/
def sameMoment : Context := { firstMoment with freshId := fun n => .ofNat (n + 9) }

theorem shopPosting_posts {ctx : Context} (sameTime : ctx.now = firstMoment.now) :
    plain.PostsJob ann.id shopForm ctx shopPosting :=
  ⟨rfl, by decide +kernel, by rw [sameTime]; exact ann_known rfl,
    decodeBody_of_leading (by decide +kernel) (by decide +kernel) (by decide +kernel)⟩

theorem annProfile_shows : ShowsProfile ann.id annProfile :=
  ⟨rfl, ⟨"00000000-0000-0000-0000-000000000001".toList, by decide +kernel,
    Http.pathId_eq_ok_iff.mpr (by decide +kernel)⟩⟩

def shopOpening : List (Context × Request) :=
  [(openingMoment, newcomer), (firstMoment, shopPosting)]

def twinOpening : List (Context × Request) := shopOpening ++ [(sameMoment, shopPosting)]

def postShop (ctx : Context) (s : Store) : Store :=
  ((Call.postJob ann.id shopForm).perform ctx s).2

theorem handle_shopPosting {ctx : Context} (sameTime : ctx.now = firstMoment.now) (s : Store) :
    (plain.handle ctx shopPosting s).2 = postShop ctx s := by
  rw [(handle_of_asked (asked?_postJob_iff.mpr (shopPosting_posts sameTime))).1, postShop]

theorem run_shopOpening : plain.run shopOpening .empty =
    postShop firstMoment ((Call.register newcomerForm).perform openingMoment .empty).2 := by
  have registers : Registers openingMoment newcomer .empty newcomerForm :=
    ⟨rfl, newcomer_registers.path, newcomer_registers.body, newcomer_registers.storable, rfl, rfl,
      nofun⟩
  rw [shopOpening, run, run, run, (handle_of_asked registers.asked).1, handle_shopPosting rfl]

theorem run_twinOpening : plain.run twinOpening .empty =
    postShop sameMoment (plain.run shopOpening .empty) := by
  have sameTime : sameMoment.now = firstMoment.now := rfl
  rw [twinOpening, run_append_one, handle_shopPosting sameTime]

theorem jobs_twinOpening : ∃ j k : Job, (plain.run twinOpening .empty).jobs = [j, k] ∧
    j.clientId = ann.id ∧ k.clientId = ann.id ∧ j.createdAt = k.createdAt ∧
      j.id.value < k.id.value := by
  have columns : (plain.run twinOpening .empty).jobs.map
      (fun j => (j.id.value, j.clientId, j.createdAt.micros)) = [(2, ann.id, 0), (9, ann.id, 0)] := by
    rw [run_twinOpening, run_shopOpening]
    decide +kernel
  obtain ⟨j, rest, isCons, first, others⟩ := List.map_eq_cons_iff.mp columns
  obtain ⟨k, rest, rfl, second, none⟩ := List.map_eq_cons_iff.mp others
  obtain rfl := List.map_eq_nil_iff.mp none
  simp only [Prod.mk.injEq] at first second
  refine ⟨j, k, isCons, first.2.1, second.2.1, ?_, by omega⟩
  rw [Timestamp.eq_iff, first.2.2, second.2.2]

theorem profile_agrees_site :
    (shopOpening.map fun step => step.1.now).Nodup ∧ ShowsProfile ann.id annProfile ∧
      (∀ step ∈ twinOpening, step.1.now.isRepresentable = true) ∧
      firstMoment.connected = true ∧ (plain.run shopOpening .empty).hasUser ann.id = true ∧
      (∃ v : ProfileView,
        (plain.handle firstMoment annProfile (plain.run shopOpening .empty)).1.body = some v.toJson ∧
        plain.ProfileAgrees (plain.run shopOpening .empty) ann.id v ∧
        plain.JobsAgree (plain.run shopOpening .empty) (·.clientId = ann.id) v.clientJobs ∧
        v.clientJobs ≠ []) ∧
      ∃ v : ProfileView,
        (plain.handle firstMoment annProfile (plain.run twinOpening .empty)).1.body = some v.toJson ∧
        ¬plain.JobsAgree (plain.run twinOpening .empty) (·.clientId = ann.id) v.clientJobs := by
  have apart : (shopOpening.map fun step => step.1.now).Nodup := by decide
  have timely : ∀ step ∈ twinOpening, step.1.now.isRepresentable = true := by
    simp only [twinOpening, shopOpening, List.forall_mem_append, List.forall_mem_cons]
    exact ⟨⟨rfl, rfl, List.forall_mem_nil _⟩, rfl, List.forall_mem_nil _⟩
  have known : (plain.run shopOpening .empty).hasUser ann.id = true := by
    rw [run_shopOpening]
    decide +kernel
  have known' : (plain.run twinOpening .empty).hasUser ann.id = true := by
    rw [run_twinOpening, run_shopOpening]
    decide +kernel
  have posted : ∃ j ∈ (plain.run shopOpening .empty).jobs, j.clientId = ann.id := by
    rw [run_shopOpening]
    decide +kernel
  obtain ⟨agrees, answers⟩ :=
    profile_agrees plain shopOpening ann.id firstMoment annProfile annProfile_shows
  obtain ⟨v, body, fits, agree⟩ :=
    agrees (answers (fun step h => timely step (List.mem_append_left _ h)) rfl known)
  obtain ⟨agrees', answers'⟩ :=
    profile_agrees plain twinOpening ann.id firstMoment annProfile annProfile_shows
  obtain ⟨v', body', fits', -⟩ := agrees' (answers' timely rfl known')
  refine ⟨apart, annProfile_shows, timely, rfl, known,
    ⟨v, body, fits, (agree apart).1, ?_⟩, v', body', fun agree' => ?_⟩
  · obtain ⟨rows, newest, shown⟩ := (agree apart).1.newest
    obtain ⟨j, hj, own⟩ := posted
    obtain ⟨first, rest, rfl⟩ := List.exists_cons_of_ne_nil
      (List.ne_nil_of_mem ((newest.members j).mpr ⟨hj, decide_eq_true own⟩))
    rw [shown]
    exact List.cons_ne_nil _ _
  · obtain ⟨j, k, jobs, ownJ, ownK, tied, lesser⟩ := jobs_twinOpening
    obtain ⟨rows, perm, _, shown⟩ := fits'.clientJobs.latest
    rw [jobs, List.filter_eq_self.mpr (by simp [ownJ, ownK])] at perm
    have isShown : .ofJob j ∈ v'.clientJobs := by
      rw [shown, List.take_of_length_le (by simp [perm.length_eq])]
      exact List.mem_map_of_mem (perm.mem_iff.mpr List.mem_cons_self)
    have greater := fits'.clientJobs.agree_iff.mp agree' j k (by rw [jobs]) (decide_eq_true ownJ)
      (decide_eq_true ownK) tied isShown
    omega

end Server

end GigBoard
