import GigBoard.Proofs.Constraints
import GigBoard.Proofs.Differences
import GigBoard.Proofs.Lists

/-!
# Pages as they are answered

`Paginates` says of some questions that each of them, if it is answered, is answered with its page of
some rows; that the answers to all pages, one after the other, show every row once; that nothing is
shown behind the last page; and that whoever is answered one page is answered every other.  The four
lists of the service are answered so, each with all rows that are meant in the order of `NewestOf`.
-/

set_option autoImplicit false

namespace GigBoard

open Hiring (Application ApplicationView Job JobView)
open Http (Request Resource Response)
open Reputation (Review ReviewView)
open Store (NewestOf newestPassing newestPassing_newestOf)

variable {ctx : Context} {r : Request} {s : Store}

structure Store.FewerThan (n : Nat) (s : Store) : Prop where
  users : s.users.length < n
  jobs : s.jobs.length < n
  milestones : s.milestones.length < n
  applications : s.applications.length < n
  messages : s.messages.length < n
  reviews : s.reviews.length < n

def Http.Response.rows (response : Response) : List Json :=
  match response.body.bind (·.member? "data") with
  | some (.array elements) => elements
  | _ => []

/-- A response shows a page of some rows by views, each of one of the rows. -/
def Http.Response.ShowsPage {α β : Type} (item : β → Json) (row : β → α) (rows : List α) (p : Page)
    (response : Response) : Prop :=
  ∃ listing : Listing β, response.body = some (listing.toJson item) ∧ listing.IsPage row rows p

theorem Http.Response.rows_of_listing {β : Type} {response : Response} {item : β → Json}
    {listing : Listing β} (shows : response.body = some (listing.toJson item)) :
    response.rows = listing.data.map item := by
  rw [rows, shows]
  rfl

namespace Server

variable {server : Server} {α β : Type}

/-- How questions for pages of some rows are answered, by views that show the rows. -/
structure Paginates (server : Server) (s : Store) (asks : Context → Request → Prop)
    (item : β → Json) (row : β → α) (rows : List α) : Prop where
  page : ∀ ctx r, asks ctx r → (server.handle ctx r s).1.status = 200 →
    (server.handle ctx r s).1.ShowsPage item row rows r.page
  whole : ∀ (limit : Nat) (steps : List (Context × Request)), 1 ≤ limit →
    (∀ (i : Nat) ctx r, steps[i]? = some (ctx, r) → asks ctx r ∧ r.page = ⟨i + 1, limit⟩ ∧
      (server.handle ctx r s).1.status = 200) →
    (steps.length : Int) = ⌈(rows.length : ℚ) / limit⌉ →
      ∃ views : List β,
        (steps.flatMap fun step => (server.handle step.1 step.2 s).1.rows) = views.map item ∧
          views.map row = rows
  beyond : ∀ ctx r, asks ctx r → (server.handle ctx r s).1.status = 200 →
    ⌈(rows.length : ℚ) / r.page.limit⌉ < r.page.page → (server.handle ctx r s).1.rows = []
  unchanged : ∀ ctx r, asks ctx r → (server.handle ctx r s).2 = s
  answered : s.Readable → ∀ ctx r, asks ctx r → (server.handle ctx r s).1.status = 200 →
    ∀ ctx' r', asks ctx' r' → ctx'.connected = true → server.asked? ctx'.now r' ≠ none →
      (server.handle ctx' r' s).1.status = 200

section Paginates

variable {asks : Context → Request → Prop} {item : β → Json} {row : β → α} {rows : List α}

/-- Answers to the first pages show the rows up to the end of the last of them. -/
theorem rows_of_pages
    (page : ∀ ctx r, asks ctx r → (server.handle ctx r s).1.status = 200 →
      (server.handle ctx r s).1.ShowsPage item row rows r.page)
    {limit : Nat} (steps : List (Context × Request))
    (first : ∀ (i : Nat) ctx r, steps[i]? = some (ctx, r) → asks ctx r ∧ r.page = ⟨i + 1, limit⟩ ∧
      (server.handle ctx r s).1.status = 200) :
    ∃ views : List β,
      (steps.flatMap fun step => (server.handle step.1 step.2 s).1.rows) = views.map item ∧
        views.map row = rows.take (steps.length * limit) := by
  -- On the number of pages: one more page continues the rows of those in front of it.
  induction steps using List.reverseRecOn with
  | nil => exact ⟨[], rfl, by simp⟩
  | append_singleton steps step ih =>
      obtain ⟨ctx, r⟩ := step
      obtain ⟨views, shown, are⟩ := ih fun i c q isStep => by
        have inFront : i < steps.length := (List.getElem?_eq_some_iff.mp isStep).1
        exact first i c q (by rw [List.getElem?_append_left inFront]; exact isStep)
      obtain ⟨isAsked, isPage, answered⟩ := first steps.length ctx r (by simp)
      obtain ⟨listing, body, one⟩ := page ctx r isAsked answered
      refine ⟨views ++ listing.data, ?_, ?_⟩
      · rw [List.flatMap_append, shown, List.map_append, List.flatMap_singleton,
          Response.rows_of_listing body]
      · rw [List.map_append, are, one.data, isPage, Page.take_append_slice, List.length_append,
          List.length_singleton]

/-- Questions that make one call, of which the answer is a page of some rows if there is one; there is
only if something holds. -/
structure ListedBy (server : Server) (s : Store) (asks : Context → Request → Prop)
    (item : β → Json) (row : β → α) (rows : List α) (act : PageQuery → Action (Listing β))
    (possible : Prop) : Prop where
  isGet : ∀ ctx r, asks ctx r → r.method = .get
  calls : ∀ ctx r call, asks ctx r → server.asked? ctx.now r = some call →
    call.asks = true ∧ ∃ q : PageQuery, q.resolve = r.page ∧
      call.perform = Call.answering (act q) fun l => .ok (l.toJson item)
  lists : ∀ ctx q, (act q).Ensures ctx s fun listing _ =>
    possible ∧ listing.IsPage row rows q.resolve

namespace ListedBy

variable {act : PageQuery → Action (Listing β)} {possible : Prop}
  (listed : server.ListedBy s asks item row rows act possible)

include listed

theorem shown {ctx : Context} {r : Request} (isAsked : asks ctx r)
    (answered : (server.handle ctx r s).1.status = 200) :
    possible ∧ (server.handle ctx r s).1.ShowsPage item row rows r.page := by
  obtain ⟨call, answer, s', asked, ok, body⟩ :=
    call_of_answered (listed.isGet ctx r isAsked) answered
  obtain ⟨_, q, isPage, performs⟩ := listed.calls ctx r call isAsked asked
  rw [performs] at ok
  obtain ⟨listing, done, rfl⟩ := Call.answering_result ok
  obtain ⟨can, one⟩ := listed.lists ctx q listing s' done
  rw [isPage] at one
  exact ⟨can, listing, body, one⟩

theorem answered {ctx : Context} {r : Request} (succeeds : ∀ q, (act q).Succeeds ctx s)
    (isAsked : asks ctx r) (comes : server.asked? ctx.now r ≠ none) :
    (server.handle ctx r s).1.status = 200 := by
  obtain ⟨call, asked⟩ := Option.ne_none_iff_exists'.mp comes
  obtain ⟨_, q, _, performs⟩ := listed.calls ctx r call isAsked asked
  exact answered_of_succeeds (listed.isGet ctx r isAsked) asked performs (succeeds q)

theorem paginates (succeeds : s.Readable → possible → ∀ ctx q, ctx.connected = true →
    (act q).Succeeds ctx s) : server.Paginates s asks item row rows := by
  have page : ∀ ctx r, asks ctx r → (server.handle ctx r s).1.status = 200 →
      (server.handle ctx r s).1.ShowsPage item row rows r.page :=
    fun _ _ isAsked answered => (listed.shown isAsked answered).2
  constructor
  · exact page
  · intro limit steps positive first all
    obtain ⟨views, shown, are⟩ := rows_of_pages page steps first
    rw [Page.take_all positive all] at are
    exact ⟨views, shown, are⟩
  · intro ctx r isAsked answered behind
    obtain ⟨listing, body, one⟩ := page ctx r isAsked answered
    have proper : r.page.Proper := PageQuery.resolve_proper _
    have nothing : listing.data = [] := by
      rw [← List.map_eq_nil_iff, one.data, proper.slice_eq_nil behind]
    rw [Response.rows_of_listing body, nothing, List.map_nil]
  · intro ctx r isAsked
    exact handle_of_asks fun call asked => (listed.calls ctx r call isAsked asked).1
  · intro readable ctx r isAsked answered ctx' r' isAsked' connected comes
    exact listed.answered
      (fun q => succeeds readable (listed.shown isAsked answered).1 ctx' q connected) isAsked' comes

end ListedBy

end Paginates

/-! ## The four lists -/

structure SearchesJobs (category status search : Option String) (r : Request) : Prop where
  method : r.method = .get
  path : Resource.ofPath? r.path = some .jobs
  category : r.param "category" = category
  status : r.param "status" = status
  search : r.param "search" = search

structure ListsApplications (job : Uuid) (r : Request) : Prop where
  method : r.method = .get
  path : ∃ segment, Resource.ofPath? r.path = some (.applicationsFor segment) ∧
    Http.pathId segment = .ok job

structure ListsOwnApplications (server : Server) (caller : Uuid) (ctx : Context) (r : Request) :
    Prop where
  method : r.method = .get
  path : Resource.ofPath? r.path = some .ownApplications
  caller : server.caller? ctx.now r = some caller

structure ListsReviews (user : Uuid) (r : Request) : Prop where
  method : r.method = .get
  path : ∃ segment, Resource.ofPath? r.path = some (.reviewsOf segment) ∧
    Http.pathId segment = .ok user

theorem SearchesJobs.calls {now : Timestamp} {call : Call} {category status search : Option String}
    (isAsked : SearchesJobs category status search r) (asked : server.asked? now r = some call) :
    ∃ q : PageQuery, q.resolve = r.page ∧ call = .searchJobs ⟨category, status, search, q⟩ := by
  have made := Option.some.inj (callFor?_of_asked isAsked.method isAsked.path asked)
  obtain ⟨category', isCategory, made⟩ := bind_ok made
  obtain ⟨status', isStatus, made⟩ := bind_ok made
  obtain ⟨search', isSearch, made⟩ := bind_ok made
  obtain ⟨q, isPage, made⟩ := bind_ok made
  cases made
  refine ⟨q, (Request.page_eq isPage).symm, ?_⟩
  rw [← isAsked.category, ← isAsked.status, ← isAsked.search, Request.param_eq isCategory,
    Request.param_eq isStatus, Request.param_eq isSearch]

theorem ListsApplications.calls {now : Timestamp} {call : Call} {job : Uuid}
    (isAsked : ListsApplications job r) (asked : server.asked? now r = some call) :
    ∃ q : PageQuery, q.resolve = r.page ∧ call = .listApplications job q := by
  obtain ⟨segment, path, isId⟩ := isAsked.path
  have made := Option.some.inj (callFor?_of_asked isAsked.method path asked)
  obtain ⟨who, _, made⟩ := bind_ok made
  obtain ⟨job', isJob, made⟩ := bind_ok made
  obtain ⟨q, isPage, made⟩ := bind_ok made
  cases made
  rw [isId] at isJob
  cases isJob
  exact ⟨q, (Request.page_eq isPage).symm, rfl⟩

theorem ListsOwnApplications.calls {call : Call} {caller : Uuid}
    (isAsked : server.ListsOwnApplications caller ctx r)
    (asked : server.asked? ctx.now r = some call) :
    ∃ q : PageQuery, q.resolve = r.page ∧ call = .listOwnApplications caller q := by
  have made := Option.some.inj (callFor?_of_asked isAsked.method isAsked.path asked)
  obtain ⟨who, known, made⟩ := bind_ok made
  obtain ⟨q, isPage, made⟩ := bind_ok made
  cases made
  have isCaller := isAsked.caller
  rw [caller?, known] at isCaller
  cases isCaller
  exact ⟨q, (Request.page_eq isPage).symm, rfl⟩

theorem ListsReviews.calls {now : Timestamp} {call : Call} {user : Uuid}
    (isAsked : ListsReviews user r) (asked : server.asked? now r = some call) :
    ∃ q : PageQuery, q.resolve = r.page ∧ call = .listReviews user q := by
  obtain ⟨segment, path, isId⟩ := isAsked.path
  have made := Option.some.inj (callFor?_of_asked isAsked.method path asked)
  obtain ⟨user', isUser, made⟩ := bind_ok made
  obtain ⟨q, isPage, made⟩ := bind_ok made
  cases made
  rw [isId] at isUser
  cases isUser
  exact ⟨q, (Request.page_eq isPage).symm, rfl⟩

theorem lists_jobs (server : Server) (keyed : s.Keyed) (category status search : Option String)
    {rows : List Job}
    (newest : NewestOf Job.createdAt Job.id s.jobs (Job.Matches category status search) rows) :
    server.ListedBy s (fun _ => SearchesJobs category status search) JobView.toJson JobView.row
      rows (fun q => Hiring.searchJobs ⟨category, status, search, q⟩)
      (∃ f, (∀ q, Hiring.JobQuery.filter ⟨category, status, search, q⟩ = .ok f) ∧
        f.isSendable = true) where
  isGet _ r isAsked := isAsked.method
  calls ctx r call isAsked asked := by
    obtain ⟨q, isPage, rfl⟩ := isAsked.calls asked
    exact ⟨rfl, q, isPage, rfl⟩
  lists ctx q listing s' ok := by
    -- Which filter a query makes does not depend on the page.
    obtain ⟨f, filtered, sendable, one⟩ := Hiring.searchJobs_ensures _ _ _ ok
    have same : Hiring.jobsPassing s f = rows :=
      (newestPassing_newestOf keyed.jobId (Hiring.JobQuery.accepts_iff filtered)).unique newest
    rw [same] at one
    exact ⟨⟨f, fun _ => filtered, sendable⟩, one⟩

theorem lists_applications (server : Server) (s : Store) (job : Uuid) :
    server.ListedBy s (fun _ => ListsApplications job) ApplicationView.toJson ApplicationView.row
      (Hiring.applicationsWith s (·.jobId = job)) (Hiring.listApplications job)
      (∃ j, s.FindsJob job j) where
  isGet _ r isAsked := isAsked.method
  calls ctx r call isAsked asked := by
    obtain ⟨q, isPage, rfl⟩ := isAsked.calls asked
    exact ⟨rfl, q, isPage, rfl⟩
  lists ctx q := Hiring.listApplications_ensures job q

theorem lists_ownApplications (server : Server) (linked : s.Linked) (caller : Uuid) :
    server.ListedBy s (server.ListsOwnApplications caller) ApplicationView.toJson
      ApplicationView.row (Hiring.applicationsWith s (·.freelancerId = caller))
      (Hiring.listOwnApplications caller) True where
  isGet _ r isAsked := isAsked.method
  calls ctx r call isAsked asked := by
    obtain ⟨q, isPage, rfl⟩ := isAsked.calls asked
    exact ⟨rfl, q, isPage, rfl⟩
  lists ctx q listing s' ok :=
    ⟨trivial, Hiring.listOwnApplications_ensures linked caller q listing s' ok⟩

theorem lists_reviews (server : Server) (s : Store) (user : Uuid) :
    server.ListedBy s (fun _ => ListsReviews user) ReviewView.toJson ReviewView.row
      (Reputation.reviewsOf s user) (Reputation.listReviews user) (s.hasUser user = true) where
  isGet _ r isAsked := isAsked.method
  calls ctx r call isAsked asked := by
    obtain ⟨q, isPage, rfl⟩ := isAsked.calls asked
    exact ⟨rfl, q, isPage, rfl⟩
  lists ctx q := Reputation.listReviews_ensures user q

theorem paginates_jobs (server : Server) (keyed : s.Keyed) (few : s.jobs.length < 2 ^ 62)
    (category status search : Option String) {rows : List Job}
    (newest : NewestOf Job.createdAt Job.id s.jobs (Job.Matches category status search) rows) :
    server.Paginates s (fun _ => SearchesJobs category status search) JobView.toJson JobView.row
      rows := by
  refine (server.lists_jobs keyed category status search newest).paginates ?_
  rintro readable ⟨f, filtered, sendable⟩ ctx q connected
  exact Hiring.searchJobs_succeeds few readable (filtered q) sendable connected

theorem paginates_applications (server : Server) (sound : s.Sound)
    (few : s.applications.length < 2 ^ 62) (job : Uuid) :
    server.Paginates s (fun _ => ListsApplications job) ApplicationView.toJson ApplicationView.row
      (Hiring.applicationsWith s (·.jobId = job)) := by
  refine (server.lists_applications s job).paginates ?_
  rintro readable ⟨j, found⟩ ctx q connected
  exact Hiring.listApplications_succeeds few sound.linked readable found q connected

theorem paginates_ownApplications (server : Server) (sound : s.Sound)
    (few : s.applications.length < 2 ^ 62) (caller : Uuid) :
    server.Paginates s (server.ListsOwnApplications caller) ApplicationView.toJson
      ApplicationView.row (Hiring.applicationsWith s (·.freelancerId = caller)) := by
  refine (server.lists_ownApplications sound.linked caller).paginates ?_
  intro readable _ ctx q connected
  exact Hiring.listOwnApplications_succeeds few readable caller q connected

theorem paginates_reviews (server : Server) (sound : s.Sound) (few : s.reviews.length < 2 ^ 62)
    (user : Uuid) :
    server.Paginates s (fun _ => ListsReviews user) ReviewView.toJson ReviewView.row
      (Reputation.reviewsOf s user) := by
  refine (server.lists_reviews s user).paginates ?_
  intro readable known ctx q connected
  exact Reputation.listReviews_succeeds few sound.linked readable known q connected

/-- In a store that satisfies its constraints, with fewer than 2^62 rows in each table, the four lists
are answered in pages: the jobs that match a search, the applications for a job, those of the caller,
and the reviews that a user received. -/
theorem pages_partition_lists (server : Server) (s : Store) (sound : s.Sound)
    (few : s.FewerThan (2 ^ 62)) :
    (∀ category status search, ∃ rows,
      NewestOf Job.createdAt Job.id s.jobs (Job.Matches category status search) rows ∧
        server.Paginates s (fun _ => SearchesJobs category status search) JobView.toJson
          JobView.row rows) ∧
    (∀ job, ∃ rows,
      NewestOf Application.createdAt Application.id s.applications (·.jobId = job) rows ∧
        server.Paginates s (fun _ => ListsApplications job) ApplicationView.toJson
          ApplicationView.row rows) ∧
    (∀ caller, ∃ rows,
      NewestOf Application.createdAt Application.id s.applications (·.freelancerId = caller) rows ∧
        server.Paginates s (server.ListsOwnApplications caller) ApplicationView.toJson
          ApplicationView.row rows) ∧
    (∀ user, ∃ rows,
      NewestOf Review.createdAt Review.id s.reviews (·.revieweeId = user) rows ∧
        server.Paginates s (fun _ => ListsReviews user) ReviewView.toJson ReviewView.row rows) := by
  have keyed := sound.keyed
  refine ⟨fun category status search => ?_, fun job => ?_, fun caller => ?_, fun user => ?_⟩
  · classical
    have newest : NewestOf Job.createdAt Job.id s.jobs (Job.Matches category status search) _ :=
      newestPassing_newestOf keyed.jobId fun _ => decide_eq_true_iff
    exact ⟨_, newest, server.paginates_jobs keyed few.jobs category status search newest⟩
  · exact ⟨_, newestPassing_newestOf keyed.applicationId fun _ => decide_eq_true_iff,
      server.paginates_applications sound few.applications job⟩
  · exact ⟨_, newestPassing_newestOf keyed.applicationId fun _ => decide_eq_true_iff,
      server.paginates_ownApplications sound few.applications caller⟩
  · exact ⟨_, newestPassing_newestOf keyed.reviewId fun _ => decide_eq_true_iff,
      server.paginates_reviews sound few.reviews user⟩

def siteSearch : Request where
  method := .get
  target := "/api/jobs?search=+sITE&limit=500"
  headers := []
  body := []

theorem pages_partition_site :
    siteStore.Sound ∧ siteStore.FewerThan (2 ^ 62) ∧
      siteSearch.page = ⟨1, 100⟩ ∧ (plain.handle firstMoment siteSearch siteStore).1.status = 200 ∧
        (plain.handle firstMoment siteSearch siteStore).1.ShowsPage JobView.toJson JobView.row
          [siteJob] ⟨1, 100⟩ := by
  have few : siteStore.FewerThan (2 ^ 62) := by constructor <;> decide
  obtain ⟨jobs, _, _, _⟩ := pages_partition_lists plain siteStore siteStore_sound few
  obtain ⟨rows, newest, paginates⟩ := jobs none none (some " sITE")
  have isAsked : SearchesJobs none none (some " sITE") siteSearch := by
    constructor <;> decide +kernel
  have isPage : siteSearch.page = ⟨1, 100⟩ := by decide +kernel
  have answered : (plain.handle firstMoment siteSearch siteStore).1.status = 200 := by
    have comes : plain.asked? firstMoment.now siteSearch ≠ none := by decide +kernel
    obtain ⟨call, asked⟩ := Option.ne_none_iff_exists'.mp comes
    obtain ⟨q, _, rfl⟩ := isAsked.calls asked
    have readable : siteStore.Readable := by constructor <;> decide
    exact answered_of_succeeds isAsked.method asked rfl
      (Hiring.searchJobs_succeeds few.jobs readable rfl rfl rfl)
  have one := paginates.page firstMoment siteSearch isAsked answered
  have found : siteJob.Matches none none (some " sITE") := by
    refine ⟨nofun, nofun, ?_⟩
    rintro t same _
    cases same
    left
    decide +kernel
  have onlySite : NewestOf Job.createdAt Job.id siteStore.jobs
      (Job.Matches none none (some " sITE")) [siteJob] := by
    refine ⟨List.pairwise_singleton _ _, fun j => ?_⟩
    constructor
    · intro isSite
      rw [List.mem_singleton.mp isSite]
      exact ⟨List.mem_singleton.mpr rfl, found⟩
    · exact And.left
  rw [newest.unique onlySite, isPage] at one
  exact ⟨siteStore_sound, few, isPage, answered, one⟩

end Server

end GigBoard
