import GigBoard.Proofs.Confinement

/-!
# Internal errors

A request is answered with 500 only if the store cannot keep a text that it carries, if it posts or
applies for a job in the name of nobody, or if it posts more milestones than one statement adds.
-/

set_option autoImplicit false

namespace GigBoard

open Delivery (Milestone)
open Hiring (Job JobForm)
open Http (Request Resource)

variable {ctx : Context} {r : Request} {s : Store}

/-! ## Requests -/

def Call.PostedBy (r : Request) (resource : Resource) (verb : Resource.Verb) : Call → Prop
  | .postJob _ form => verb = .add ∧ resource = .jobs ∧ r.decodeBody JobForm.decoder = .ok form
  | .applyForJob _ id _ => verb = .add ∧ ∃ segment, resource = .applyFor segment ∧
      Http.pathId segment = .ok id
  | _ => True

theorem callFor?_postedBy {auth : Except Failure Token.Identity} {resource : Resource}
    {verb : Resource.Verb} {x : Except Failure Call} (made : resource.callFor? r auth verb = some x) :
    Makes x (Call.PostedBy r resource verb) := by
  unfold Resource.callFor? at made
  split at made
  all_goals try obtain rfl := Option.some.inj made
  -- Nothing is told of the other calls.
  all_goals try
    repeat refine .bind fun _ _ => ?_
    exact .ok trivial
  · refine .bind fun who _ => .bind fun form isForm => ?_
    exact .ok ⟨rfl, rfl, isForm⟩
  · refine .bind fun who _ => .bind fun id isId => .bind fun form _ => ?_
    exact .ok ⟨rfl, _, rfl, isId⟩
  · cases made

namespace Server

variable {server : Server}

structure PostsJob (server : Server) (caller : Uuid) (form : JobForm) (ctx : Context)
    (r : Request) : Prop where
  method : r.method = .post
  path : Resource.ofPath? r.path = some .jobs
  caller : server.caller? ctx.now r = some caller
  body : r.decodeBody JobForm.decoder = .ok form

structure AppliesForJob (server : Server) (caller id : Uuid) (ctx : Context) (r : Request) :
    Prop where
  method : r.method = .post
  path : ∃ segment, Resource.ofPath? r.path = some (.applyFor segment) ∧
    Http.pathId segment = .ok id
  caller : server.caller? ctx.now r = some caller

theorem asked?_postJob_iff {caller : Uuid} {form : JobForm} :
    server.asked? ctx.now r = some (.postJob caller form) ↔ server.PostsJob caller form ctx r := by
  constructor
  · intro asked
    obtain ⟨resource, verb, path, isVerb, called⟩ := asked?_eq_some_iff.mp asked
    obtain ⟨rfl, rfl, body⟩ := callFor?_postedBy called _ rfl
    exact ⟨method_of_add isVerb, path, caller?_of_asked asked rfl, body⟩
  · intro posts
    obtain ⟨who, known, rfl⟩ := identify_of_caller? posts.caller
    refine asked?_eq_some_iff.mpr ⟨.jobs, .add, posts.path, by rw [posts.method]; rfl, ?_⟩
    simp only [Resource.callFor?, known, posts.body]
    rfl

theorem appliesForJob_of_asked {caller id : Uuid} {form : Hiring.ApplicationForm}
    (asked : server.asked? ctx.now r = some (.applyForJob caller id form)) :
    server.AppliesForJob caller id ctx r := by
  obtain ⟨resource, verb, path, isVerb, called⟩ := asked?_eq_some_iff.mp asked
  obtain ⟨rfl, segment, rfl, isId⟩ := callFor?_postedBy called _ rfl
  exact ⟨method_of_add isVerb, ⟨segment, path, isId⟩, caller?_of_asked asked rfl⟩

theorem status_of_candid {f : Failure} (told : ¬f.IsInternal) :
    (Outcome.ofFailure f).answer.status ≠ 500 :=
  fun failed => told (Failure.status_eq_iff.mp failed)

theorem Refuses.status_ne {outcome : Outcome} (refuses : server.Refuses ctx.now r outcome) :
    outcome.answer.status ≠ 500 := by
  have identified := server.identify_candid ctx.now r
  cases refuses with
  | caller unknown => exact status_of_candid (identified _ unknown)
  | call unread => exact status_of_candid (Resource.callFor?_candid identified unread _ rfl)
  | path =>
      change 404 ≠ 500
      decide
  | method =>
      change 405 ≠ 500
      decide

/-- A request that comes to no call does not fail internally. -/
theorem status_ne_of_not_asked (asked : server.asked? ctx.now r = none) :
    (server.handle ctx r s).1.status ≠ 500 := by
  obtain ⟨refusal, refuses, served⟩ := serve_of_not_asked asked
  unfold handle
  split
  · change 200 ≠ 500
    decide
  · rw [served]
    exact refuses.status_ne

/-- A request that fails internally came to a call, which failed so. -/
theorem call_of_internal (failed : (server.handle ctx r s).1.status = 500) :
    ∃ call f s', server.asked? ctx.now r = some call ∧ call.perform ctx s = (.error f, s') ∧
      f.IsInternal := by
  cases asked : server.asked? ctx.now r with
  | none => exact absurd failed (status_ne_of_not_asked asked)
  | some call =>
      rw [(handle_of_asked asked).2] at failed
      rcases ended : call.perform ctx s with ⟨f | answer, s'⟩
      · rw [perform, ended] at failed
        exact ⟨call, f, s', rfl, ended, Failure.status_eq_iff.mp failed⟩
      · rw [perform_status_of_ok ended] at failed
        have success := Call.perform_status ended
        omega

/-- Nothing is told of an internal failure but that there was one. -/
theorem body_of_internal (failed : (server.handle ctx r s).1.status = 500)
    (notHead : r.method ≠ .head) :
    (server.handle ctx r s).1.body =
      some (.object [("error", .string "internal server error")]) := by
  obtain ⟨call, f, s', asked, ended, internal⟩ := call_of_internal failed
  rw [body_of_asked_of_not_head notHead asked, perform, ended]
  change some f.problem.body = _
  rw [internal.problem_eq]
  rfl

/-- A job that is posted with more milestones than one statement adds, all well formed, is refused. -/
theorem PostsJob.fails_of_crowd {caller : Uuid} {form : JobForm} {job : Job} {ms : List Milestone}
    (posts : server.PostsJob caller form ctx r) (connected : ctx.connected = true)
    (made : form.toRows caller ctx = .ok (job, ms))
    (crowded : (Call.postJob caller form).Crowded) : (server.handle ctx r s).1.status = 500 := by
  obtain ⟨f, s', failed, internal⟩ := Hiring.postJob_of_crowd (s := s) connected made crowded
  have ended : (Call.postJob caller form).perform ctx s = (.error f, s') :=
    Action.bind_of_error failed
  rw [(handle_of_asked (asked?_postJob_iff.mpr posts)).2, perform, ended]
  exact Failure.status_eq_iff.mpr internal

/-- What a request that fails internally carries: a text that does not fit its column, a job or an
application of somebody without an account, or a job with more milestones than one statement adds. -/
def IsAtFault (server : Server) (ctx : Context) (r : Request) (s : Store) : Prop :=
  (∃ call, server.asked? ctx.now r = some call ∧ ∃ size text,
    (size, some text) ∈ call.texts ∧ ¬Text.Fits size text) ∨
  (∃ caller form, server.PostsJob caller form ctx r ∧ ∀ u ∈ s.users, u.id ≠ caller) ∨
  (∃ caller id, server.AppliesForJob caller id ctx r ∧ ∀ u ∈ s.users, u.id ≠ caller) ∨
  ∃ caller form, server.PostsJob caller form ctx r ∧
    Store.greatestBatch < (form.milestones.getD []).length

/-- When a request fails internally, how, and what is told of it: a store that is set up refuses values
and references, and nothing that is loaded is missing, cannot be read, or leaves its range. -/
structure ConfinesInternalErrors (server : Server) (ctx : Context) (r : Request) (s : Store) :
    Prop where
  cause : (server.handle ctx r s).1.status = 500 → server.IsAtFault ctx r s
  crowd : ∀ caller form rows, server.PostsJob caller form ctx r →
    form.toRows caller ctx = .ok rows → Store.greatestBatch < (form.milestones.getD []).length →
      (server.handle ctx r s).1.status = 500
  fault : ∀ call f s', server.asked? ctx.now r = some call → call.perform ctx s = (.error f, s') →
    f.IsInternal → f = .store .rejected ∨ f = .store .missingReference
  applicationStates : ∀ a ∈ s.applications, Named.read (Named.name a.status) = .ok a.status
  milestoneStates : ∀ m ∈ s.milestones, Named.read (Named.name m.status) = .ok m.status
  told : (server.handle ctx r s).1.status = 500 → r.method ≠ .head →
    (server.handle ctx r s).1.body =
      some (.object [("error", .string "internal server error")])

theorem isAtFault_of_perform {call : Call} {f : Failure}
    (asked : server.asked? ctx.now r = some call)
    (reason : (f = .store .rejected ∧ (¬call.Storable ∨ call.Crowded)) ∨
      (f = .store .missingReference ∧ call.ByStranger s)) : server.IsAtFault ctx r s := by
  rcases reason with ⟨_, unstorable | crowded⟩ | ⟨_, stranger⟩
  · exact .inl ⟨call, asked, Call.exists_of_not_storable unstorable⟩
  · obtain ⟨caller, form, rfl, many⟩ := crowded.exists
    exact .inr (.inr (.inr ⟨caller, form, asked?_postJob_iff.mp asked, many⟩))
  · rcases stranger.exists with ⟨caller, form, rfl, unknown⟩ | ⟨caller, id, form, rfl, unknown⟩
    · exact .inr (.inl ⟨caller, form, asked?_postJob_iff.mp asked, unknown⟩)
    · exact .inr (.inr (.inl ⟨caller, id, appliesForJob_of_asked asked, unknown⟩))

/-- In a store that satisfies its constraints, a request fails internally only if it carries a text
that the store cannot keep, if it posts or applies for a job in the name of nobody, or if it posts a job
with more milestones than one statement adds. -/
theorem internal_errors_confined (server : Server) (s : Store) (holds : s.Constrained)
    (readable : s.Readable) (few : s.FewerThan (2 ^ 62)) (ctx : Context)
    (connected : ctx.connected = true) (timely : ctx.now.isRepresentable = true)
    (mints : ctx.MintsNew s) (r : Request) : server.ConfinesInternalErrors ctx r s := by
  have untroubled : Untroubled ctx s := ⟨holds.sound, readable, few, connected, timely, mints⟩
  constructor
  · intro failed
    obtain ⟨call, f, s', asked, ended, internal⟩ := call_of_internal failed
    exact isAtFault_of_perform asked (Call.perform_confined untroubled call f s' ended internal)
  · rintro caller form ⟨job, ms⟩ posts made crowded
    exact posts.fails_of_crowd connected made crowded
  · intro call f s' asked ended internal
    exact (Call.perform_confined untroubled call f s' ended internal).imp And.left And.left
  · exact fun a ha => (holds.applicationStates a ha).2.2
  · exact fun m hm => (holds.milestoneStates m hm).2.2
  · exact body_of_internal

/-- Circumstances in which the identifiers of `siteStore` are not made up again. -/
def laterMoment : Context := ⟨true, ⟨0⟩, fun n => .ofNat (n + 100)⟩

theorem laterMoment_mintsNew : laterMoment.MintsNew siteStore where
  job := by decide
  message := by decide
  milestone m hm n few := by
    obtain rfl := List.mem_singleton.mp hm
    intro same
    have numbers : 4 % 2 ^ 128 = (n + 100) % 2 ^ 128 := congrArg Uuid.value same
    rw [Store.greatestBatch] at few
    omega
  distinct m fewM n fewN same := by
    have numbers : (m + 100) % 2 ^ 128 = (n + 100) % 2 ^ 128 := congrArg Uuid.value same
    rw [Store.greatestBatch] at fewM fewN
    omega

def nulSearch : Request where
  method := .get
  target := "/api/jobs?search=%00"
  headers := []
  body := []

theorem internal_errors_confined_site :
    siteStore.Constrained ∧ siteStore.Readable ∧ siteStore.FewerThan (2 ^ 62) ∧
      laterMoment.connected = true ∧ laterMoment.now.isRepresentable = true ∧
        laterMoment.MintsNew siteStore ∧
          (plain.handle laterMoment nulSearch siteStore).1.status = 500 ∧
            plain.IsAtFault laterMoment nulSearch siteStore := by
  have holds := siteStore_sound.constrained
  have readable : siteStore.Readable := by constructor <;> decide
  have few : siteStore.FewerThan (2 ^ 62) := by constructor <;> decide
  have mints := laterMoment_mintsNew
  have failed : (plain.handle laterMoment nulSearch siteStore).1.status = 500 := by
    decide +kernel
  have confines := internal_errors_confined plain siteStore holds readable few laterMoment rfl
    (by decide) mints nulSearch
  exact ⟨holds, readable, few, rfl, by decide, mints, failed, confines.cause failed⟩

end Server

end GigBoard
