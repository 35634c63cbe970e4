import GigBoard.Proofs.Outcome
import GigBoard.Server

/-!
# Requests and runs

What a request does to the store is what one call does, and the call tells who made the request.  A
run answers requests one after another, each under its own circumstances; every store that a run from
the empty one reaches is sound.
-/

set_option autoImplicit false

namespace GigBoard

open GigBoard.Action (Ordinary)
open Http (Request Resource Response)

variable {ctx : Context} {r : Request} {s s' : Store}

/-! ## The call of a request -/

def Call.caller? : Call → Option Uuid
  | .health => none
  | .whoAmI who => some who.userId
  | .register _ => none
  | .showSelf caller => some caller
  | .updateSelf caller _ => some caller
  | .showProfile _ => none
  | .listReviews _ _ => none
  | .searchJobs _ => none
  | .postJob caller _ => some caller
  | .showJob _ => none
  | .updateJob caller _ _ => some caller
  | .removeJob caller _ => some caller
  | .listMilestones _ => none
  | .applyForJob caller _ _ => some caller
  | .listApplications _ _ => none
  | .listOwnApplications caller _ => some caller
  | .decideApplication caller _ _ => some caller
  | .moveMilestone caller _ _ => some caller
  | .writeReview caller _ => some caller
  | .showInbox caller _ => some caller
  | .sendMessage caller _ => some caller
  | .countUnread caller => some caller
  | .openThread caller _ _ => some caller
  | .markRead caller _ => some caller

/-- How a call fits the request it is made for: its caller is the one that the token names, reading
asks only or opens a thread, and only new users are registered without a token. -/
structure Call.Fits (auth : Except Failure Token.Identity) (resource : Resource)
    (verb : Resource.Verb) (call : Call) : Prop where
  caller : ∀ c, call.caller? = some c → ∃ who, auth = .ok who ∧ who.userId = c
  reading : verb = .read → call.asks = true ∨ ∃ id, resource = .thread id
  registering : ∀ form, call = .register form → resource = .users ∧ verb = .add

namespace Call.Fits

variable {auth : Except Failure Token.Identity} {resource : Resource} {verb : Resource.Verb}
  {call : Call}

theorem ofNobody (nobody : call.caller? = none) (asks : call.asks = true) :
    call.Fits auth resource verb where
  caller c own := by
    rw [nobody] at own
    cases own
  reading _ := .inl asks
  registering form is := by
    rw [is] at asks
    cases asks

theorem ofCaller {who : Token.Identity} (known : auth = .ok who)
    (own : call.caller? = some who.userId)
    (reading : verb = .read → call.asks = true ∨ ∃ id, resource = .thread id) :
    call.Fits auth resource verb where
  caller c isCaller := ⟨who, known, Option.some.inj (own.symm.trans isCaller)⟩
  reading := reading
  registering form is := by
    rw [is] at own
    cases own

end Call.Fits

def Makes (x : Except Failure Call) (told : Call → Prop) : Prop := ∀ call, x = .ok call → told call

theorem Makes.ok {told : Call → Prop} {call : Call} (is : told call) : Makes (.ok call) told := by
  intro c same
  cases same
  exact is

theorem Makes.bind {α : Type} {told : Call → Prop} {x : Except Failure α}
    {next : α → Except Failure Call} (rest : ∀ a, x = .ok a → Makes (next a) told) :
    Makes (x >>= next) told := by
  intro call made
  obtain ⟨a, first, later⟩ := bind_ok made
  exact rest a first call later

theorem callFor?_fits {auth : Except Failure Token.Identity} {resource : Resource}
    {verb : Resource.Verb} {x : Except Failure Call}
    (made : resource.callFor? r auth verb = some x) :
    Makes x (Call.Fits auth resource verb) := by
  unfold Resource.callFor? at made
  split at made
  -- One case for each method of each resource, in the order of the table, and the rest of them.
  all_goals try obtain rfl := Option.some.inj made
  · exact .ok (.ofNobody rfl rfl)
  · refine .bind fun who known => ?_
    exact .ok (.ofCaller known rfl fun _ => .inl rfl)
  · refine .bind fun form _ => .ok ⟨?_, ?_, fun _ _ => ⟨rfl, rfl⟩⟩
    · intro c own
      cases own
    · intro reading
      cases reading
  · refine .bind fun who known => ?_
    exact .ok (.ofCaller known rfl fun _ => .inl rfl)
  · refine .bind fun who known => .bind fun body _ => ?_
    exact .ok (.ofCaller known rfl fun h => nomatch h)
  · refine .bind fun id _ => ?_
    exact .ok (.ofNobody rfl rfl)
  · refine .bind fun id _ => .bind fun page _ => ?_
    exact .ok (.ofNobody rfl rfl)
  · refine .bind fun category _ => .bind fun status _ => .bind fun search _ => .bind fun page _ => ?_
    exact .ok (.ofNobody rfl rfl)
  · refine .bind fun who known => .bind fun form _ => ?_
    exact .ok (.ofCaller known rfl fun h => nomatch h)
  · refine .bind fun id _ => ?_
    exact .ok (.ofNobody rfl rfl)
  · refine .bind fun who known => .bind fun id _ => .bind fun form _ => ?_
    exact .ok (.ofCaller known rfl fun h => nomatch h)
  · refine .bind fun who known => .bind fun id _ => ?_
    exact .ok (.ofCaller known rfl fun h => nomatch h)
  · refine .bind fun id _ => ?_
    exact .ok (.ofNobody rfl rfl)
  · refine .bind fun who known => .bind fun id _ => .bind fun form _ => ?_
    exact .ok (.ofCaller known rfl fun h => nomatch h)
  · refine .bind fun _ _ => .bind fun id _ => .bind fun page _ => ?_
    exact .ok (.ofNobody rfl rfl)
  · refine .bind fun who known => .bind fun page _ => ?_
    exact .ok (.ofCaller known rfl fun _ => .inl rfl)
  · refine .bind fun who known => .bind fun id _ => .bind fun form _ => ?_
    exact .ok (.ofCaller known rfl fun h => nomatch h)
  · refine .bind fun who known => .bind fun id _ => .bind fun form _ => ?_
    exact .ok (.ofCaller known rfl fun h => nomatch h)
  · refine .bind fun who known => .bind fun form _ => ?_
    exact .ok (.ofCaller known rfl fun h => nomatch h)
  · refine .bind fun who known => .bind fun participant _ => .bind fun job _ => ?_
    exact .ok (.ofCaller known rfl fun _ => .inl rfl)
  · refine .bind fun who known => .bind fun form _ => ?_
    exact .ok (.ofCaller known rfl fun h => nomatch h)
  · refine .bind fun who known => ?_
    exact .ok (.ofCaller known rfl fun _ => .inl rfl)
  · refine .bind fun who known => .bind fun id _ => .bind fun job _ => ?_
    exact .ok (.ofCaller known rfl fun _ => .inr ⟨_, rfl⟩)
  · refine .bind fun who known => .bind fun id _ => ?_
    exact .ok (.ofCaller known rfl fun h => nomatch h)
  · cases made

namespace Server

variable {server : Server}

/-- The call that a request comes to, if it comes to one. -/
def asked? (server : Server) (now : Timestamp) (r : Request) : Option Call :=
  ((Resource.ofPath? r.path).bind (server.callFor? now r)).bind Except.toOption

theorem asked?_eq_some_iff {now : Timestamp} {call : Call} :
    server.asked? now r = some call ↔ ∃ resource verb, Resource.ofPath? r.path = some resource ∧
      Resource.Verb.ofMethod? r.method = some verb ∧
        resource.callFor? r (server.identify now r) verb = some (.ok call) := by
  unfold asked? callFor?
  constructor
  · intro asked
    obtain ⟨x, named, made⟩ := Option.bind_eq_some_iff.mp asked
    obtain ⟨resource, isPath, called⟩ := Option.bind_eq_some_iff.mp named
    obtain ⟨verb, isVerb, called⟩ := Option.bind_eq_some_iff.mp called
    cases x with
    | error f => cases made
    | ok c =>
        cases made
        exact ⟨resource, verb, isPath, isVerb, called⟩
  · rintro ⟨resource, verb, isPath, isVerb, called⟩
    rw [isPath, Option.bind_some, isVerb, Option.bind_some, called]
    rfl

theorem asked?_fits {now : Timestamp} {call : Call} (asked : server.asked? now r = some call) :
    ∃ resource verb, Resource.ofPath? r.path = some resource ∧
      Resource.Verb.ofMethod? r.method = some verb ∧
        call.Fits (server.identify now r) resource verb := by
  obtain ⟨resource, verb, isPath, isVerb, called⟩ := asked?_eq_some_iff.mp asked
  exact ⟨resource, verb, isPath, isVerb, callFor?_fits called call rfl⟩

theorem serve_of_asked {call : Call} (asked : server.asked? ctx.now r = some call) :
    server.serve ctx r s = perform call ctx s := by
  unfold asked? at asked
  unfold serve
  cases path : Resource.ofPath? r.path with
  | none =>
      rw [path] at asked
      cases asked
  | some resource =>
      rw [path, Option.bind_some] at asked
      obtain ⟨x, called, made⟩ := Option.bind_eq_some_iff.mp asked
      cases x with
      | error f => cases made
      | ok c =>
          cases made
          simp only [called]

/-- The outcomes of requests that come to no call: it is not known who asks, what is sent cannot be
read, or there is nothing at the path, or nothing to be done there by the method. -/
inductive Refuses (server : Server) (now : Timestamp) (r : Request) : Outcome → Prop
  | caller {f : Failure} {allow : Option String} (unknown : server.identify now r = .error f) :
      Refuses server now r ⟨.ofProblem f.problem, allow⟩
  | call {resource : Resource} {verb : Resource.Verb} {f : Failure}
      (unread : resource.callFor? r (server.identify now r) verb = some (.error f)) :
      Refuses server now r (.ofFailure f)
  | path : Refuses server now r ⟨⟨404, none⟩, none⟩
  | method {allow : Option String} : Refuses server now r ⟨⟨405, none⟩, allow⟩

theorem refuses_refuseMethod {now : Timestamp} (resource : Resource) :
    server.Refuses now r (server.refuseMethod now r resource) := by
  unfold refuseMethod
  split
  · rename_i f _ unknown
    exact .caller unknown
  · exact .method

/-- A request that comes to no call is refused without a look at the store. -/
theorem serve_of_not_asked (asked : server.asked? ctx.now r = none) :
    ∃ refusal, server.Refuses ctx.now r refusal ∧ ∀ s, server.serve ctx r s = (refusal, s) := by
  unfold asked? at asked
  unfold serve
  cases path : Resource.ofPath? r.path with
  | none =>
      cases known : server.identify ctx.now r with
      | error f => exact ⟨_, .caller known, fun _ => rfl⟩
      | ok who => exact ⟨_, .path, fun _ => rfl⟩
  | some resource =>
      rw [path, Option.bind_some] at asked
      cases called : server.callFor? ctx.now r resource with
      | none => exact ⟨_, refuses_refuseMethod resource, fun _ => by simp only [called]⟩
      | some x =>
          cases x with
          | error f =>
              obtain ⟨verb, _, unread⟩ := Option.bind_eq_some_iff.mp called
              exact ⟨_, .call unread, fun _ => by simp only [called]⟩
          | ok call =>
              rw [called] at asked
              cases asked

theorem not_options_of_asked {now : Timestamp} {call : Call}
    (asked : server.asked? now r = some call) : r.method ≠ .options := by
  intro options
  obtain ⟨_, verb, _, isVerb, _⟩ := asked?_fits asked
  rw [options] at isVerb
  cases isVerb

/-- A request that comes to no call leaves the store alone. -/
theorem handle_of_not_asked (asked : server.asked? ctx.now r = none) :
    (server.handle ctx r s).2 = s := by
  obtain ⟨refusal, _, served⟩ := serve_of_not_asked asked
  unfold handle
  split
  · rfl
  · rw [served]

/-- A request that comes to a call is answered by doing it. -/
theorem handle_of_asked {call : Call} (asked : server.asked? ctx.now r = some call) :
    (server.handle ctx r s).2 = (call.perform ctx s).2 ∧
      (server.handle ctx r s).1.status = (perform call ctx s).1.answer.status := by
  have store : (perform call ctx s).2 = (call.perform ctx s).2 := by
    unfold perform
    split <;> simp_all
  unfold handle
  rw [if_neg (not_options_of_asked asked), serve_of_asked asked]
  exact ⟨store, rfl⟩

/-- A request leaves the store alone or has an effect of its call. -/
theorem handle_effect (server : Server) (ctx : Context) (r : Request) (s : Store) :
    (server.handle ctx r s).2 = s ∨
      ∃ call, server.asked? ctx.now r = some call ∧ Effect ctx s call (server.handle ctx r s).2 := by
  cases asked : server.asked? ctx.now r with
  | none => exact .inl (handle_of_not_asked asked)
  | some call =>
      right
      refine ⟨call, rfl, ?_⟩
      rw [(handle_of_asked asked).1]
      exact call.perform_effect ctx s

theorem handle_sound (server : Server) (ctx : Context) (r : Request) (sound : s.Sound) :
    (server.handle ctx r s).2.Sound := by
  rcases server.handle_effect ctx r s with same | ⟨call, _, effect⟩
  · rw [same]
    exact sound
  · exact effect.sound sound

theorem handle_readable (server : Server) (r : Request) (readable : s.Readable)
    (timely : ctx.now.isRepresentable = true) : (server.handle ctx r s).2.Readable := by
  rcases server.handle_effect ctx r s with same | ⟨call, _, effect⟩
  · rw [same]
    exact readable
  · exact effect.readable readable timely

theorem handle_posting_sublist (server : Server) (ctx : Context) (r : Request) (sound : s.Sound) :
    ((server.handle ctx r s).2.jobs.map Hiring.Job.posting).Sublist
      (s.jobs.map Hiring.Job.posting ++ [(ctx.freshId 0, ctx.now)]) := by
  rcases server.handle_effect ctx r s with same | ⟨call, _, effect⟩
  · rw [same]
    exact List.sublist_append_left _ _
  · exact effect.posting_sublist sound

/-! ## Runs -/

/-- The store after some requests, each answered under its own circumstances. -/
def run (server : Server) : List (Context × Request) → Store → Store
  | [], s => s
  | (ctx, r) :: rest, s => server.run rest (server.handle ctx r s).2

theorem run_append (server : Server) (first second : List (Context × Request)) (s : Store) :
    server.run (first ++ second) s = server.run second (server.run first s) := by
  induction first generalizing s with
  | nil => rfl
  | cons step rest ih => exact ih (server.handle step.1 step.2 s).2

/-- What every request keeps is kept by runs. -/
theorem run_keeps (server : Server) {p : Store → Prop}
    (keeps : ∀ ctx r s, p s → p (server.handle ctx r s).2) (steps : List (Context × Request))
    {s : Store} (before : p s) : p (server.run steps s) := by
  induction steps generalizing s with
  | nil => exact before
  | cons step rest ih => exact ih (keeps step.1 step.2 s before)

/-- Runs at times that can be read back keep all times so. -/
theorem run_readable (server : Server) (steps : List (Context × Request)) {s : Store}
    (readable : s.Readable) (timely : ∀ step ∈ steps, step.1.now.isRepresentable = true) :
    (server.run steps s).Readable := by
  induction steps generalizing s with
  | nil => exact readable
  | cons step rest ih =>
      obtain ⟨now, later⟩ := List.forall_mem_cons.mp timely
      exact ih (server.handle_readable step.2 readable now) later

/-- Every store that the service reaches is sound. -/
theorem run_sound (server : Server) (steps : List (Context × Request)) :
    (server.run steps .empty).Sound :=
  server.run_keeps (fun ctx r _ sound => server.handle_sound ctx r sound) steps Store.empty_sound

end Server

end GigBoard
