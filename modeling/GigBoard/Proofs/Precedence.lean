import GigBoard.Proofs.Removal

/-!
# Which refusal comes first

Where several things speak against a request, it is refused for the first of them.  `FirstOf` lists
cases in that order, and `Ends` says with which status a request ends and which store it leaves.  The
requests here are those that change a row that is there: an application is decided, a job or the own
account is changed.
-/

set_option autoImplicit false

namespace GigBoard

open Hiring (JobChangeForm StatusForm)
open Http (Request Resource)
open Http.Resource (Verb)

variable {ctx : Context} {r : Request} {s s' : Store} {caller id : Uuid}

/-- The first case that applies says what holds; if none applies, the last part says it. -/
def FirstOf : List (Prop × Prop) → Prop → Prop
  | [], otherwise => otherwise
  | (applies, said) :: rest, otherwise =>
    (applies → said) ∧ (¬applies → FirstOf rest otherwise)

theorem FirstOf.of_otherwise {cases : List (Prop × Prop)} {otherwise : Prop}
    (first : FirstOf cases otherwise) (none : ∀ c ∈ cases, ¬c.1) : otherwise := by
  induction cases with
  | nil => exact first
  | cons c cases ih =>
      obtain ⟨notThis, notLater⟩ := List.forall_mem_cons.mp none
      exact ih (first.2 notThis) notLater

/-- If nothing holds of what the cases say, none of them applies. -/
theorem FirstOf.of_unsaid {cases : List (Prop × Prop)} {otherwise : Prop}
    (first : FirstOf cases otherwise) (unsaid : ∀ c ∈ cases, ¬c.2) :
    (∀ c ∈ cases, ¬c.1) ∧ otherwise := by
  have none : ∀ c ∈ cases, ¬c.1 := by
    induction cases with
    | nil => exact nofun
    | cons c cases ih =>
        obtain ⟨notSaid, notLater⟩ := List.forall_mem_cons.mp unsaid
        have notThis : ¬c.1 := fun applies => notSaid (first.1 applies)
        exact List.forall_mem_cons.mpr ⟨notThis, ih (first.2 notThis) notLater⟩
  exact ⟨none, first.of_otherwise none⟩

/-- If one of the cases applies, what one of them says holds. -/
theorem FirstOf.of_applies {cases : List (Prop × Prop)} {otherwise : Prop}
    (first : FirstOf cases otherwise) (some : ∃ c ∈ cases, c.1) : ∃ c ∈ cases, c.2 := by
  by_contra unsaid
  push Not at unsaid
  obtain ⟨c, hc, applies⟩ := some
  exact (first.of_unsaid unsaid).1 c hc applies

namespace Action

variable {condition : Bool} {f : Failure}

theorem connect_of_lost (lost : ctx.connected = false) :
    connect ctx s = (.error (.store .unavailable), s) := by
  rw [connect, lost]
  rfl

theorem require_of_true (holds : condition = true) : require condition f ctx s = (.ok (), s) := by
  rw [require, holds]
  rfl

theorem require_of_false (fails : condition = false) :
    require condition f ctx s = (.error f, s) := by
  rw [require, fails]
  rfl

/-- A row that must be there, and is, goes on if it can be read back. -/
theorem loadRow {α β : Type} {isReadable : α → Bool} {q : Store.Query (Option α)} {a : α}
    {next : α → Action β} (read : q s = Store.readRow isReadable (some a)) :
    (query q >>= fun row => expect f row >>= next) ctx s =
      if isReadable a then next a ctx s else (.error (.store .unreadable), s) := by
  rw [Store.readRow, Option.all_some] at read
  split
  · rename_i readable
    rw [if_pos readable] at read
    exact (bind_of_ok (query_of_ok read)).trans (bind_of_ok rfl)
  · rename_i unreadable
    rw [if_neg unreadable] at read
    apply bind_of_error
    rw [query, read]

end Action

namespace Store

theorem readRows_of_unreadable {α : Type} {isReadable : α → Bool} {rows : List α} {q : α}
    (member : q ∈ rows) (unreadable : ¬isReadable q = true) :
    readRows isReadable rows = .error .unreadable := by
  rw [readRows, if_neg]
  intro all
  exact unreadable (List.all_eq_true.mp all q member)

theorem usersWithIds_of_all {ids : List Uuid}
    (readable : ∀ u ∈ s.users, u.id ∈ ids → u.isReadable = true) :
    usersWithIds ids s = .ok (s.users.filter fun u => ids.contains u.id) := by
  apply readRows_of_all
  intro u hu
  obtain ⟨member, asked⟩ := List.mem_filter.mp hu
  exact readable u member (by simpa using asked)

theorem usersWithIds_of_unreadable {ids : List Uuid} {u : Account.User} (hu : u ∈ s.users)
    (asked : u.id ∈ ids) (unreadable : ¬u.isReadable = true) :
    usersWithIds ids s = .error .unreadable :=
  readRows_of_unreadable (List.mem_filter.mpr ⟨hu, by simpa using asked⟩) unreadable

/-- A row that is found is handed out with its job, if both can be read back. -/
theorem readPair_of_found {α : Type} {isReadable : α → Bool} {rows : List α} {p : α → Bool} {q : α}
    {job : α → Uuid} {j : Hiring.Job} (found : rows.find? p = some q) (of : s.FindsJob (job q) j) :
    readPair isReadable Hiring.Job.isReadable ((rows.find? p).bind fun q =>
      (s.jobs.find? fun k => decide (k.id = job q)).map fun k => (q, k)) =
        if isReadable q && j.isReadable then .ok (some (q, j)) else .error .unreadable := by
  unfold FindsJob at of
  rw [found, Option.bind_some, of]
  rfl

end Store

/-- A check whose failures are all told with one status. -/
def Tells {α : Type} (status : Nat) (x : Except Failure α) : Prop :=
  ∀ f, x = .error f → f.problem.status = status

namespace Tells

variable {α β : Type} {status : Nat}

theorem ok (a : α) : Tells status (.ok a : Except Failure α) := nofun

theorem error {f : Failure} (told : f.problem.status = status) :
    Tells status (.error f : Except Failure α) := by
  rintro _ ⟨⟩
  exact told

theorem bind {x : Except Failure α} {next : α → Except Failure β} (first : Tells status x)
    (rest : ∀ a, Tells status (next a)) : Tells status (x >>= next) := by
  cases x with
  | error f => exact error (first f rfl)
  | ok a => exact rest a

theorem failed {x : Except Failure α} (tells : Tells status x) (never : ∀ a, x ≠ .ok a) :
    ∃ f, x = .error f ∧ f.problem.status = status := by
  cases x with
  | error f => exact ⟨f, rfl, tells f rfl⟩
  | ok a => exact absurd rfl (never a)

end Tells

/-! ## Requests -/

def Call.RevisedBy (r : Request) (resource : Resource) (verb : Verb) : Call → Prop
  | .decideApplication _ id form => verb = .change ∧
      r.decodeBody StatusForm.decoder = .ok form ∧
        ∃ segment, resource = .applicationStatus segment ∧ Http.pathId segment = .ok id
  | .updateJob _ id form => verb = .change ∧ r.decodeBody JobChangeForm.decoder = .ok form ∧
      ∃ segment, resource = .job segment ∧ Http.pathId segment = .ok id
  | .updateSelf _ body => verb = .change ∧ r.decodeBody Json.Decoder.json = .ok body ∧
      resource = .ownAccount
  | _ => True

theorem callFor?_revisedBy {auth : Except Failure Token.Identity} {resource : Resource}
    {verb : Verb} {x : Except Failure Call} (made : resource.callFor? r auth verb = some x) :
    Makes x (Call.RevisedBy r resource verb) := by
  unfold Resource.callFor? at made
  split at made
  all_goals try obtain rfl := Option.some.inj made
  -- Nothing is told of the other calls.
  all_goals try
    repeat refine .bind fun _ _ => ?_
    exact .ok trivial
  · refine .bind fun who _ => .bind fun body isBody => ?_
    exact .ok ⟨rfl, isBody, rfl⟩
  · refine .bind fun who _ => .bind fun id isId => .bind fun form isForm => ?_
    exact .ok ⟨rfl, isForm, _, rfl, isId⟩
  · refine .bind fun who _ => .bind fun id isId => .bind fun form isForm => ?_
    exact .ok ⟨rfl, isForm, _, rfl, isId⟩
  · cases made

namespace Server

variable {server : Server}

structure DecidesApplication (server : Server) (caller id : Uuid) (form : StatusForm)
    (ctx : Context) (r : Request) : Prop where
  method : r.method = .put
  path : ∃ segment, Resource.ofPath? r.path = some (.applicationStatus segment) ∧
    Http.pathId segment = .ok id
  caller : server.caller? ctx.now r = some caller
  body : r.decodeBody StatusForm.decoder = .ok form

structure UpdatesJob (server : Server) (caller id : Uuid) (form : JobChangeForm) (ctx : Context)
    (r : Request) : Prop where
  method : r.method = .put
  path : ∃ segment, Resource.ofPath? r.path = some (.job segment) ∧ Http.pathId segment = .ok id
  caller : server.caller? ctx.now r = some caller
  body : r.decodeBody JobChangeForm.decoder = .ok form

structure UpdatesSelf (server : Server) (caller : Uuid) (body : Json) (ctx : Context)
    (r : Request) : Prop where
  method : r.method = .put
  path : Resource.ofPath? r.path = some .ownAccount
  caller : server.caller? ctx.now r = some caller
  body : r.decodeBody Json.Decoder.json = .ok body

theorem asked?_decideApplication_iff {form : StatusForm} :
    server.asked? ctx.now r = some (.decideApplication caller id form) ↔
      server.DecidesApplication caller id form ctx r := by
  constructor
  · intro asked
    obtain ⟨resource, verb, path, isVerb, called⟩ := asked?_eq_some_iff.mp asked
    obtain ⟨rfl, body, segment, rfl, isId⟩ := callFor?_revisedBy called _ rfl
    exact ⟨method_of_change isVerb, ⟨segment, path, isId⟩, caller?_of_asked asked rfl, body⟩
  · intro decides
    obtain ⟨who, known, rfl⟩ := identify_of_caller? decides.caller
    obtain ⟨segment, path, isId⟩ := decides.path
    refine asked?_eq_some_iff.mpr
      ⟨.applicationStatus segment, .change, path, by rw [decides.method]; rfl, ?_⟩
    simp only [Resource.callFor?, known, isId, decides.body]
    rfl

theorem asked?_updateJob_iff {form : JobChangeForm} :
    server.asked? ctx.now r = some (.updateJob caller id form) ↔
      server.UpdatesJob caller id form ctx r := by
  constructor
  · intro asked
    obtain ⟨resource, verb, path, isVerb, called⟩ := asked?_eq_some_iff.mp asked
    obtain ⟨rfl, body, segment, rfl, isId⟩ := callFor?_revisedBy called _ rfl
    exact ⟨method_of_change isVerb, ⟨segment, path, isId⟩, caller?_of_asked asked rfl, body⟩
  · intro updates
    obtain ⟨who, known, rfl⟩ := identify_of_caller? updates.caller
    obtain ⟨segment, path, isId⟩ := updates.path
    refine asked?_eq_some_iff.mpr ⟨.job segment, .change, path, by rw [updates.method]; rfl, ?_⟩
    simp only [Resource.callFor?, known, isId, updates.body]
    rfl

theorem asked?_updateSelf_iff {body : Json} :
    server.asked? ctx.now r = some (.updateSelf caller body) ↔
      server.UpdatesSelf caller body ctx r := by
  constructor
  · intro asked
    obtain ⟨resource, verb, path, isVerb, called⟩ := asked?_eq_some_iff.mp asked
    obtain ⟨rfl, isBody, rfl⟩ := callFor?_revisedBy called _ rfl
    exact ⟨method_of_change isVerb, path, caller?_of_asked asked rfl, isBody⟩
  · intro updates
    obtain ⟨who, known, rfl⟩ := identify_of_caller? updates.caller
    refine asked?_eq_some_iff.mpr ⟨.ownAccount, .change, updates.path, by rw [updates.method]; rfl, ?_⟩
    simp only [Resource.callFor?, known, updates.body]
    rfl

/-! ## Ends -/

def Ends (server : Server) (ctx : Context) (r : Request) (s : Store) (status : Nat) (left : Store) :
    Prop :=
  (server.handle ctx r s).1.status = status ∧ (server.handle ctx r s).2 = left

/-- A request that is answered with one status does not end with another. -/
theorem not_ends {told status : Nat} (answered : (server.handle ctx r s).1.status = told)
    (other : status ≠ told) : ¬server.Ends ctx r s status s' :=
  fun ends => other (ends.1.symm.trans answered)

theorem ends_of_error {call : Call} {f : Failure} (asked : server.asked? ctx.now r = some call)
    (failed : call.perform ctx s = (.error f, s')) : server.Ends ctx r s f.problem.status s' := by
  obtain ⟨store, status⟩ := handle_of_asked (s := s) asked
  rw [Ends, status, store, perform, failed]
  exact ⟨rfl, rfl⟩

theorem ends_of_ok {call : Call} {answer : Answer} (asked : server.asked? ctx.now r = some call)
    (performed : call.perform ctx s = (.ok answer, s')) :
    server.Ends ctx r s answer.status s' := by
  obtain ⟨store, status⟩ := handle_of_asked (s := s) asked
  rw [Ends, status, store, perform, performed]
  exact ⟨rfl, rfl⟩

end Server

end GigBoard
