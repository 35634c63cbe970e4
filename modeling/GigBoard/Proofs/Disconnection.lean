import GigBoard.Proofs.Actions
import GigBoard.Proofs.Authentication

/-!
# A store that cannot be reached

Every call looks at what it was given before it asks for a connection, and at nothing else.  So an
answer that is given without the store is the answer on every store, and where the store is needed
nothing but an internal error is told.
-/

set_option autoImplicit false

namespace GigBoard

open Http (Request Resource Response)

/-! ## Checks whose result is settled -/

section Settled

variable {ι κ α β : Type}

/-- Under whatever circumstances, a check ends in one failure, or in no failure at all. -/
def Settled (check : ι → Except Failure α) : Prop :=
  (∃ f, ∀ i, check i = .error f) ∨ ∀ i, ∃ a, check i = .ok a

namespace Settled

theorem const (x : Except Failure α) : Settled fun _ : ι => x := by
  cases x with
  | error f => exact .inl ⟨f, fun _ => rfl⟩
  | ok a => exact .inr fun _ => ⟨a, rfl⟩

theorem comp {check : ι → Except Failure α} (settled : Settled check) (g : κ → ι) :
    Settled fun k => check (g k) := by
  rcases settled with ⟨f, fails⟩ | succeeds
  · exact .inl ⟨f, fun k => fails (g k)⟩
  · exact .inr fun k => succeeds (g k)

theorem pure (value : ι → α) : Settled fun i => (Pure.pure (value i) : Except Failure α) :=
  .inr fun i => ⟨value i, rfl⟩

/-- The result of the first check is one more circumstance of the second. -/
theorem bind {first : ι → Except Failure α} {next : ι → α → Except Failure β}
    (settled : Settled first) (later : Settled fun p : ι × α => next p.1 p.2) :
    Settled fun i => first i >>= next i := by
  rcases settled with ⟨f, fails⟩ | succeeds
  · refine .inl ⟨f, fun i => ?_⟩
    simp only [fails i]
    rfl
  rcases later with ⟨f, fails⟩ | succeedsLater
  · refine .inl ⟨f, fun i => ?_⟩
    obtain ⟨a, is⟩ := succeeds i
    simp only [is]
    exact fails (i, a)
  · refine .inr fun i => ?_
    obtain ⟨a, is⟩ := succeeds i
    obtain ⟨b, last⟩ := succeedsLater (i, a)
    refine ⟨b, ?_⟩
    simp only [is]
    exact last

end Settled

/-- The identifier and the time of a registration do not count in the check of it. -/
theorem Account.Registration.toUser_settled (r : Account.Registration) :
    Settled fun ctx : Context => r.toUser (ctx.freshId 0) ctx.now := by
  unfold toUser
  cases r.walletAddress.bind Text.nonBlank? with
  | none => exact .const (.error (.required "walletAddress"))
  | some wallet =>
      refine .bind (.const _) ?_
      cases r.username.bind Text.nonBlank? with
      | none => exact .const (.error (.required "username"))
      | some username =>
          refine .bind (.const _) ?_
          cases r.role with
          | none => exact .const (.error (.required "role"))
          | some role => exact .bind (.const _) (.pure _)

namespace Hiring

theorem MilestoneForm.toMilestone_settled (f : MilestoneForm) (order : Nat)
    (id jobId : ι → Uuid) (now : ι → Timestamp) :
    Settled fun i => f.toMilestone (id i) (jobId i) order (now i) := by
  unfold toMilestone
  refine .bind (.const _) ?_
  refine .bind (.const _) ?_
  exact .pure _

theorem JobForm.toMilestones_settled (fs : List MilestoneForm) (order : Nat) :
    Settled fun ctx : Context => toMilestones ctx.freshId (ctx.freshId 0) ctx.now order fs := by
  induction fs generalizing order with
  | nil => exact .const (.ok [])
  | cons f fs ih =>
      refine .bind (f.toMilestone_settled order _ _ _) ?_
      refine .bind ((ih (order + 1)).comp Prod.fst) ?_
      exact .pure _

theorem JobForm.toRows_settled (f : JobForm) (client : Uuid) :
    Settled (f.toRows client) := by
  have milestones := toMilestones_settled (f.milestones.getD []) 0
  unfold toRows
  refine .bind (.const _) ?_
  refine .bind (.const _) ?_
  refine .bind (.const _) ?_
  -- The circumstances stand behind the title, the category and the budget.
  refine .bind (milestones.comp fun p : ((Context × String) × String) × Binary64 => p.1.1.1) ?_
  exact .pure _

end Hiring

end Settled

/-! ## Actions before and after the connection -/

namespace Action

variable {α β : Type} {act : Action α}

/-- Without a connection nothing comes of an action but that the store cannot be reached. -/
def Waits (act : Action α) : Prop :=
  ∀ ctx s, ctx.connected = false → act ctx s = (.error (.store .unavailable), s)

/-- The same comes of an action whatever the circumstances and the store, which stays as it is. -/
def Fixed (act : Action α) : Prop := ∃ result, ∀ ctx s, act ctx s = (result, s)

/-- An action that needs the store waits for a connection, and any other one is fixed. -/
def Detached (act : Action α) : Prop := act.Fixed ∨ act.Waits

theorem connect_waits : connect.Waits := by
  intro ctx s apart
  simp [connect, apart]

theorem Waits.bind (waits : act.Waits) (next : α → Action β) : (act >>= next).Waits :=
  fun ctx s apart => bind_of_error (waits ctx s apart)

theorem Waits.context {next : Context → Action β} (waits : ∀ ctx, (next ctx).Waits) :
    (context >>= next).Waits :=
  fun ctx s apart => waits ctx ctx s apart

theorem Fixed.error {f : Failure} (fails : ∀ ctx s, act ctx s = (.error f, s))
    (next : α → Action β) : (act >>= next).Fixed :=
  ⟨.error f, fun ctx s => bind_of_error (fails ctx s)⟩

namespace Detached

theorem connect (next : Unit → Action β) : (connect >>= next).Detached :=
  .inr (connect_waits.bind next)

theorem ofExcept (x : Except Failure α) {next : α → Action β} (later : ∀ a, (next a).Detached) :
    (ofExcept x >>= next).Detached := by
  cases x with
  | error f => exact .inl (.error (fun _ _ => rfl) next)
  | ok a => exact later a

theorem settled {check : Context → Except Failure α} (settled : Settled check)
    {next : Context → α → Action β} (waits : ∀ ctx a, (next ctx a).Waits) :
    (context >>= fun ctx => Action.ofExcept (check ctx) >>= next ctx).Detached := by
  rcases settled with ⟨f, fails⟩ | succeeds
  · refine .inl ⟨.error f, fun ctx s => ?_⟩
    change (Action.ofExcept (check ctx) >>= next ctx) ctx s = _
    rw [fails ctx]
    rfl
  · refine .inr (.context fun ctx => ?_)
    obtain ⟨a, is⟩ := succeeds ctx
    rw [is]
    exact waits ctx a

theorem answering (detached : act.Detached) (answer : α → Answer) :
    (Call.answering act answer).Detached := by
  rcases detached with ⟨result, fixed⟩ | waits
  · left
    cases result with
    | error f => exact .error fixed _
    | ok a => exact ⟨.ok (answer a), fun ctx s => bind_of_ok (fixed ctx s)⟩
  · exact .inr (waits.bind _)

end Detached

end Action

/-- No call looks at the store before it has a connection, nor at the circumstances. -/
theorem Call.perform_detached (call : Call) : call.perform.Detached := by
  cases call with
  | health => exact .inl ⟨_, fun _ _ => rfl⟩
  | whoAmI who => exact .inl ⟨_, fun _ _ => rfl⟩
  | register form =>
      refine .answering (.settled form.toUser_settled fun _ _ => ?_) _
      exact Action.connect_waits.bind _
  | postJob caller form =>
      refine .answering (.settled (form.toRows_settled caller) fun _ _ => ?_) _
      exact Action.connect_waits.bind _
  | searchJobs query => exact .answering (.ofExcept _ fun _ => .connect _) _
  | decideApplication caller application form =>
      exact .answering (.ofExcept _ fun _ => .connect _) _
  | moveMilestone caller milestone form => exact .answering (.ofExcept _ fun _ => .connect _) _
  | writeReview caller form => exact .answering (.ofExcept _ fun _ => .connect _) _
  | sendMessage caller form =>
      refine .answering (.ofExcept _ fun _ => .inr (.context fun _ => ?_)) _
      exact Action.connect_waits.bind _
  | _ => exact .answering (.connect _) _

/-! ## The answers of the service -/

namespace Server

variable {server : Server} {r : Request}

theorem perform_detached (call : Call) :
    (∃ outcome, ∀ ctx s, perform call ctx s = (outcome, s)) ∨
      ∀ ctx s, ctx.connected = false →
        perform call ctx s = (.ofFailure (.store .unavailable), s) := by
  rcases call.perform_detached with ⟨result, fixed⟩ | waits
  · left
    cases result with
    | error f => exact ⟨.ofFailure f, fun ctx s => by rw [perform, fixed]⟩
    | ok answer => exact ⟨⟨answer, none⟩, fun ctx s => by rw [perform, fixed]⟩
  · exact .inr fun ctx s apart => by rw [perform, waits ctx s apart]

/-- As long as it is judged alike who makes a request, the circumstances count in nothing but the
call that comes of it. -/
theorem serve_detached (server : Server) (r : Request) (lost : Context) :
    (∃ outcome, ∀ ctx s, server.identify ctx.now r = server.identify lost.now r →
      server.serve ctx r s = (outcome, s)) ∨
      ∀ ctx s, server.identify ctx.now r = server.identify lost.now r → ctx.connected = false →
        server.serve ctx r s = (.ofFailure (.store .unavailable), s) := by
  cases path : Resource.ofPath? r.path with
  | none =>
      refine .inl ⟨(server.serve lost r .empty).1, fun ctx s alike => ?_⟩
      simp only [serve, path, alike]
      cases server.identify lost.now r <;> rfl
  | some resource =>
      cases called : server.callFor? lost.now r resource with
      | none =>
          refine .inl ⟨server.refuseMethod lost.now r resource, fun ctx s alike => ?_⟩
          rw [callFor?] at called
          simp only [serve, path, callFor?, alike, called, refuseMethod]
      | some made =>
          rw [callFor?] at called
          cases made with
          | error f =>
              refine .inl ⟨.ofFailure f, fun ctx s alike => ?_⟩
              simp only [serve, path, callFor?, alike, called]
          | ok call =>
              have performs (ctx : Context) (s : Store)
                  (alike : server.identify ctx.now r = server.identify lost.now r) :
                  server.serve ctx r s = perform call ctx s := by
                simp only [serve, path, callFor?, alike, called]
              rcases perform_detached call with ⟨outcome, fixed⟩ | waits
              · refine .inl ⟨outcome, fun ctx s alike => ?_⟩
                rw [performs ctx s alike, fixed]
              · refine .inr fun ctx s alike apart => ?_
                rw [performs ctx s alike, waits ctx s apart]

/-- Without a connection to the store a request is answered in one way and changes nothing.  Either that
is an internal error, or the request has the same answer whatever the store holds, also with a
connection, and at every moment at which its token is judged alike; and then it never changes the
store. -/
theorem lost_store_only_hides (server : Server) (r : Request) (lost : Context)
    (apart : lost.connected = false) :
    ∃ response : Response, (∀ s, server.handle lost r s = (response, s)) ∧
      (response.status = 500 ∨
        ∀ ctx, server.identify ctx.now r = server.identify lost.now r →
          ∀ s, server.handle ctx r s = (response, s)) := by
  by_cases options : r.method = .options
  · have asked (ctx : Context) (s : Store) : server.handle ctx r s = (server.preflight r, s) := by
      rw [handle, if_pos options]
    exact ⟨server.preflight r, asked lost, .inr fun ctx _ => asked ctx⟩
  rcases serve_detached server r lost with ⟨outcome, fixed⟩ | waits
  · have same (ctx : Context) (alike : server.identify ctx.now r = server.identify lost.now r)
        (s : Store) : server.handle ctx r s = (server.respond r outcome, s) :=
      handle_of_serve options (fixed ctx s alike)
    exact ⟨_, same lost rfl, .inr same⟩
  · exact ⟨_, fun s => handle_of_serve options (waits lost s rfl apart), .inl rfl⟩

def cutOff : Context := { firstMoment with connected := false }

def blankWallet : Request := { secondName with
  body := Text.Utf8.ofString
    "\x7b\"walletAddress\":\" \",\"username\":\"bob\",\"role\":\"CLIENT\"\x7d" }

theorem lost_store_only_hides_site :
    cutOff.connected = false ∧
      (plain.handle cutOff blankWallet siteStore).1.status = 400 ∧
      plain.handle firstMoment blankWallet siteStore =
        plain.handle cutOff blankWallet siteStore := by
  have refused : (plain.handle cutOff blankWallet siteStore).1.status = 400 := by decide +kernel
  obtain ⟨response, without, told⟩ := lost_store_only_hides plain blankWallet cutOff rfl
  rw [without siteStore] at refused ⊢
  have same := told.resolve_left (by rw [refused]; decide)
  exact ⟨rfl, refused, same firstMoment rfl siteStore⟩

end Server

end GigBoard
