import GigBoard.Proofs.Service

/-!
# Questions and their answers

A question that is answered with 200 came to a call, and the call gave what the response shows; and
what the call gives is shown.  Failures are never told with a status below 400.
-/

set_option autoImplicit false

namespace GigBoard

open Http (Request Resource Response)

variable {ctx : Context} {r : Request} {s s' : Store}

theorem ProblemKind.status_ge (kind : ProblemKind) : 400 ≤ kind.status := by
  cases kind <;> decide

theorem Failure.status_ge (f : Failure) : 400 ≤ f.problem.status := f.problem.kind.status_ge

/-! ## Rows that are read -/

namespace Store

variable {α : Type}

theorem readRows_ok {isReadable : α → Bool} {rows rows' : List α}
    (ok : readRows isReadable rows = .ok rows') : rows' = rows := by
  unfold readRows at ok
  split at ok
  · cases ok
    rfl
  · cases ok

theorem readRows_readable {isReadable : α → Bool} {rows rows' : List α}
    (ok : readRows isReadable rows = .ok rows') : ∀ r ∈ rows, isReadable r = true := by
  unfold readRows at ok
  split at ok
  · rename_i all
    exact List.all_eq_true.mp all
  · cases ok

theorem mem_of_usersWithIds {ids : List Uuid} {users : List Account.User}
    (loaded : usersWithIds ids s = .ok users) : ∀ u ∈ users, u ∈ s.users := by
  rw [readRows_ok loaded]
  exact fun u hu => (List.mem_filter.mp hu).1

end Store

/-! ## Results of actions -/

namespace Action

variable {α β : Type} {act : Action α}

theorem connect_of_connected (connected : ctx.connected = true) :
    Action.connect ctx s = (.ok (), s) := by
  rw [connect, if_pos connected]

theorem Ensures.connect {next : Unit → Action β} {told : β → Store → Prop}
    (rest : (next ()).Ensures ctx s told) : (Action.connect >>= next).Ensures ctx s told := by
  apply bind
  intro _ s₁ ok
  have same := ReadOnly.connect ctx s
  rw [ok] at same
  cases same
  exact rest

theorem Ensures.ofExcept_last {x : Except Failure β} {told : β → Store → Prop}
    (is : ∀ b, x = .ok b → told b s) : (Action.ofExcept x).Ensures ctx s told := by
  intro b s' ok
  obtain ⟨given, rfl⟩ := ofExcept_ok ok
  exact is b given

/-- An action that only reads and does not fail leaves the store to what comes next. -/
theorem Ensures.reading {next : α → Action β} {told : β → Store → Prop} (readOnly : act.ReadOnly)
    (rest : ∀ a, act ctx s = (.ok a, s) → (next a).Ensures ctx s told) :
    (act >>= next).Ensures ctx s told := by
  apply bind
  intro a s₁ ok
  have same := readOnly ctx s
  rw [ok] at same
  cases same
  exact rest a ok

/-- Two pairs of steps do the same if the first steps and the rest do. -/
theorem bind_congr {act' : Action α} {next next' : α → Action β} {ctx' : Context}
    (first : act ctx s = act' ctx' s) (rest : ∀ a s₁, next a ctx s₁ = next' a ctx' s₁) :
    (act >>= next) ctx s = (act' >>= next') ctx' s := by
  rcases run : act ctx s with ⟨f | a, s₁⟩
  · rw [bind_of_error run, bind_of_error (first.symm.trans run)]
  · rw [bind_of_ok run, bind_of_ok (first.symm.trans run), rest a s₁]

/-- An action that does the same under all circumstances. -/
def Steady (act : Action α) : Prop := ∀ ctx ctx' s, act ctx s = act ctx' s

namespace Steady

theorem query (q : Store.Query α) : (Action.query q).Steady := fun _ _ _ => rfl

theorem ofExcept (x : Except Failure α) : (Action.ofExcept x).Steady := by
  intro ctx ctx' s
  cases x <;> rfl

theorem bind {next : α → Action β} (first : act.Steady) (rest : ∀ a, (next a).Steady) :
    (act >>= next).Steady :=
  fun ctx ctx' s => bind_congr (first ctx ctx' s) fun a s₁ => rest a ctx ctx' s₁

end Steady

end Action

theorem Call.answering_result {α : Type} {act : Action α} {shown : α → Answer} {answer : Answer}
    (ok : answering act shown ctx s = (.ok answer, s')) :
    ∃ a, act ctx s = (.ok a, s') ∧ answer = shown a := by
  obtain ⟨a, _, first, last⟩ := Action.steps_ok ok
  cases last
  exact ⟨a, first, rfl⟩

/-! ## What is made of the items of a list -/

section MapM

variable {ε α β : Type} {make : α → Except ε β} {as : List α} {bs : List β}

theorem mapM_eq_ok_iff :
    as.mapM make = .ok bs ↔ List.Forall₂ (fun a b => make a = .ok b) as bs := by
  constructor
  · intro made
    induction as generalizing bs with
    | nil =>
        cases made
        exact .nil
    | cons a as ih =>
        rw [List.mapM_cons] at made
        obtain ⟨b, isFirst, made⟩ := bind_ok made
        obtain ⟨rest, isRest, made⟩ := bind_ok made
        cases made
        exact .cons isFirst (ih isRest)
  · intro each
    induction each with
    | nil => rfl
    | cons isFirst _ ih =>
        rw [List.mapM_cons, isFirst, ih]
        rfl

/-- If whatever is made of an item shows the item, then what is made of a list shows the list. -/
theorem mapM_ok {row : β → α} (made : as.mapM make = .ok bs)
    (shows : ∀ a ∈ as, ∀ b, make a = .ok b → row b = a) : bs.map row = as := by
  have each := mapM_eq_ok_iff.mp made
  clear made
  induction each with
  | nil => rfl
  | cons isFirst _ ih =>
      obtain ⟨first, rest⟩ := List.forall_mem_cons.mp shows
      rw [List.map_cons, first _ isFirst, ih rest]

theorem mapM_mem (made : as.mapM make = .ok bs) : ∀ b ∈ bs, ∃ a ∈ as, make a = .ok b := by
  have each := mapM_eq_ok_iff.mp made
  clear made
  induction each with
  | nil => nofun
  | cons isFirst _ ih =>
      refine List.forall_mem_cons.mpr ⟨⟨_, List.mem_cons_self, isFirst⟩, ?_⟩
      intro b hb
      obtain ⟨a, ha, is⟩ := ih b hb
      exact ⟨a, List.mem_cons_of_mem _ ha, is⟩

theorem mapM_of_all (all : ∀ a ∈ as, ∃ b, make a = .ok b) : ∃ bs, as.mapM make = .ok bs := by
  obtain ⟨bs, each⟩ := Rows.exists_forall₂ all
  exact ⟨bs, mapM_eq_ok_iff.mpr each⟩

end MapM

/-! ## Parts of a question -/

namespace Http.Request

/-- The value of a name in the query of a request, if the name stands there once. -/
def param (r : Request) (name : String) : Option String :=
  (queryValue (Text.Form.pairs r.query) name).toOption.join

theorem param_eq {name : String} {value : Option String}
    (given : queryValue (Text.Form.pairs r.query) name = .ok value) : r.param name = value := by
  rw [param, given]
  rfl

def page (r : Request) : Page := (PageQuery.mk (r.param "page") (r.param "limit")).resolve

theorem page_eq {q : PageQuery} (given : pageQuery (Text.Form.pairs r.query) = .ok q) :
    r.page = q.resolve := by
  obtain ⟨number, isNumber, given⟩ := bind_ok given
  obtain ⟨size, isSize, given⟩ := bind_ok given
  cases given
  rw [page, param_eq isNumber, param_eq isSize]

end Http.Request

/-! ## Questions -/

namespace Server

variable {server : Server} {call : Call} {answer : Answer} {resource : Resource}

theorem callFor?_of_asked {now : Timestamp} (isGet : r.method = .get)
    (path : Resource.ofPath? r.path = some resource) (asked : server.asked? now r = some call) :
    resource.callFor? r (server.identify now r) .read = some (.ok call) := by
  obtain ⟨named, verb, isPath, isVerb, called⟩ := asked?_eq_some_iff.mp asked
  rw [path] at isPath
  rw [isGet] at isVerb
  cases isPath
  cases isVerb
  exact called

theorem asked_of_callFor? {now : Timestamp} (isGet : r.method = .get)
    (path : Resource.ofPath? r.path = some resource)
    (called : resource.callFor? r (server.identify now r) .read = some (.ok call)) :
    server.asked? now r = some call := by
  apply asked?_eq_some_iff.mpr
  refine ⟨resource, .read, path, ?_, called⟩
  rw [isGet]
  rfl

section Refusals

variable {now : Timestamp} {outcome : Outcome}

theorem Refuses.status_ge (refuses : server.Refuses now r outcome) :
    400 ≤ outcome.answer.status := by
  cases refuses with
  | caller | call => exact Failure.status_ge _
  | path =>
      change 400 ≤ 404
      decide
  | method =>
      change 400 ≤ 405
      decide

theorem Refuses.lists_nothing (refuses : server.Refuses now r outcome) (entries : List Json) :
    outcome.answer.body ≠ some (.array entries) := by
  cases refuses <;> nofun

end Refusals

/-- The body of an answer is sent unless only the header fields were asked for. -/
theorem body_of_asked_of_not_head (notHead : r.method ≠ .head)
    (asked : server.asked? ctx.now r = some call) :
    (server.handle ctx r s).1.body = (perform call ctx s).1.answer.body := by
  unfold handle
  rw [if_neg (not_options_of_asked asked), serve_of_asked asked]
  exact if_neg notHead

theorem body_of_asked (isGet : r.method = .get) (asked : server.asked? ctx.now r = some call) :
    (server.handle ctx r s).1.body = (perform call ctx s).1.answer.body :=
  body_of_asked_of_not_head (by rw [isGet]; simp) asked

theorem answered_of_ok (isGet : r.method = .get) (asked : server.asked? ctx.now r = some call)
    (ok : call.perform ctx s = (.ok answer, s')) :
    (server.handle ctx r s).1.status = answer.status ∧
      (server.handle ctx r s).1.body = answer.body := by
  rw [(handle_of_asked asked).2, body_of_asked isGet asked, perform, ok]
  exact ⟨rfl, rfl⟩

theorem answered_of_succeeds {α : Type} {act : Action α} {shown : α → Json}
    (isGet : r.method = .get) (asked : server.asked? ctx.now r = some call)
    (performs : call.perform = Call.answering act fun a => .ok (shown a))
    (succeeds : act.Succeeds ctx s) : (server.handle ctx r s).1.status = 200 := by
  obtain ⟨a, ends⟩ := succeeds
  have ok : call.perform ctx s = (.ok (.ok (shown a)), (act ctx s).2) := by
    rw [performs]
    exact Action.bind_of_ok (Prod.ext ends rfl)
  exact (answered_of_ok isGet asked ok).1

/-- A question is answered with what its call gives, or it is refused: then the status is at least 400,
and what is told is not a list. -/
theorem answered_or_refused (isGet : r.method = .get) :
    (∃ call answer s', server.asked? ctx.now r = some call ∧
      call.perform ctx s = (.ok answer, s') ∧ (server.handle ctx r s).1.status = answer.status ∧
        (server.handle ctx r s).1.body = answer.body) ∨
    (400 ≤ (server.handle ctx r s).1.status ∧
      ∀ entries, (server.handle ctx r s).1.body ≠ some (.array entries)) := by
  cases asked : server.asked? ctx.now r with
  | none =>
      right
      obtain ⟨refusal, refuses, served⟩ := serve_of_not_asked asked
      have told : (server.handle ctx r s).1.status = refusal.answer.status ∧
          (server.handle ctx r s).1.body = refusal.answer.body := by
        simp [handle, isGet, served]
      rw [told.1, told.2]
      exact ⟨refuses.status_ge, refuses.lists_nothing⟩
  | some call =>
      rcases ended : call.perform ctx s with ⟨f | answer, s'⟩
      · right
        rw [(handle_of_asked asked).2, body_of_asked isGet asked, perform, ended]
        exact ⟨f.status_ge, nofun⟩
      · exact .inl ⟨call, answer, s', rfl, ended, answered_of_ok isGet asked ended⟩

/-- A question that is answered with 200 came to a call, which gave what is shown. -/
theorem call_of_answered (isGet : r.method = .get)
    (answered : (server.handle ctx r s).1.status = 200) :
    ∃ call answer s', server.asked? ctx.now r = some call ∧
      call.perform ctx s = (.ok answer, s') ∧
        (server.handle ctx r s).1.body = answer.body := by
  rcases answered_or_refused isGet with ⟨call, answer, s', asked, ended, _, body⟩ | ⟨refused, _⟩
  · exact ⟨call, answer, s', asked, ended, body⟩
  · rw [answered] at refused
    omega

/-- What a call gives that answers a question with 200. -/
theorem shown_of_answered {α : Type} {act : Action α} {shown : α → Json} {call : Call}
    (isGet : r.method = .get)
    (calls : ∀ c, server.asked? ctx.now r = some c → c = call)
    (performs : call.perform = Call.answering act fun a => .ok (shown a))
    (answered : (server.handle ctx r s).1.status = 200) :
    ∃ a s', act ctx s = (.ok a, s') ∧ (server.handle ctx r s).1.body = some (shown a) := by
  obtain ⟨c, answer, s', asked, ok, body⟩ := call_of_answered isGet answered
  rw [calls c asked, performs] at ok
  obtain ⟨a, given, rfl⟩ := Call.answering_result ok
  exact ⟨a, s', given, body⟩

/-- A question that comes to a call which only asks leaves the store alone. -/
theorem handle_of_asks (asks : ∀ call, server.asked? ctx.now r = some call → call.asks = true) :
    (server.handle ctx r s).2 = s := by
  cases asked : server.asked? ctx.now r with
  | none => exact handle_of_not_asked asked
  | some call =>
      rw [(handle_of_asked asked).1]
      exact Call.perform_readOnly (asks call asked) ctx s

end Server

end GigBoard
