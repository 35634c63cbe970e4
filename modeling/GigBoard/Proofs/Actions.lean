import GigBoard.Action
import GigBoard.Proofs.Integrity

/-!
# Actions step by step

What the first steps of an action tell about the rest.  `ReadOnly` actions leave the store alone, and
an action that `Commits` to an effect has either failed without a trace or had that effect; after the
effect it cannot fail any more if the store and the time are ordinary.
-/

set_option autoImplicit false

namespace GigBoard.Action

variable {α β : Type} {ctx : Context} {s s₁ s' : Store} {f : Failure} {a : α} {b : β}
  {act : Action α} {next : α → Action β}

/-! ## Steps that succeed -/

theorem bind_of_ok (first : act ctx s = (.ok a, s₁)) : (act >>= next) ctx s = next a ctx s₁ := by
  change act.andThen next ctx s = _
  rw [andThen, first]

theorem bind_of_error (first : act ctx s = (.error f, s₁)) :
    (act >>= next) ctx s = (.error f, s₁) := by
  change act.andThen next ctx s = _
  rw [andThen, first]

/-- Two steps succeed together only if both succeed, one on the store that the other left. -/
theorem steps_ok (ok : (act >>= next) ctx s = (.ok b, s')) :
    ∃ a s₁, act ctx s = (.ok a, s₁) ∧ next a ctx s₁ = (.ok b, s') := by
  rcases first : act ctx s with ⟨_ | a, s₁⟩
  · rw [bind_of_error first] at ok
    cases ok
  · rw [bind_of_ok first] at ok
    exact ⟨a, s₁, rfl, ok⟩

theorem query_ok {q : Store.Query α} (ok : query q ctx s = (.ok a, s')) : q s = .ok a ∧ s' = s := by
  unfold query at ok
  split at ok
  · cases ok
  · rename_i read
    cases ok
    exact ⟨read, rfl⟩

theorem query_of_ok {q : Store.Query α} (read : q s = .ok a) : query q ctx s = (.ok a, s) := by
  rw [query, read]

theorem expect_ok {value : Option α} (ok : expect f value ctx s = (.ok a, s')) :
    value = some a ∧ s' = s := by
  cases value with
  | none => cases ok
  | some v =>
      cases ok
      exact ⟨rfl, rfl⟩

theorem require_ok {condition : Bool} {u : Unit}
    (ok : require condition f ctx s = (.ok u, s')) : condition = true ∧ s' = s := by
  cases condition with
  | false => cases ok
  | true =>
      cases ok
      exact ⟨rfl, rfl⟩

theorem ofExcept_ok {x : Except Failure α} (ok : ofExcept x ctx s = (.ok a, s')) :
    x = .ok a ∧ s' = s := by
  cases x with
  | error f => cases ok
  | ok v =>
      cases ok
      exact ⟨rfl, rfl⟩

theorem change_ok {c : Store.Change α} {explain : StoreFault → Failure}
    (ok : change c explain ctx s = (.ok a, s')) : c s = .ok (a, s') := by
  unfold change at ok
  split at ok
  · cases ok
  · rename_i written
    cases ok
    exact written

theorem change_of_ok {c : Store.Change α} {explain : StoreFault → Failure}
    (written : c s = .ok (a, s')) : change c explain ctx s = (.ok a, s') := by
  rw [change, written]

theorem change_of_error {c : Store.Change α} {explain : StoreFault → Failure} {fault : StoreFault}
    (refused : c s = .error fault) : change c explain ctx s = (.error (explain fault), s) := by
  rw [change, refused]

/-! ## Actions that only read -/

def ReadOnly (act : Action α) : Prop := ∀ ctx s, (act ctx s).2 = s

namespace ReadOnly

theorem done (a : α) : (Action.done a).ReadOnly := fun _ _ => rfl

theorem fail (f : Failure) : (Action.fail f : Action α).ReadOnly := fun _ _ => rfl

theorem context : Action.context.ReadOnly := fun _ _ => rfl

theorem connect : Action.connect.ReadOnly := by
  intro ctx s
  unfold Action.connect
  split <;> rfl

theorem query (q : Store.Query α) : (Action.query q).ReadOnly := by
  intro ctx s
  unfold Action.query
  split <;> rfl

theorem expect (f : Failure) (value : Option α) : (Action.expect f value).ReadOnly := by
  cases value with
  | none => exact fail f
  | some a => exact done a

theorem require (condition : Bool) (f : Failure) : (Action.require condition f).ReadOnly := by
  cases condition with
  | false => exact fail f
  | true => exact done ()

theorem ofExcept (x : Except Failure α) : (Action.ofExcept x).ReadOnly := by
  cases x with
  | error f => exact fail f
  | ok a => exact done a

theorem bind (first : act.ReadOnly) (rest : ∀ a, (next a).ReadOnly) : (act >>= next).ReadOnly := by
  intro ctx s
  have same := first ctx s
  rcases run : act ctx s with ⟨f | a, s₁⟩
  · rw [run] at same
    rw [bind_of_error run]
    exact same
  · rw [run] at same
    rw [bind_of_ok run, rest a ctx s₁]
    exact same

end ReadOnly

/-! ## Actions that write -/

/-- An action that leaves the store alone if it fails. -/
def Atomic (act : Action α) : Prop := ∀ ctx s f s', act ctx s = (.error f, s') → s' = s

theorem Atomic.change (c : Store.Change α) (explain : StoreFault → Failure) :
    (change c explain).Atomic := by
  intro ctx s f s' failed
  unfold Action.change at failed
  split at failed
  · cases failed
    rfl
  · cases failed

theorem Atomic.transaction (act : Action α) : act.transaction.Atomic := by
  intro ctx s f s' failed
  unfold Action.transaction at failed
  split at failed
  · cases failed
    rfl
  · cases failed

theorem transaction_ok (ok : act.transaction ctx s = (.ok a, s')) : act ctx s = (.ok a, s') := by
  unfold transaction at ok
  split at ok
  · cases ok
  · rename_i done
    rw [done]
    exact ok

/-- If an action succeeds, its result and the store that it leaves are as told. -/
def Ensures (act : Action α) (ctx : Context) (s : Store) (told : α → Store → Prop) : Prop :=
  ∀ a s', act ctx s = (.ok a, s') → told a s'

namespace Ensures

variable {told : β → Store → Prop}

theorem bind (rest : ∀ a s₁, act ctx s = (.ok a, s₁) → (next a).Ensures ctx s₁ told) :
    (act >>= next).Ensures ctx s told := by
  intro b s' ok
  obtain ⟨a, s₁, first, later⟩ := steps_ok ok
  exact rest a s₁ first b s' later

theorem context {next : Context → Action β} (rest : (next ctx).Ensures ctx s told) :
    (Action.context >>= next).Ensures ctx s told := by
  apply bind
  intro c s₁ ok
  cases ok
  exact rest

theorem query {q : Store.Query α} (rest : ∀ a, q s = .ok a → (next a).Ensures ctx s told) :
    (Action.query q >>= next).Ensures ctx s told := by
  apply bind
  intro a s₁ ok
  obtain ⟨read, rfl⟩ := query_ok ok
  exact rest a read

theorem expect {value : Option α} (rest : ∀ a, value = some a → (next a).Ensures ctx s told) :
    (Action.expect f value >>= next).Ensures ctx s told := by
  apply bind
  intro a s₁ ok
  obtain ⟨isSome, rfl⟩ := expect_ok ok
  exact rest a isSome

theorem expect_last {value : Option β} (is : ∀ b, value = some b → told b s) :
    (Action.expect f value).Ensures ctx s told := by
  intro b s' ok
  obtain ⟨isSome, rfl⟩ := expect_ok ok
  exact is b isSome

theorem require {condition : Bool} {next : Unit → Action β}
    (rest : condition = true → (next ()).Ensures ctx s told) :
    (Action.require condition f >>= next).Ensures ctx s told := by
  apply bind
  intro _ s₁ ok
  obtain ⟨holds, rfl⟩ := require_ok ok
  exact rest holds

theorem ofExcept {x : Except Failure α} (rest : ∀ a, x = .ok a → (next a).Ensures ctx s told) :
    (Action.ofExcept x >>= next).Ensures ctx s told := by
  apply bind
  intro a s₁ ok
  obtain ⟨given, rfl⟩ := ofExcept_ok ok
  exact rest a given

theorem change {c : Store.Change α} {explain : StoreFault → Failure}
    (rest : ∀ a s₁, c s = .ok (a, s₁) → (next a).Ensures ctx s₁ told) :
    (Action.change c explain >>= next).Ensures ctx s told :=
  bind fun a s₁ ok => rest a s₁ (change_ok ok)

end Ensures

/-- A store as the service keeps it, at a time that can be read back. -/
structure Ordinary (ctx : Context) (s : Store) : Prop where
  sound : s.Sound
  readable : s.Readable
  timely : ctx.now.isRepresentable = true

def Succeeds (act : Action α) (ctx : Context) (s : Store) : Prop := ∃ a, (act ctx s).1 = .ok a

theorem Succeeds.done : (done a).Succeeds ctx s := ⟨a, rfl⟩

theorem Succeeds.bind (first : act ctx s = (.ok a, s₁)) (rest : (next a).Succeeds ctx s₁) :
    (act >>= next).Succeeds ctx s := by
  obtain ⟨b, ok⟩ := rest
  exact ⟨b, by rw [bind_of_ok first]; exact ok⟩

/-- An action fails and leaves the store alone, or has an effect on it.  Once the effect is there,
ordinary circumstances leave it no way to fail. -/
def Commits (act : Action α) (ctx : Context) (s : Store) (effect : Store → Prop) : Prop :=
  (∃ f, act ctx s = (.error f, s)) ∨
    (effect (act ctx s).2 ∧ (Ordinary ctx s → act.Succeeds ctx s))

namespace Commits

variable {effect : Store → Prop}

theorem of_readOnly (readOnly : act.ReadOnly) (nothing : effect s) : act.Commits ctx s effect := by
  have same := readOnly ctx s
  rcases run : act ctx s with ⟨f | a, s₁⟩
  · rw [run] at same
    left
    exact ⟨f, by rw [run, ← same]⟩
  · rw [run] at same
    right
    refine ⟨?_, fun _ => ⟨a, by rw [run]⟩⟩
    rw [run, show s₁ = s from same]
    exact nothing

/-- First steps that only read do not count. -/
theorem after (readOnly : act.ReadOnly)
    (rest : ∀ a, act ctx s = (.ok a, s) → (next a).Commits ctx s effect) :
    (act >>= next).Commits ctx s effect := by
  have same := readOnly ctx s
  rcases run : act ctx s with ⟨f | a, s₁⟩
  · rw [run] at same
    left
    exact ⟨f, by rw [bind_of_error run, ← same]⟩
  · rw [run] at same
    have unchanged : s₁ = s := same
    subst unchanged
    have committed := rest a run
    unfold Commits Succeeds at committed ⊢
    rw [bind_of_ok run]
    exact committed

theorem connect {next : Unit → Action β} (rest : (next ()).Commits ctx s effect) :
    (Action.connect >>= next).Commits ctx s effect :=
  after .connect fun _ _ => rest

theorem context {next : Context → Action β} (rest : (next ctx).Commits ctx s effect) :
    (Action.context >>= next).Commits ctx s effect := by
  apply after .context
  intro c is
  cases is
  exact rest

theorem query {q : Store.Query α} (rest : ∀ a, q s = .ok a → (next a).Commits ctx s effect) :
    (Action.query q >>= next).Commits ctx s effect :=
  after (.query q) fun a ok => rest a (query_ok ok).1

theorem expect {value : Option α}
    (rest : ∀ a, value = some a → (next a).Commits ctx s effect) :
    (Action.expect f value >>= next).Commits ctx s effect :=
  after (.expect f value) fun a ok => rest a (expect_ok ok).1

theorem require {condition : Bool} {next : Unit → Action β}
    (rest : condition = true → (next ()).Commits ctx s effect) :
    (Action.require condition f >>= next).Commits ctx s effect :=
  after (.require condition f) fun _ ok => rest (require_ok ok).1

theorem ofExcept {x : Except Failure α}
    (rest : ∀ a, x = .ok a → (next a).Commits ctx s effect) :
    (Action.ofExcept x >>= next).Commits ctx s effect :=
  after (.ofExcept x) fun a ok => rest a (ofExcept_ok ok).1

/-- The step that writes has the effect, and those after it only read. -/
theorem writing (atomic : act.Atomic) (readOnly : ∀ a, (next a).ReadOnly)
    (wrote : ∀ a s', act ctx s = (.ok a, s') →
      effect s' ∧ (Ordinary ctx s → (next a).Succeeds ctx s')) :
    (act >>= next).Commits ctx s effect := by
  rcases run : act ctx s with ⟨f | a, s₁⟩
  · have unchanged := atomic ctx s f s₁ run
    subst unchanged
    left
    exact ⟨f, bind_of_error run⟩
  · obtain ⟨done, ends⟩ := wrote a s₁ run
    right
    refine ⟨?_, fun ordinary => Succeeds.bind run (ends ordinary)⟩
    rw [bind_of_ok run, readOnly a ctx s₁]
    exact done

end Commits

end GigBoard.Action
