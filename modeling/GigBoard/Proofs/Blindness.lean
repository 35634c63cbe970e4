import GigBoard.Proofs.Order
import GigBoard.Proofs.Outcome

/-!
# Statements and the messages of others

Two stores are `Alike` for a user if they differ at most in messages that the user neither sent nor
received.  A statement that a user runs tells the two stores not apart: it sorts, counts, finds and
marks messages of the user only, and whatever it does to other messages it does without looking at them.
`Blind` actions are made of such statements.
-/

set_option autoImplicit false

namespace GigBoard

open Messaging (Message)
open Rows (Unique)
open Store (involves newestFirst oldestFirst)

variable {c : Uuid} {foreign : Uuid → Prop}

/-! ## Tables of messages -/

namespace Messaging

/-- Two tables of messages hold the same messages of a user; all others have `foreign` identifiers. -/
structure Alike (c : Uuid) (foreign : Uuid → Prop) (ms ns : List Message) : Prop where
  own : ∀ m, involves c m = true → (m ∈ ms ↔ m ∈ ns)
  others : ∀ m, m ∈ ms ∨ m ∈ ns → involves c m = false → foreign m.id
  first : Unique Message.id ms
  second : Unique Message.id ns

namespace Alike

variable {ms ns : List Message} {p : Message → Bool}

theorem symm (alike : Alike c foreign ms ns) : Alike c foreign ns ms where
  own m involved := (alike.own m involved).symm
  others m member := alike.others m member.symm
  first := alike.second
  second := alike.first

theorem mem_filter_iff (alike : Alike c foreign ms ns)
    (own : ∀ m, p m = true → involves c m = true) (m : Message) :
    m ∈ ms.filter p ↔ m ∈ ns.filter p := by
  rw [List.mem_filter, List.mem_filter]
  exact and_congr_left fun passes => alike.own m (own m passes)

theorem countP_eq (alike : Alike c foreign ms ns)
    (own : ∀ m, p m = true → involves c m = true) : ms.countP p = ns.countP p := by
  have sameRows : (ms.filter p).Perm (ns.filter p) := by
    apply (List.perm_ext_iff_of_nodup _ _).mpr (alike.mem_filter_iff own)
    · exact (List.Nodup.of_map _ alike.first).filter p
    · exact (List.Nodup.of_map _ alike.second).filter p
  rw [List.countP_eq_length_filter, List.countP_eq_length_filter, sameRows.length_eq]

theorem newestFirst_eq (alike : Alike c foreign ms ns)
    (own : ∀ m, p m = true → involves c m = true) :
    newestFirst Message.createdAt Message.id (ms.filter p) =
      newestFirst Message.createdAt Message.id (ns.filter p) := by
  apply Store.eq_of_newer
  · exact Store.newestFirst_sorted (alike.first.filter p)
  · exact Store.newestFirst_sorted (alike.second.filter p)
  · intro m
    rw [Store.mem_newestFirst, Store.mem_newestFirst]
    exact alike.mem_filter_iff own m

theorem oldestFirst_eq (alike : Alike c foreign ms ns)
    (own : ∀ m, p m = true → involves c m = true) :
    oldestFirst Message.createdAt Message.id (ms.filter p) =
      oldestFirst Message.createdAt Message.id (ns.filter p) := by
  rw [Store.oldestFirst_eq_reverse (alike.first.filter p),
    Store.oldestFirst_eq_reverse (alike.second.filter p), alike.newestFirst_eq own]

theorem mem_of_found {id : Uuid} {m : Message} (alike : Alike c foreign ms ns)
    (notForeign : ¬ foreign id) (found : ms.find? (fun m => decide (m.id = id)) = some m) :
    m ∈ ns ∧ m.id = id := by
  have member : m ∈ ms := Rows.mem_of_found found
  have isId : m.id = id := Rows.key_of_found found
  cases involved : involves c m with
  | false => exact absurd (isId ▸ alike.others m (.inl member) involved) notForeign
  | true => exact ⟨(alike.own m involved).mp member, isId⟩

/-- An identifier that is not foreign finds the same message in both tables. -/
theorem find?_eq {id : Uuid} (alike : Alike c foreign ms ns) (notForeign : ¬ foreign id) :
    ms.find? (fun m => decide (m.id = id)) = ns.find? (fun m => decide (m.id = id)) := by
  cases found : ms.find? (fun m => decide (m.id = id)) with
  | some m =>
      obtain ⟨member, isId⟩ := alike.mem_of_found notForeign found
      exact (alike.second.find?_eq member isId).symm
  | none =>
      cases found' : ns.find? (fun m => decide (m.id = id)) with
      | none => rfl
      | some m =>
          obtain ⟨member, isId⟩ := alike.symm.mem_of_found notForeign found'
          rw [alike.first.find?_eq member isId] at found
          cases found

theorem any_eq {id : Uuid} (alike : Alike c foreign ms ns) (notForeign : ¬ foreign id) :
    ms.any (fun m => decide (m.id = id)) = ns.any (fun m => decide (m.id = id)) := by
  rw [← List.isSome_find?, ← List.isSome_find?, alike.find?_eq notForeign]

/-- Whatever is done to all messages keeps two tables alike if it keeps identifiers and users. -/
theorem map {update : Message → Message} (alike : Alike c foreign ms ns)
    (keepsId : ∀ m, (update m).id = m.id)
    (keepsUsers : ∀ m, involves c (update m) = involves c m) :
    Alike c foreign (ms.map update) (ns.map update) where
  own m involved := by
    rw [List.mem_map, List.mem_map]
    refine exists_congr fun o => and_congr_left ?_
    rintro rfl
    rw [keepsUsers] at involved
    exact alike.own o involved
  others m member notInvolved := by
    rw [List.mem_map, List.mem_map, ← exists_or] at member
    obtain ⟨o, ⟨ho, rfl⟩ | ⟨ho, rfl⟩⟩ := member
    · rw [keepsUsers] at notInvolved
      rw [keepsId]
      exact alike.others o (.inl ho) notInvolved
    · rw [keepsUsers] at notInvolved
      rw [keepsId]
      exact alike.others o (.inr ho) notInvolved
  first := alike.first.map fun m _ => keepsId m
  second := alike.second.map fun m _ => keepsId m

theorem append_one {m : Message} (alike : Alike c foreign ms ns) (involved : involves c m = true)
    (fresh : ∀ o ∈ ms, o.id ≠ m.id) (fresh' : ∀ o ∈ ns, o.id ≠ m.id) :
    Alike c foreign (ms ++ [m]) (ns ++ [m]) where
  own o isOwn := by
    rw [List.mem_append, List.mem_append, alike.own o isOwn]
  others o member notInvolved := by
    have notNew : o ≠ m := by
      rintro rfl
      rw [involved] at notInvolved
      cases notInvolved
    apply alike.others o _ notInvolved
    simpa [notNew] using member
  first := alike.first.append_one fresh
  second := alike.second.append_one fresh'

end Alike

end Messaging

/-! ## Stores -/

namespace Store

/-- Two stores that agree on everything but messages, and on all messages of a user. -/
structure AgreesFor (c : Uuid) (s t : Store) : Prop where
  users : s.users = t.users
  jobs : s.jobs = t.jobs
  milestones : s.milestones = t.milestones
  applications : s.applications = t.applications
  reviews : s.reviews = t.reviews
  messages : ∀ m, involves c m = true → (m ∈ s.messages ↔ m ∈ t.messages)

/-- Two stores with different messages that are alike for a user. -/
structure Alike (c : Uuid) (foreign : Uuid → Prop) (s t : Store) : Prop where
  rest : t = { s with messages := t.messages }
  messages : Messaging.Alike c foreign s.messages t.messages

variable {α : Type} {s t : Store}

theorem AgreesFor.alike (agrees : s.AgreesFor c t) (hs : s.Keyed) (ht : t.Keyed)
    (others : ∀ m, m ∈ s.messages ∨ m ∈ t.messages → involves c m = false → foreign m.id) :
    s.Alike c foreign t where
  rest := by
    obtain ⟨users, jobs, milestones, applications, reviews, _⟩ := agrees
    cases t
    simp_all
  messages := ⟨agrees.messages, others, hs.messageId, ht.messageId⟩

theorem Alike.agreesFor (alike : s.Alike c foreign t) : s.AgreesFor c t := by
  have rest := alike.rest
  constructor
  · rw [rest]
  · rw [rest]
  · rw [rest]
  · rw [rest]
  · rw [rest]
  · exact alike.messages.own

/-- What holds whatever the messages of others are holds of the second of two stores that are alike. -/
theorem Alike.elim {p : Store → Prop} (alike : s.Alike c foreign t)
    (holds : ∀ ns, Messaging.Alike c foreign s.messages ns → p { s with messages := ns }) : p t := by
  rw [alike.rest]
  exact holds t.messages alike.messages

/-! ## Statements -/

/-- A statement that ends in the same way on two stores, which stay alike. -/
def AlikeAfter (c : Uuid) (foreign : Uuid → Prop) (change : Change α) (s t : Store) : Prop :=
  (∃ fault, change s = .error fault ∧ change t = .error fault) ∨
    ∃ a s' t', change s = .ok (a, s') ∧ change t = .ok (a, t') ∧ s'.Alike c foreign t'

namespace AlikeAfter

/-- A statement may be refused by a test that both stores pass or both fail. -/
theorem refuse {test : Store → Bool} {fault : StoreFault} {change : Change α}
    (same : test s = test t) (rest : AlikeAfter c foreign change s t) :
    AlikeAfter c foreign (fun s => if test s then .error fault else change s) s t := by
  unfold AlikeAfter
  beta_reduce
  rw [← same]
  cases test s with
  | true => exact .inl ⟨fault, rfl, rfl⟩
  | false => exact rest

theorem write {result : Store → α} {update : Store → Store} (same : result s = result t)
    (alike : (update s).Alike c foreign (update t)) :
    AlikeAfter c foreign (fun s => .ok (result s, update s)) s t := by
  refine .inr ⟨result s, update s, update t, rfl, ?_, alike⟩
  rw [same]

theorem addUser (u : Account.User) (alike : s.Alike c foreign t) :
    AlikeAfter c foreign (Store.addUser u) s t :=
  alike.elim fun _ messages => .refuse rfl (.refuse rfl (.write rfl ⟨rfl, messages⟩))

theorem replaceUser (u : Account.User) (alike : s.Alike c foreign t) :
    AlikeAfter c foreign (Store.replaceUser u) s t :=
  alike.elim fun _ messages => .refuse rfl (.refuse rfl (.write rfl ⟨rfl, messages⟩))

theorem addJob (j : Hiring.Job) (alike : s.Alike c foreign t) :
    AlikeAfter c foreign (Store.addJob j) s t :=
  alike.elim fun _ messages =>
    .refuse rfl (.refuse rfl (.refuse rfl (.write rfl ⟨rfl, messages⟩)))

theorem replaceJob (j : Hiring.Job) (alike : s.Alike c foreign t) :
    AlikeAfter c foreign (Store.replaceJob j) s t :=
  alike.elim fun _ messages => .refuse rfl (.write rfl ⟨rfl, messages⟩)

theorem assignJob (id freelancer : Uuid) (now : Timestamp) (alike : s.Alike c foreign t) :
    AlikeAfter c foreign (Store.assignJob id freelancer now) s t :=
  alike.elim fun _ messages => .refuse rfl (.write rfl ⟨rfl, messages⟩)

theorem addMilestones (ms : List Delivery.Milestone) (alike : s.Alike c foreign t) :
    AlikeAfter c foreign (Store.addMilestones ms) s t :=
  alike.elim fun _ messages =>
    .refuse rfl (.refuse rfl (.refuse rfl (.write rfl ⟨rfl, messages⟩)))

theorem setMilestoneStatus (id : Uuid) (status : MilestoneStatus) (now : Timestamp)
    (alike : s.Alike c foreign t) :
    AlikeAfter c foreign (Store.setMilestoneStatus id status now) s t :=
  alike.elim fun _ messages => .write rfl ⟨rfl, messages⟩

theorem addApplication (a : Hiring.Application) (alike : s.Alike c foreign t) :
    AlikeAfter c foreign (Store.addApplication a) s t :=
  alike.elim fun _ messages =>
    .refuse rfl (.refuse rfl (.refuse rfl (.write rfl ⟨rfl, messages⟩)))

theorem setApplicationStatus (id : Uuid) (status : ApplicationStatus) (now : Timestamp)
    (alike : s.Alike c foreign t) :
    AlikeAfter c foreign (Store.setApplicationStatus id status now) s t :=
  alike.elim fun _ messages => .write rfl ⟨rfl, messages⟩

theorem addReview (r : Reputation.Review) (alike : s.Alike c foreign t) :
    AlikeAfter c foreign (Store.addReview r) s t :=
  alike.elim fun _ messages =>
    .refuse rfl (.refuse rfl (.refuse rfl (.write rfl ⟨rfl, messages⟩)))

theorem involves_detachedFrom (id : Uuid) (m : Message) :
    involves c (detachedFrom id m) = involves c m := by
  unfold detachedFrom
  split <;> rfl

theorem involves_readRowIf (due : Message → Bool) (m : Message) :
    involves c (readRowIf due m) = involves c m := by
  unfold readRowIf
  split <;> rfl

theorem removeJob (id : Uuid) (alike : s.Alike c foreign t) :
    AlikeAfter c foreign (Store.removeJob id) s t :=
  alike.elim fun _ messages =>
    .write rfl ⟨rfl, messages.map (detachedFrom_id id) (involves_detachedFrom id)⟩

theorem markRead {due : Message → Bool} (own : ∀ m, due m = true → involves c m = true)
    (alike : s.Alike c foreign t) : AlikeAfter c foreign (Store.markRead due) s t :=
  alike.elim fun _ messages =>
    .write (messages.countP_eq own)
      ⟨rfl, messages.map (readRowIf_id due) (involves_readRowIf due)⟩

/-- A message of the user under an identifier that no message of others has. -/
theorem addMessage {m : Message} (own : involves c m = true) (notForeign : ¬ foreign m.id)
    (alike : s.Alike c foreign t) : AlikeAfter c foreign (Store.addMessage m) s t := by
  refine alike.elim fun ns messages => .refuse rfl ?_
  have sameIds := messages.any_eq notForeign
  by_cases known : s.messages.any (fun o => decide (o.id = m.id)) = true
  · refine .inl ⟨.duplicate, if_pos known, if_pos (sameIds.symm.trans known)⟩
  · have fresh := List.any_eq_false.mp (Bool.eq_false_iff.mpr known)
    have fresh' := List.any_eq_false.mp (sameIds.symm.trans (Bool.eq_false_iff.mpr known))
    refine .refuse sameIds (.refuse rfl (.write rfl ⟨rfl, messages.append_one own ?_ ?_⟩))
    · simpa using fresh
    · simpa using fresh'

end AlikeAfter

end Store

/-! ## Actions -/

namespace Action

variable {α β : Type} {ctx : Context} {act : Action α} {next : α → Action β}

/-- An action that on two stores which are alike for a user gives one result and leaves them alike. -/
def Blind (c : Uuid) (foreign : Uuid → Prop) (ctx : Context) (act : Action α) : Prop :=
  ∀ s t, s.Alike c foreign t →
    (act ctx s).1 = (act ctx t).1 ∧ (act ctx s).2.Alike c foreign (act ctx t).2

namespace Blind

theorem done (a : α) : Blind c foreign ctx (Action.done a) := fun _ _ alike => ⟨rfl, alike⟩

theorem fail (f : Failure) : Blind c foreign ctx (Action.fail f : Action α) :=
  fun _ _ alike => ⟨rfl, alike⟩

theorem connect : Blind c foreign ctx Action.connect := by
  intro s t alike
  unfold Action.connect
  split
  · exact ⟨rfl, alike⟩
  · exact ⟨rfl, alike⟩

theorem expect (f : Failure) (value : Option α) : Blind c foreign ctx (Action.expect f value) := by
  cases value with
  | none => exact fail f
  | some a => exact done a

theorem require (condition : Bool) (f : Failure) :
    Blind c foreign ctx (Action.require condition f) := by
  cases condition with
  | false => exact fail f
  | true => exact done ()

theorem ofExcept (x : Except Failure α) : Blind c foreign ctx (Action.ofExcept x) := by
  cases x with
  | error f => exact fail f
  | ok a => exact done a

theorem bind (first : Blind c foreign ctx act) (rest : ∀ a, Blind c foreign ctx (next a)) :
    Blind c foreign ctx (act >>= next) := by
  intro s t alike
  obtain ⟨same, after⟩ := first s t alike
  rcases run : act ctx s with ⟨f | a, s₁⟩
  all_goals rcases run' : act ctx t with ⟨f' | a', t₁⟩
  all_goals
    rw [run, run'] at same after
    cases same
  · rw [bind_of_error run, bind_of_error run']
    exact ⟨rfl, after⟩
  · rw [bind_of_ok run, bind_of_ok run']
    exact rest a s₁ t₁ after

/-- The circumstances are the same for both stores. -/
theorem context {next : Context → Action β} (rest : Blind c foreign ctx (next ctx)) :
    Blind c foreign ctx (Action.context >>= next) := rest

/-- A statement that reads the same in both stores. -/
theorem query {q : Store.Query α} (same : ∀ s t, s.Alike c foreign t → q s = q t) :
    Blind c foreign ctx (Action.query q) := by
  intro s t alike
  unfold Action.query
  rw [← same s t alike]
  split
  · exact ⟨rfl, alike⟩
  · exact ⟨rfl, alike⟩

/-- A statement that reads no messages. -/
theorem reading {q : Store.Query α}
    (same : ∀ (s : Store) (ms : List Message), q { s with messages := ms } = q s) :
    Blind c foreign ctx (Action.query q) :=
  query fun s t alike => by
    rw [alike.rest]
    exact (same s t.messages).symm

theorem change {change : Store.Change α} {explain : StoreFault → Failure}
    (after : ∀ s t, s.Alike c foreign t → Store.AlikeAfter c foreign change s t) :
    Blind c foreign ctx (Action.change change explain) := by
  intro s t alike
  rcases after s t alike with ⟨fault, first, second⟩ | ⟨a, s', t', first, second, alike'⟩
  · rw [Action.change, Action.change, first, second]
    exact ⟨rfl, alike⟩
  · rw [change_of_ok first, change_of_ok second]
    exact ⟨rfl, alike'⟩

theorem transaction (blind : Blind c foreign ctx act) : Blind c foreign ctx act.transaction := by
  intro s t alike
  obtain ⟨same, after⟩ := blind s t alike
  unfold Action.transaction
  rcases run : act ctx s with ⟨f | a, s₁⟩
  all_goals rcases run' : act ctx t with ⟨f' | a', t₁⟩
  all_goals
    rw [run, run'] at same after
    cases same
  · exact ⟨rfl, alike⟩
  · exact ⟨rfl, after⟩

end Blind

end Action

end GigBoard
