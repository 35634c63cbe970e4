import GigBoard.Proofs.Answers

/-!
# Faults and who is told of them

A caller who is refused is told why, unless the failure is internal.  Checks of what a request says are
`Candid`: they never fail internally.  Each statement that writes has few reasons to refuse, and an
action is `Confined` if it fails internally only where the store refused a value or a reference.
-/

set_option autoImplicit false

namespace GigBoard

open Account (ProfileChange Registration User)
open Delivery (Milestone)
open Hiring (Application Decision Job JobChange JobChangeForm JobForm JobQuery MilestoneForm
  StatusForm)
open Http (Request Resource)
open Messaging (Message MessageForm)
open Reputation (Review ReviewForm)

variable {ctx : Context} {r : Request} {s s' : Store} {α β : Type}

/-! ## Internal failures -/

def Failure.IsInternal (f : Failure) : Prop := f.problem.kind = .internal

namespace Failure

variable {f : Failure}

theorem status_eq_iff : f.problem.status = 500 ↔ f.IsInternal := by
  rw [Problem.status, IsInternal]
  cases f.problem.kind <;> decide

/-- All internal failures are told alike. -/
theorem IsInternal.problem_eq (internal : f.IsInternal) : f.problem = .internal := by
  cases f with
  | store fault =>
      cases fault with
      | noRow => cases internal
      | _ => rfl
  | arithmetic => rfl
  | incomplete => rfl
  | _ => cases internal

theorem unknownName_told (name : UnknownName) : ¬(Failure.unknownName name).IsInternal := nofun

/-- A failure that is internal only if the store refused a value or a reference, each for a reason. -/
def Excused (refused orphaned : Prop) (f : Failure) : Prop :=
  f.IsInternal → (f = .store .rejected ∧ refused) ∨ (f = .store .missingReference ∧ orphaned)

theorem Excused.told {refused orphaned : Prop} (told : ¬f.IsInternal) :
    f.Excused refused orphaned :=
  fun internal => absurd internal told

theorem Excused.rejected {refused orphaned : Prop} (reason : refused) :
    (Failure.store .rejected).Excused refused orphaned :=
  fun _ => .inl ⟨rfl, reason⟩

theorem Excused.orphaned {refused orphaned : Prop} (reason : orphaned) :
    (Failure.store .missingReference).Excused refused orphaned :=
  fun _ => .inr ⟨rfl, reason⟩

end Failure

/-! ## Checks of what is said -/

/-- A check that tells the caller why it fails. -/
def Candid (x : Except Failure α) : Prop := ∀ f, x = .error f → ¬f.IsInternal

namespace Candid

variable {x : Except Failure α} {next : α → Except Failure β} {f : Failure}

theorem ok (a : α) : Candid (.ok a : Except Failure α) := nofun

theorem pure (a : α) : Candid (Pure.pure a : Except Failure α) := ok a

theorem error (told : ¬f.IsInternal) : Candid (.error f : Except Failure α) := by
  intro g same
  cases same
  exact told

theorem bind (first : Candid x) (rest : ∀ a, Candid (next a)) : Candid (x >>= next) := by
  cases x with
  | error f => exact error (first f rfl)
  | ok a => exact rest a

theorem map {g : α → β} (inner : Candid x) : Candid (x.map g) := by
  cases x with
  | error f => exact error (inner f rfl)
  | ok a => exact ok (g a)

theorem mapError {ε : Type} {y : Except ε α} {g : ε → Failure} (told : ∀ e, ¬(g e).IsInternal) :
    Candid (y.mapError g) := by
  cases y with
  | error e => exact error (told e)
  | ok a => exact ok a

theorem throw (told : ¬f.IsInternal) : Candid (MonadExcept.throw f >>= next) :=
  error told

end Candid

namespace Account

theorem Registration.toUser_candid (form : Registration) (id : Uuid) (now : Timestamp) :
    Candid (form.toUser id now) := by
  have told (field : String) : ¬(Failure.required field).IsInternal := nofun
  simp only [toUser]
  split
  · exact .throw (told _)
  · refine .bind (.ok _) fun wallet => ?_
    split
    · exact .throw (told _)
    · refine .bind (.ok _) fun username => ?_
      split
      · exact .throw (told _)
      · exact .bind (.mapError Failure.unknownName_told) fun role => .ok _

theorem ProfileChange.usernameOf_candid (body : Json) : Candid (usernameOf body) := by
  unfold usernameOf
  split
  · exact .ok _
  · split
    · exact .error nofun
    · exact .ok _
  · exact .error nofun

theorem ProfileChange.patchOf_candid (body : Json) (field : String) :
    Candid (patchOf body field) := by
  unfold patchOf
  split
  · exact .ok _
  · split
    · exact .error nofun
    · exact .ok _

theorem ProfileChange.ofBody_candid (body : Json) (present : User) :
    Candid (ofBody body present) := by
  refine .bind (usernameOf_candid body) fun _ => .bind (patchOf_candid body _) fun _ => ?_
  exact .bind (patchOf_candid body _) fun _ => .bind (patchOf_candid body _) fun _ => .ok _

end Account

namespace Hiring

theorem requiredText_candid (field : String) (value : Option String) :
    Candid (requiredText field value) := by
  unfold requiredText
  split
  · exact .error nofun
  · exact .ok _

theorem positiveAmount_candid (field : String) (value : Option Binary64) :
    Candid (positiveAmount field value) := by
  unfold positiveAmount
  split
  · exact .error nofun
  · split
    · exact .ok _
    · exact .error nofun

theorem JobForm.toMilestones_candid {freshId : Nat → Uuid} {jobId : Uuid} {now : Timestamp}
    (forms : List MilestoneForm) : ∀ order, Candid (toMilestones freshId jobId now order forms) := by
  induction forms with
  | nil => exact fun _ => .ok _
  | cons form forms ih =>
      intro order
      refine .bind ?_ fun _ => .bind (ih _) fun _ => .ok _
      exact .bind (requiredText_candid _ _) fun _ => .bind (positiveAmount_candid _ _) fun _ => .ok _

theorem JobForm.toRows_candid (form : JobForm) (client : Uuid) (ctx : Context) :
    Candid (form.toRows client ctx) := by
  refine .bind (requiredText_candid _ _) fun _ => .bind (requiredText_candid _ _) fun _ => ?_
  refine .bind (positiveAmount_candid _ _) fun _ => ?_
  exact .bind (toMilestones_candid _ 0) fun _ => .ok _

namespace JobChange

theorem filledText_candid (field : String) (value : Option String) :
    Candid (filledText field value) := by
  unfold filledText
  split
  · exact .ok _
  · split
    · exact .error nofun
    · exact .ok _

theorem givenAmount_candid (field : String) (value : Option Binary64) :
    Candid (givenAmount field value) := by
  cases value with
  | none => exact .ok _
  | some amount => exact .map (positiveAmount_candid _ _)

theorem givenStatus_candid (value : Option String) : Candid (givenStatus value) := by
  cases value with
  | none => exact .ok _
  | some s => exact .map (.mapError Failure.unknownName_told)

theorem checkStatus_candid (status : Option JobStatus) (j : Job) :
    Candid (checkStatus status j) := by
  unfold checkStatus
  split
  · exact .error nofun
  · split
    · exact .error nofun
    · exact .ok _

theorem ofForm_candid (form : JobChangeForm) (j : Job) : Candid (ofForm form j) := by
  refine .bind (filledText_candid _ _) fun _ => .bind (filledText_candid _ _) fun _ => ?_
  refine .bind (givenAmount_candid _ _) fun _ => .bind (givenStatus_candid _) fun _ => ?_
  exact .bind (checkStatus_candid _ _) fun _ => .ok _

end JobChange

theorem JobQuery.filter_candid (q : JobQuery) : Candid q.filter := by
  simp only [filter]
  split
  · exact .bind (.ok _) fun _ => .ok _
  · exact .bind (.map (.mapError Failure.unknownName_told)) fun _ => .ok _

theorem checkApplicant_candid (job : Job) (applicant : Uuid) :
    Candid (checkApplicant job applicant) := by
  unfold checkApplicant
  split
  · exact .error nofun
  · split
    · exact .error nofun
    · exact .ok _

theorem Decision.ofForm_candid (form : StatusForm) : Candid (ofForm form) := by
  unfold ofForm
  split
  · exact .ok _
  · exact .ok _
  · exact .error nofun

end Hiring

namespace Delivery

theorem statusOfForm_candid (form : StatusForm) : Candid (statusOfForm form) := by
  unfold statusOfForm
  split
  · exact .error nofun
  · exact .mapError Failure.unknownName_told

theorem checkMove_candid (party : Party) (source target : MilestoneStatus) :
    Candid (checkMove party source target) := by
  unfold checkMove
  split
  · exact .ok _
  · split
    · exact .error nofun
    · exact .error nofun

end Delivery

namespace Reputation

theorem ReviewForm.verdict_candid (form : ReviewForm) : Candid form.verdict := by
  unfold verdict
  split
  · exact .error nofun
  · exact .error nofun
  · exact .error nofun
  · split
    · exact .ok _
    · exact .error nofun

theorem checkReviewer_candid (job : Job) (reviewer reviewee : Uuid) :
    Candid (checkReviewer job reviewer reviewee) := by
  unfold checkReviewer
  split
  · exact .error nofun
  · split
    · exact .error nofun
    · split
      · exact .error nofun
      · split
        · exact .ok _
        · exact .error nofun

end Reputation

theorem Messaging.MessageForm.parts_candid (form : MessageForm) : Candid form.parts := by
  unfold parts
  split
  · split
    · exact .ok _
    · exact .error nofun
  · exact .error nofun

/-! ## What a request brings with it -/

namespace Http

theorem pathId_candid (segment : List Char) : Candid (pathId segment) := by
  unfold pathId
  split
  · exact .error nofun
  · exact .ok _

theorem queryValue_candid (pairs : List (String × String)) (name : String) :
    Candid (queryValue pairs name) := by
  unfold queryValue
  split
  · exact .ok _
  · exact .ok _
  · exact .error nofun

theorem queryId_candid (pairs : List (String × String)) (name : String) :
    Candid (queryId pairs name) := by
  refine .bind (queryValue_candid _ _) fun value => ?_
  split
  · exact .ok _
  · split
    · exact .error nofun
    · exact .ok _

theorem pageQuery_candid (pairs : List (String × String)) : Candid (pageQuery pairs) :=
  .bind (queryValue_candid _ _) fun _ => .bind (queryValue_candid _ _) fun _ => .ok _

theorem Request.decodeBody_candid (r : Request) (decoder : Json.Decoder α) :
    Candid (r.decodeBody decoder) := by
  unfold decodeBody
  split
  · exact .error nofun
  · split
    · exact .error nofun
    · exact .mapError fun _ => nofun

theorem Resource.callFor?_candid {auth : Except Failure Token.Identity} {resource : Resource}
    {verb : Verb} {x : Except Failure Call} (auth_candid : Candid auth)
    (made : resource.callFor? r auth verb = some x) : Candid x := by
  unfold callFor? at made
  split at made
  all_goals try obtain rfl := Option.some.inj made
  -- Every call is put together from the same few parts; the last case is no call.
  all_goals try
    repeat' with_reducible first
      | refine .bind ?_ fun _ => ?_
      | exact .pure _
      | exact .ok _
      | exact auth_candid
      | exact pathId_candid _
      | exact queryValue_candid _ _
      | exact queryId_candid _ _
      | exact pageQuery_candid _
      | exact Request.decodeBody_candid r _
  cases made

end Http

theorem Server.identify_candid (server : Server) (now : Timestamp) (r : Request) :
    Candid (server.identify now r) := by
  unfold identify
  split
  · exact .error nofun
  · split
    · exact .error nofun
    · exact .ok _

/-! ## What the store refuses -/

namespace Store

variable {fault : StoreFault}

theorem addUser_fault {u : User} (refused : addUser u s = .error fault) :
    (fault = .rejected ∧ ¬u.fits = true) ∨ fault = .duplicate := by
  unfold addUser at refused
  split at refused
  · rename_i unfit
    cases refused
    exact .inl ⟨rfl, by simpa using unfit⟩
  · split at refused
    · cases refused
      exact .inr rfl
    · cases refused

theorem replaceUser_fault {u : User} (refused : replaceUser u s = .error fault) :
    (fault = .rejected ∧ ¬u.fits = true) ∨ fault = .duplicate := by
  unfold replaceUser at refused
  split at refused
  · rename_i unfit
    cases refused
    exact .inl ⟨rfl, by simpa using unfit⟩
  · split at refused
    · cases refused
      exact .inr rfl
    · cases refused

theorem addJob_fault {j : Job} (new : ∀ k ∈ s.jobs, k.id ≠ j.id)
    (refused : addJob j s = .error fault) :
    (fault = .rejected ∧ ¬j.fits = true) ∨ (fault = .missingReference ∧
      ¬(s.hasUser j.clientId = true ∧ ∀ f, j.freelancerId = some f → s.hasUser f = true)) := by
  unfold addJob at refused
  split at refused
  · rename_i unfit
    cases refused
    exact .inl ⟨rfl, by simpa using unfit⟩
  · split at refused
    · rename_i known
      obtain ⟨k, hk, same⟩ := (hasJob_iff s j.id).mp known
      exact absurd same (new k hk)
    · split at refused
      · rename_i unlinked
        cases refused
        refine .inr ⟨rfl, fun ⟨client, freelancer⟩ => ?_⟩
        have freelancers := (Option.all_eq_true _ _).mpr freelancer
        rw [client, freelancers] at unlinked
        cases unlinked
      · cases refused

/-- Why ever a job is not added, the caller is not told. -/
theorem addJob_internal {j : Job} (refused : addJob j s = .error fault) :
    (Failure.store fault).IsInternal := by
  unfold addJob at refused
  split at refused
  · cases refused
    rfl
  · split at refused
    · cases refused
      rfl
    · split at refused
      · cases refused
        rfl
      · cases refused

theorem replaceJob_fault {j : Job} (refused : replaceJob j s = .error fault) :
    fault = .rejected ∧ ¬j.fits = true := by
  unfold replaceJob at refused
  split at refused
  · rename_i unfit
    cases refused
    exact ⟨rfl, by simpa using unfit⟩
  · cases refused

theorem assignJob_fault {id freelancer : Uuid} {now : Timestamp}
    (refused : assignJob id freelancer now s = .error fault) : ¬s.hasUser freelancer = true := by
  unfold assignJob at refused
  simp only at refused
  split at refused
  · rename_i unknown
    rw [Bool.and_eq_true] at unknown
    simpa using unknown.2
  · cases refused

theorem anyMilestoneClash_of_apart {stored ms : List Milestone}
    (new : ∀ m ∈ ms, ∀ o ∈ stored, milestonesClash m o = false)
    (distinct : ms.Pairwise fun m o => milestonesClash m o = false) :
    anyMilestoneClash stored ms = false := by
  induction distinct with
  | nil => rfl
  | cons apart _ ih =>
      obtain ⟨newFirst, newRest⟩ := List.forall_mem_cons.mp new
      simp only [anyMilestoneClash, Bool.or_eq_false_iff, List.any_eq_false, Bool.not_eq_true]
      exact ⟨⟨newFirst, apart⟩, ih newRest⟩

theorem addMilestones_internal {ms : List Milestone} (refused : addMilestones ms s = .error fault) :
    (Failure.store fault).IsInternal := by
  unfold addMilestones at refused
  split at refused
  · cases refused
    rfl
  · split at refused
    · cases refused
      rfl
    · split at refused
      · cases refused
        rfl
      · cases refused

theorem addMilestones_fault {ms : List Milestone}
    (apart : ms.length ≤ greatestBatch → anyMilestoneClash s.milestones ms = false)
    (there : ∀ m ∈ ms, s.hasJob m.jobId = true) (refused : addMilestones ms s = .error fault) :
    fault = .rejected ∧ (greatestBatch < ms.length ∨ ¬∀ m ∈ ms, m.fits = true) := by
  unfold addMilestones at refused
  split at refused
  · rename_i unfit
    cases refused
    simpa using unfit
  · rename_i fits
    have few : ms.length ≤ greatestBatch := by
      by_contra many
      exact fits (by rw [decide_eq_true (Nat.lt_of_not_le many), Bool.true_or])
    rw [apart few, if_neg Bool.false_ne_true, List.all_eq_true.mpr there,
      if_neg (by decide)] at refused
    cases refused

theorem addApplication_fault {a : Application} (refused : addApplication a s = .error fault) :
    (fault = .rejected ∧ ¬a.fits = true) ∨ fault = .duplicate ∨ (fault = .missingReference ∧
      ¬(s.hasJob a.jobId = true ∧ s.hasUser a.freelancerId = true)) := by
  unfold addApplication at refused
  split at refused
  · rename_i unfit
    cases refused
    exact .inl ⟨rfl, by simpa using unfit⟩
  · split at refused
    · cases refused
      exact .inr (.inl rfl)
    · split at refused
      · rename_i unlinked
        cases refused
        refine .inr (.inr ⟨rfl, fun ⟨job, freelancer⟩ => ?_⟩)
        rw [job, freelancer] at unlinked
        cases unlinked
      · cases refused

theorem addMessage_fault {m : Message} (new : ∀ n ∈ s.messages, n.id ≠ m.id)
    (refused : addMessage m s = .error fault) :
    (fault = .rejected ∧ ¬m.fits = true) ∨ fault = .missingReference := by
  unfold addMessage at refused
  split at refused
  · rename_i unfit
    cases refused
    exact .inl ⟨rfl, by simpa using unfit⟩
  · split at refused
    · rename_i known
      obtain ⟨n, hn, same⟩ := List.any_eq_true.mp known
      exact absurd (of_decide_eq_true same) (new n hn)
    · split at refused
      · cases refused
        exact .inr rfl
      · cases refused

theorem addReview_fault {r : Review} (refused : addReview r s = .error fault) :
    (fault = .rejected ∧ ¬r.fits = true) ∨ fault = .duplicate ∨ (fault = .missingReference ∧
      ¬(s.hasJob r.jobId = true ∧ s.hasUser r.reviewerId = true ∧
        s.hasUser r.revieweeId = true)) := by
  unfold addReview at refused
  split at refused
  · rename_i unfit
    cases refused
    exact .inl ⟨rfl, by simpa using unfit⟩
  · split at refused
    · cases refused
      exact .inr (.inl rfl)
    · split at refused
      · rename_i unlinked
        cases refused
        refine .inr (.inr ⟨rfl, fun ⟨job, reviewer, reviewee⟩ => ?_⟩)
        rw [job, reviewer, reviewee] at unlinked
        cases unlinked
      · cases refused

theorem readRow_of_readable {isReadable : α → Bool} {rows : List α}
    (readable : ∀ q ∈ rows, isReadable q = true) (p : α → Bool) :
    readRow isReadable (rows.find? p) = .ok (rows.find? p) := by
  cases found : rows.find? p with
  | none => rfl
  | some q => rw [readRow, Option.all_some, readable q (List.mem_of_find?_eq_some found), if_pos rfl]

/-- A row and its job are loaded from tables that can be read. -/
theorem readPair_of_readable {isReadable : α → Bool} {rows : List α} (job : α → Uuid)
    (readable : ∀ q ∈ rows, isReadable q = true) (jobs : ∀ j ∈ s.jobs, j.isReadable = true)
    (p : α → Bool) :
    ∃ row, readPair isReadable Job.isReadable ((rows.find? p).bind fun q =>
      (s.jobs.find? fun k => decide (k.id = job q)).map fun k => (q, k)) = .ok row := by
  refine ⟨_, if_pos ?_⟩
  rw [Option.all_eq_true]
  rintro ⟨q, k⟩ both
  obtain ⟨q', found, rest⟩ := Option.bind_eq_some_iff.mp both
  obtain ⟨k', of, same⟩ := Option.map_eq_some_iff.mp rest
  cases same
  rw [readable q (List.mem_of_find?_eq_some found), jobs k (List.mem_of_find?_eq_some of)]
  rfl

end Store

/-! ## Actions that fail internally for few reasons -/

namespace Action

/-- The internal failures of an action are those of a store that refuses a value or a reference, each
for a reason. -/
def Confined (act : Action α) (ctx : Context) (s : Store) (refused orphaned : Prop) : Prop :=
  ∀ f s', act ctx s = (.error f, s') → f.Excused refused orphaned

namespace Confined

variable {refused orphaned : Prop} {act : Action α} {next : α → Action β} {f : Failure} {a : α}
  {s₁ : Store}

theorem done : (Action.done a).Confined ctx s refused orphaned := nofun

theorem of_succeeds (succeeds : act.Succeeds ctx s) : act.Confined ctx s refused orphaned := by
  intro f s' failed
  obtain ⟨a, ok⟩ := succeeds
  rw [failed] at ok
  cases ok

theorem imp {refused' : Prop} (inner : act.Confined ctx s refused orphaned)
    (weaker : refused → refused') : act.Confined ctx s refused' orphaned :=
  fun f s' failed internal => (inner f s' failed internal).imp_left (.imp_right weaker)

theorem bind (first : act.Confined ctx s refused orphaned)
    (rest : ∀ a s₁, act ctx s = (.ok a, s₁) → (next a).Confined ctx s₁ refused orphaned) :
    (act >>= next).Confined ctx s refused orphaned := by
  intro f s' failed
  rcases run : act ctx s with ⟨g | a, s₁⟩
  · rw [bind_of_error run] at failed
    cases failed
    exact first _ _ run
  · rw [bind_of_ok run] at failed
    exact rest a s₁ run f s' failed

theorem bind_of_ok (first : act ctx s = (.ok a, s₁))
    (rest : (next a).Confined ctx s₁ refused orphaned) :
    (act >>= next).Confined ctx s refused orphaned := by
  intro f s' failed
  rw [Action.bind_of_ok first] at failed
  exact rest f s' failed

theorem context {next : Context → Action β} (rest : (next ctx).Confined ctx s refused orphaned) :
    (Action.context >>= next).Confined ctx s refused orphaned :=
  bind_of_ok rfl rest

theorem connect {next : Unit → Action β} (connected : ctx.connected = true)
    (rest : (next ()).Confined ctx s refused orphaned) :
    (Action.connect >>= next).Confined ctx s refused orphaned :=
  bind_of_ok (connect_of_connected connected) rest

theorem query {q : Store.Query α} (read : q s = .ok a)
    (rest : (next a).Confined ctx s refused orphaned) :
    (Action.query q >>= next).Confined ctx s refused orphaned :=
  bind_of_ok (query_of_ok read) rest

theorem expect {value : Option α} (told : ¬f.IsInternal)
    (rest : ∀ a, value = some a → (next a).Confined ctx s refused orphaned) :
    (Action.expect f value >>= next).Confined ctx s refused orphaned := by
  cases value with
  | none =>
      intro g s' failed
      cases failed
      exact .told told
  | some a => exact bind_of_ok rfl (rest a rfl)

theorem expect_last {value : Option α} (told : ¬f.IsInternal) :
    (Action.expect f value).Confined ctx s refused orphaned := by
  cases value with
  | none =>
      intro g s' failed
      cases failed
      exact .told told
  | some a => exact done

theorem require {condition : Bool} {next : Unit → Action β} (told : ¬f.IsInternal)
    (rest : condition = true → (next ()).Confined ctx s refused orphaned) :
    (Action.require condition f >>= next).Confined ctx s refused orphaned := by
  cases condition with
  | false =>
      intro g s' failed
      cases failed
      exact .told told
  | true => exact bind_of_ok rfl (rest rfl)

theorem require_last {condition : Bool} (told : ¬f.IsInternal) :
    (Action.require condition f).Confined ctx s refused orphaned := by
  cases condition with
  | false =>
      intro g s' failed
      cases failed
      exact .told told
  | true => exact done

theorem ofExcept {x : Except Failure α} (candid : Candid x)
    (rest : ∀ a, x = .ok a → (next a).Confined ctx s refused orphaned) :
    (Action.ofExcept x >>= next).Confined ctx s refused orphaned := by
  cases x with
  | error g =>
      intro g' s' failed
      cases failed
      exact .told (candid g rfl)
  | ok a => exact bind_of_ok rfl (rest a rfl)

theorem change_last {c : Store.Change α} {explain : StoreFault → Failure}
    (faults : ∀ fault, c s = .error fault → (explain fault).Excused refused orphaned) :
    (Action.change c explain).Confined ctx s refused orphaned := by
  intro g s' failed
  unfold Action.change at failed
  split at failed
  · rename_i fault isFault
    cases failed
    exact faults fault isFault
  · cases failed

theorem change {c : Store.Change α} {explain : StoreFault → Failure}
    (faults : ∀ fault, c s = .error fault → (explain fault).Excused refused orphaned)
    (rest : ∀ a s₁, c s = .ok (a, s₁) → (next a).Confined ctx s₁ refused orphaned) :
    (Action.change c explain >>= next).Confined ctx s refused orphaned :=
  bind (change_last faults) fun a s₁ ok => rest a s₁ (change_ok ok)

theorem transaction (inner : act.Confined ctx s refused orphaned) :
    act.transaction.Confined ctx s refused orphaned := by
  intro g s' failed
  unfold Action.transaction at failed
  split at failed
  · rename_i g' s₁ run
    cases failed
    exact inner _ _ run
  · cases failed

theorem findJob {id : Uuid} {next : Job → Action β} (readable : s.Readable)
    (rest : ∀ j, s.FindsJob id j → (next j).Confined ctx s refused orphaned) :
    (Hiring.findJob id >>= next).Confined ctx s refused orphaned := by
  apply bind
  · exact query (Store.readRow_of_readable readable.jobs _) (expect_last nofun)
  · intro j s₁ ok
    obtain ⟨found, rfl⟩ := Hiring.findJob_ok ok
    exact rest j found

theorem answering (inner : act.Confined ctx s refused orphaned) (answer : α → Answer) :
    (Call.answering act answer).Confined ctx s refused orphaned :=
  bind inner fun _ _ _ => done

end Confined

end Action

end GigBoard
