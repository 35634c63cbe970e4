import GigBoard.Proofs.Conversations

/-!
# Requests that change messages

Four kinds of requests change messages: one is sent, a thread is opened, one message is marked as read,
and a job is removed.  A request is told here by what it carries, its method, path, query, body and
token, and it comes to the call of its kind; no other request comes to such a call.
-/

set_option autoImplicit false

namespace GigBoard

open Http (Request Resource Response)
open Http.Resource (Verb)
open Messaging (MessageForm)

variable {ctx : Context} {r : Request} {s : Store} {caller other id : Uuid} {job : Option Uuid}
  {form : MessageForm}

/-- What a request must carry to come to a call that changes messages. -/
def Call.StatedBy (r : Request) (resource : Resource) (verb : Verb) : Call → Prop
  | .sendMessage _ form => verb = .add ∧ resource = .messages ∧
      r.decodeBody MessageForm.decoder = .ok form
  | .openThread _ other job => verb = .read ∧ ∃ segment, resource = .thread segment ∧
      Http.pathId segment = .ok other ∧ Http.queryId (Text.Form.pairs r.query) "jobId" = .ok job
  | .markRead _ id => verb = .change ∧ ∃ segment, resource = .messageRead segment ∧
      Http.pathId segment = .ok id
  | .removeJob _ id => verb = .remove ∧ ∃ segment, resource = .job segment ∧
      Http.pathId segment = .ok id
  | _ => True

theorem callFor?_statedBy {auth : Except Failure Token.Identity} {resource : Resource}
    {verb : Verb} {x : Except Failure Call} (made : resource.callFor? r auth verb = some x) :
    Makes x (Call.StatedBy r resource verb) := by
  unfold Resource.callFor? at made
  split at made
  all_goals try obtain rfl := Option.some.inj made
  -- Only the four calls that change messages are told anything of.
  all_goals try
    repeat refine .bind fun _ _ => ?_
    exact .ok trivial
  · refine .bind fun who _ => .bind fun id isId => ?_
    exact .ok ⟨rfl, _, rfl, isId⟩
  · refine .bind fun who _ => .bind fun form isForm => ?_
    exact .ok ⟨rfl, rfl, isForm⟩
  · refine .bind fun who _ => .bind fun id isId => .bind fun job isJob => ?_
    exact .ok ⟨rfl, _, rfl, isId, isJob⟩
  · refine .bind fun who _ => .bind fun id isId => ?_
    exact .ok ⟨rfl, _, rfl, isId⟩
  · cases made

theorem Http.pathId_eq_ok_iff {segment : List Char} : Http.pathId segment = .ok id ↔
    (Text.Utf8.decode? (Text.Percent.decode (Text.Utf8.encode segment))).bind Uuid.ofChars? =
      some id := by
  rw [Http.pathId]
  split
  · next missing => simp [missing]
  · next found => simp [found]

namespace Server

variable {server : Server}

structure SendsForm (server : Server) (caller : Uuid) (form : MessageForm) (ctx : Context)
    (r : Request) : Prop where
  method : r.method = .post
  path : Resource.ofPath? r.path = some .messages
  caller : server.caller? ctx.now r = some caller
  body : r.decodeBody MessageForm.decoder = .ok form

structure OpensThread (server : Server) (caller other : Uuid) (job : Option Uuid) (ctx : Context)
    (r : Request) : Prop where
  method : r.method = .get ∨ r.method = .head
  path : ∃ segment, Resource.ofPath? r.path = some (.thread segment) ∧
    Http.pathId segment = .ok other
  caller : server.caller? ctx.now r = some caller
  job : Http.queryId (Text.Form.pairs r.query) "jobId" = .ok job

structure MarksMessage (server : Server) (caller id : Uuid) (ctx : Context) (r : Request) :
    Prop where
  method : r.method = .put
  path : ∃ segment, Resource.ofPath? r.path = some (.messageRead segment) ∧
    Http.pathId segment = .ok id
  caller : server.caller? ctx.now r = some caller

structure RemovesJob (server : Server) (caller id : Uuid) (ctx : Context) (r : Request) : Prop where
  method : r.method = .delete
  path : ∃ segment, Resource.ofPath? r.path = some (.job segment) ∧ Http.pathId segment = .ok id
  caller : server.caller? ctx.now r = some caller

theorem method_of_read (read : Verb.ofMethod? r.method = some .read) :
    r.method = .get ∨ r.method = .head := by
  cases isMethod : r.method with
  | get => exact .inl rfl
  | head => exact .inr rfl
  | _ =>
      rw [isMethod] at read
      cases read

theorem method_of_change (change : Verb.ofMethod? r.method = some .change) : r.method = .put := by
  cases isMethod : r.method with
  | put => rfl
  | _ =>
      rw [isMethod] at change
      cases change

theorem method_of_remove (remove : Verb.ofMethod? r.method = some .remove) :
    r.method = .delete := by
  cases isMethod : r.method with
  | delete => rfl
  | _ =>
      rw [isMethod] at remove
      cases remove

/-! ## From requests to calls and back -/

theorem asked?_sendMessage_iff : server.asked? ctx.now r = some (.sendMessage caller form) ↔
    server.SendsForm caller form ctx r := by
  constructor
  · intro asked
    obtain ⟨resource, verb, path, isVerb, called⟩ := asked?_eq_some_iff.mp asked
    obtain ⟨rfl, rfl, body⟩ := callFor?_statedBy called _ rfl
    exact ⟨method_of_add isVerb, path, caller?_of_asked asked rfl, body⟩
  · intro sends
    obtain ⟨who, known, rfl⟩ := identify_of_caller? sends.caller
    refine asked?_eq_some_iff.mpr ⟨.messages, .add, sends.path, by rw [sends.method]; rfl, ?_⟩
    simp only [Resource.callFor?, known, sends.body]
    rfl

theorem asked?_openThread_iff : server.asked? ctx.now r = some (.openThread caller other job) ↔
    server.OpensThread caller other job ctx r := by
  constructor
  · intro asked
    obtain ⟨resource, verb, path, isVerb, called⟩ := asked?_eq_some_iff.mp asked
    obtain ⟨rfl, segment, rfl, isOther, about⟩ := callFor?_statedBy called _ rfl
    exact ⟨method_of_read isVerb, ⟨segment, path, isOther⟩, caller?_of_asked asked rfl, about⟩
  · intro opens
    obtain ⟨who, known, rfl⟩ := identify_of_caller? opens.caller
    obtain ⟨segment, path, isOther⟩ := opens.path
    refine asked?_eq_some_iff.mpr
      ⟨.thread segment, .read, path, verb_of_question opens.method, ?_⟩
    simp only [Resource.callFor?, known, isOther, opens.job]
    rfl

theorem asked?_markRead_iff : server.asked? ctx.now r = some (.markRead caller id) ↔
    server.MarksMessage caller id ctx r := by
  constructor
  · intro asked
    obtain ⟨resource, verb, path, isVerb, called⟩ := asked?_eq_some_iff.mp asked
    obtain ⟨rfl, segment, rfl, isId⟩ := callFor?_statedBy called _ rfl
    exact ⟨method_of_change isVerb, ⟨segment, path, isId⟩, caller?_of_asked asked rfl⟩
  · intro marks
    obtain ⟨who, known, rfl⟩ := identify_of_caller? marks.caller
    obtain ⟨segment, path, isId⟩ := marks.path
    refine asked?_eq_some_iff.mpr
      ⟨.messageRead segment, .change, path, by rw [marks.method]; rfl, ?_⟩
    simp only [Resource.callFor?, known, isId]
    rfl

theorem asked?_removeJob_iff : server.asked? ctx.now r = some (.removeJob caller id) ↔
    server.RemovesJob caller id ctx r := by
  constructor
  · intro asked
    obtain ⟨resource, verb, path, isVerb, called⟩ := asked?_eq_some_iff.mp asked
    obtain ⟨rfl, segment, rfl, isId⟩ := callFor?_statedBy called _ rfl
    exact ⟨method_of_remove isVerb, ⟨segment, path, isId⟩, caller?_of_asked asked rfl⟩
  · intro removes
    obtain ⟨who, known, rfl⟩ := identify_of_caller? removes.caller
    obtain ⟨segment, path, isId⟩ := removes.path
    refine asked?_eq_some_iff.mpr
      ⟨.job segment, .remove, path, by rw [removes.method]; rfl, ?_⟩
    simp only [Resource.callFor?, known, isId]
    rfl

end Server

/-- The time `-infinity` of a column: the least number of 64 bits, in microseconds since 2000. -/
def Timestamp.minusInfinity : Timestamp := ⟨-9222425352054775808⟩

/-! ## Removing a job -/

def Store.withoutJob (s : Store) (id : Uuid) : Store where
  users := s.users
  jobs := s.jobs.filter (·.id ≠ id)
  milestones := s.milestones.filter (·.jobId ≠ id)
  applications := s.applications.filter (·.jobId ≠ id)
  messages := s.messages.map (Store.detachedFrom id)
  reviews := s.reviews.filter (·.jobId ≠ id)

namespace Hiring

variable {j : Job}

theorem removeJob_of_found (connected : ctx.connected = true)
    (loaded : findJob id ctx s = (.ok j, s)) (owned : j.clientId = caller) :
    removeJob caller id ctx s = (.ok (), s.withoutJob id) := by
  have found := (findJob_ok loaded).1
  -- The job was found, so there is something to remove.
  have some : 0 < s.jobs.countP fun k => decide (k.id = id) :=
    List.countP_pos_iff.mpr ⟨j, found.mem, decide_eq_true found.id_eq⟩
  have counted : s.jobs.countP (fun k => decide (k.id = id)) ≠ 0 := by omega
  have removed : Action.change (Store.removeJob id) .store ctx s =
      (.ok (s.jobs.countP fun k => decide (k.id = id)), s.withoutJob id) := rfl
  have allowed : Action.require (decide (j.clientId = caller)) (.notOwner "delete") ctx s =
      (.ok (), s) := by
    rw [decide_eq_true owned]
    rfl
  rw [removeJob, Action.bind_of_ok (Action.connect_of_connected connected),
    Action.bind_of_ok loaded, Action.bind_of_ok allowed, Action.bind_of_ok removed,
    decide_eq_true counted]
  rfl

theorem removeJob_of_other (connected : ctx.connected = true)
    (loaded : findJob id ctx s = (.ok j, s)) (other : j.clientId ≠ caller) :
    removeJob caller id ctx s = (.error (.notOwner "delete"), s) := by
  have refused : Action.require (decide (j.clientId = caller)) (.notOwner "delete") ctx s =
      (.error (.notOwner "delete"), s) := by
    rw [decide_eq_false other]
    rfl
  rw [removeJob, Action.bind_of_ok (Action.connect_of_connected connected),
    Action.bind_of_ok loaded, Action.bind_of_error refused]

/-- A job is removed without a failure, or the store is left alone. -/
theorem removeJob_cases (caller id : Uuid) (ctx : Context) (s : Store) :
    (∃ f, removeJob caller id ctx s = (.error f, s)) ∨
      (∃ j, s.FindsJob id j ∧ j.clientId = caller) ∧
        removeJob caller id ctx s = (.ok (), s.withoutJob id) := by
  cases connected : ctx.connected with
  | false =>
      refine .inl ⟨.store .unavailable, Action.bind_of_error ?_⟩
      rw [Action.connect, connected]
      rfl
  | true =>
      have connects := Action.connect_of_connected (s := s) connected
      rcases loaded : findJob id ctx s with ⟨f | j, s₁⟩
      · have same := findJob_readOnly id ctx s
        rw [loaded] at same
        cases same
        exact .inl ⟨f, (Action.bind_of_ok connects).trans (Action.bind_of_error loaded)⟩
      · obtain ⟨found, rfl⟩ := findJob_ok loaded
        by_cases owned : j.clientId = caller
        · exact .inr ⟨⟨j, found, owned⟩, removeJob_of_found connected loaded owned⟩
        · exact .inl ⟨_, removeJob_of_other connected loaded owned⟩

end Hiring

namespace Server

variable {server : Server}

/-- A request that removes a job and changes the store is answered with 200. -/
theorem RemovesJob.cases (removes : server.RemovesJob caller id ctx r) (s : Store) :
    (400 ≤ (server.handle ctx r s).1.status ∧ (server.handle ctx r s).2 = s) ∨
      ((∃ j, s.FindsJob id j ∧ j.clientId = caller) ∧
        (server.handle ctx r s).1.status = 200 ∧
          (server.handle ctx r s).2 = s.withoutJob id) := by
  have asked := asked?_removeJob_iff.mpr removes
  obtain ⟨store, status⟩ := handle_of_asked (s := s) asked
  rw [store, status]
  rcases Hiring.removeJob_cases caller id ctx s with ⟨f, failed⟩ | ⟨found, removed⟩
  · have fails : (Call.removeJob caller id).perform ctx s = (.error f, s) :=
      Action.bind_of_error failed
    rw [perform, fails]
    exact .inl ⟨f.status_ge, rfl⟩
  · have succeeds : (Call.removeJob caller id).perform ctx s =
        (.ok (.ok (.object [("message", .string "job deleted")])), s.withoutJob id) :=
      Action.bind_of_ok removed
    rw [perform, succeeds]
    exact .inr ⟨found, rfl, rfl⟩

end Server

end GigBoard
