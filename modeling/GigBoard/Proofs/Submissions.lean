import GigBoard.Proofs.Precedence
import GigBoard.Proofs.StorableTexts

/-!
# Submissions

The requests that carry a form for a single row: an application for a job, a new state of a milestone, a
review.  `IsText` and `IsAmount` say what a form must give, and `EndsWith` says of a request what it is
answered with besides its status.
-/

set_option autoImplicit false

namespace GigBoard

open Hiring (ApplicationForm StatusForm)
open Http (Request Resource)
open Http.Resource (Verb)
open Reputation (ReviewForm)

variable {ctx : Context} {r : Request} {s s' : Store} {caller id : Uuid}

def Hiring.StatusForm.Names {α : Type} [Named α] (form : StatusForm) (a : α) : Prop :=
  ∃ text, form.status = some text ∧ Text.trim text = Named.name a

/-! ## What a form must give -/

namespace Hiring

theorem requiredText_tells (field : String) (given : Option String) :
    Tells 400 (requiredText field given) := by
  unfold requiredText
  split
  · exact .error rfl
  · exact .ok _

theorem positiveAmount_tells (field : String) (given : Option Binary64) :
    Tells 400 (positiveAmount field given) := by
  unfold positiveAmount
  split
  · exact .error rfl
  · split
    · exact .ok _
    · exact .error rfl

end Hiring

/-! ## Requests -/

def Call.SubmittedBy (r : Request) (resource : Resource) (verb : Verb) : Call → Prop
  | .applyForJob _ id form => verb = .add ∧ r.decodeBody ApplicationForm.decoder = .ok form ∧
      ∃ segment, resource = .applyFor segment ∧ Http.pathId segment = .ok id
  | .moveMilestone _ id form => verb = .change ∧ r.decodeBody StatusForm.decoder = .ok form ∧
      ∃ segment, resource = .milestoneStatus segment ∧ Http.pathId segment = .ok id
  | .writeReview _ form => verb = .add ∧ r.decodeBody ReviewForm.decoder = .ok form ∧
      resource = .reviews
  | _ => True

theorem callFor?_submittedBy {auth : Except Failure Token.Identity} {resource : Resource}
    {verb : Verb} {x : Except Failure Call} (made : resource.callFor? r auth verb = some x) :
    Makes x (Call.SubmittedBy r resource verb) := by
  unfold Resource.callFor? at made
  split at made
  all_goals try obtain rfl := Option.some.inj made
  -- Nothing is told of the other calls.
  all_goals try
    repeat refine .bind fun _ _ => ?_
    exact .ok trivial
  · refine .bind fun who _ => .bind fun id isId => .bind fun form isForm => ?_
    exact .ok ⟨rfl, isForm, _, rfl, isId⟩
  · refine .bind fun who _ => .bind fun id isId => .bind fun form isForm => ?_
    exact .ok ⟨rfl, isForm, _, rfl, isId⟩
  · refine .bind fun who _ => .bind fun form isForm => ?_
    exact .ok ⟨rfl, isForm, rfl⟩
  · cases made

namespace Server

variable {server : Server}

structure SubmitsApplication (server : Server) (caller id : Uuid) (form : ApplicationForm)
    (ctx : Context) (r : Request) : Prop where
  method : r.method = .post
  path : ∃ segment, Resource.ofPath? r.path = some (.applyFor segment) ∧
    Http.pathId segment = .ok id
  caller : server.caller? ctx.now r = some caller
  body : r.decodeBody ApplicationForm.decoder = .ok form

structure MovesMilestone (server : Server) (caller id : Uuid) (form : StatusForm) (ctx : Context)
    (r : Request) : Prop where
  method : r.method = .put
  path : ∃ segment, Resource.ofPath? r.path = some (.milestoneStatus segment) ∧
    Http.pathId segment = .ok id
  caller : server.caller? ctx.now r = some caller
  body : r.decodeBody StatusForm.decoder = .ok form

structure WritesReview (server : Server) (caller : Uuid) (form : ReviewForm) (ctx : Context)
    (r : Request) : Prop where
  method : r.method = .post
  path : Resource.ofPath? r.path = some .reviews
  caller : server.caller? ctx.now r = some caller
  body : r.decodeBody ReviewForm.decoder = .ok form

theorem asked?_applyForJob_iff {form : ApplicationForm} :
    server.asked? ctx.now r = some (.applyForJob caller id form) ↔
      server.SubmitsApplication caller id form ctx r := by
  constructor
  · intro asked
    obtain ⟨resource, verb, path, isVerb, called⟩ := asked?_eq_some_iff.mp asked
    obtain ⟨rfl, body, segment, rfl, isId⟩ := callFor?_submittedBy called _ rfl
    exact ⟨method_of_add isVerb, ⟨segment, path, isId⟩, caller?_of_asked asked rfl, body⟩
  · intro applies
    obtain ⟨who, known, rfl⟩ := identify_of_caller? applies.caller
    obtain ⟨segment, path, isId⟩ := applies.path
    refine asked?_eq_some_iff.mpr
      ⟨.applyFor segment, .add, path, by rw [applies.method]; rfl, ?_⟩
    simp only [Resource.callFor?, known, isId, applies.body]
    rfl

theorem asked?_moveMilestone_iff {form : StatusForm} :
    server.asked? ctx.now r = some (.moveMilestone caller id form) ↔
      server.MovesMilestone caller id form ctx r := by
  constructor
  · intro asked
    obtain ⟨resource, verb, path, isVerb, called⟩ := asked?_eq_some_iff.mp asked
    obtain ⟨rfl, body, segment, rfl, isId⟩ := callFor?_submittedBy called _ rfl
    exact ⟨method_of_change isVerb, ⟨segment, path, isId⟩, caller?_of_asked asked rfl, body⟩
  · intro moves
    obtain ⟨who, known, rfl⟩ := identify_of_caller? moves.caller
    obtain ⟨segment, path, isId⟩ := moves.path
    refine asked?_eq_some_iff.mpr
      ⟨.milestoneStatus segment, .change, path, by rw [moves.method]; rfl, ?_⟩
    simp only [Resource.callFor?, known, isId, moves.body]
    rfl

theorem asked?_writeReview_iff {form : ReviewForm} :
    server.asked? ctx.now r = some (.writeReview caller form) ↔
      server.WritesReview caller form ctx r := by
  constructor
  · intro asked
    obtain ⟨resource, verb, path, isVerb, called⟩ := asked?_eq_some_iff.mp asked
    obtain ⟨rfl, body, rfl⟩ := callFor?_submittedBy called _ rfl
    exact ⟨method_of_add isVerb, path, caller?_of_asked asked rfl, body⟩
  · intro writes
    obtain ⟨who, known, rfl⟩ := identify_of_caller? writes.caller
    refine asked?_eq_some_iff.mpr ⟨.reviews, .add, writes.path, by rw [writes.method]; rfl, ?_⟩
    simp only [Resource.callFor?, known, writes.body]
    rfl

/-- A request ends with a status, is answered with a value and leaves a store. -/
structure EndsWith (server : Server) (ctx : Context) (r : Request) (s : Store) (status : Nat)
    (body : Json) (left : Store) : Prop where
  ends : server.Ends ctx r s status left
  body : (server.handle ctx r s).1.body = some body

theorem endsWith_of_ok {call : Call} {answer : Answer} {body : Json} (notHead : r.method ≠ .head)
    (asked : server.asked? ctx.now r = some call)
    (performed : call.perform ctx s = (.ok answer, s')) (shown : answer.body = some body) :
    server.EndsWith ctx r s answer.status body s' where
  ends := ends_of_ok asked performed
  body := by rw [body_of_asked_of_not_head notHead asked, perform, performed, ← shown]

end Server

end GigBoard
