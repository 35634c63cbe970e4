import GigBoard.Hiring.Views
import GigBoard.Json.Decoder
import GigBoard.Text.Blank

/-!
# Posting, changing and removing jobs

A client posts a job with its milestones at once, may change it later, and may remove it.
-/

set_option autoImplicit false

namespace GigBoard.Hiring

open Delivery (Milestone)

/-- A text that must be given and not blank, without the blanks around it. -/
def requiredText (field : String) (value : Option String) : Except Failure String :=
  match value.bind Text.nonBlank? with
  | none => .error (.required field)
  | some text => .ok text

def positiveAmount (field : String) (value : Option Binary64) : Except Failure Binary64 :=
  match value with
  | none => .error (.required field)
  | some amount => if amount.isPositive then .ok amount else .error (.notPositive field)

structure MilestoneForm where
  title : Option String
  description : Option String
  amount : Option Binary64
  deriving DecidableEq, Repr

namespace MilestoneForm

def known : List (Json.Decoder.Member MilestoneForm) := [
  .of "title" Json.Decoder.text.nullable fun f v => { f with title := v },
  .of "description" Json.Decoder.text.nullable fun f v => { f with description := v },
  .of "amount" Json.Decoder.real.nullable fun f v => { f with amount := v }]

def decoder : Json.Decoder MilestoneForm := Json.Decoder.record ⟨none, none, none⟩ known

def toMilestone (f : MilestoneForm) (id jobId : Uuid) (order : Nat) (now : Timestamp) :
    Except Failure Milestone := do
  let title ← requiredText "milestone title" f.title
  let amount ← positiveAmount "milestone amount" f.amount
  return {
    id := id
    jobId := jobId
    title := title
    description := Text.trim (f.description.getD "")
    amount := amount
    status := .pending
    order := order
    createdAt := now
    updatedAt := now }

end MilestoneForm

structure JobForm where
  title : Option String
  description : Option String
  budget : Option Binary64
  category : Option String
  milestones : Option (List MilestoneForm)
  deriving DecidableEq, Repr

namespace JobForm

def known : List (Json.Decoder.Member JobForm) := [
  .of "title" Json.Decoder.text.nullable fun f v => { f with title := v },
  .of "description" Json.Decoder.text.nullable fun f v => { f with description := v },
  .of "budget" Json.Decoder.real.nullable fun f v => { f with budget := v },
  .of "category" Json.Decoder.text.nullable fun f v => { f with category := v },
  .of "milestones" (Json.Decoder.array MilestoneForm.decoder).nullable fun f v =>
    { f with milestones := v }]

def decoder : Json.Decoder JobForm := Json.Decoder.record ⟨none, none, none, none, none⟩ known

/-- The milestones that a form makes, counted on from an order. -/
def toMilestones (freshId : Nat → Uuid) (jobId : Uuid) (now : Timestamp) :
    Nat → List MilestoneForm → Except Failure (List Milestone)
  | _, [] => .ok []
  | order, f :: fs => do
    let milestone ← f.toMilestone (freshId (order + 1)) jobId order now
    let rest ← toMilestones freshId jobId now (order + 1) fs
    return milestone :: rest

def toRows (f : JobForm) (client : Uuid) (ctx : Context) :
    Except Failure (Job × List Milestone) := do
  let title ← requiredText "title" f.title
  let category ← requiredText "category" f.category
  let budget ← positiveAmount "budget" f.budget
  let jobId := ctx.freshId 0
  let milestones ← toMilestones ctx.freshId jobId ctx.now 0 (f.milestones.getD [])
  let job : Job := {
    id := jobId
    title := title
    description := Text.trim (f.description.getD "")
    budget := budget
    category := category
    status := .opened
    clientId := client
    freelancerId := none
    createdAt := ctx.now
    updatedAt := ctx.now }
  return (job, milestones)

end JobForm

def storeJob (job : Job) (milestones : List Milestone) : Action Unit := do
  Action.change (Store.addJob job) .store
  if milestones.isEmpty then return ()
  else Action.change (Store.addMilestones milestones) .store

def postJob (caller : Uuid) (form : JobForm) : Action JobView := do
  let ctx ← Action.context
  let (job, milestones) ← Action.ofExcept (form.toRows caller ctx)
  Action.connect
  Action.transaction (storeJob job milestones)
  let stored ← findJob job.id
  viewJob stored [caller]

structure JobChangeForm where
  title : Option String
  description : Option String
  budget : Option Binary64
  category : Option String
  status : Option String
  deriving DecidableEq, Repr

namespace JobChangeForm

def known : List (Json.Decoder.Member JobChangeForm) := [
  .of "title" Json.Decoder.text.nullable fun f v => { f with title := v },
  .of "description" Json.Decoder.text.nullable fun f v => { f with description := v },
  .of "budget" Json.Decoder.real.nullable fun f v => { f with budget := v },
  .of "category" Json.Decoder.text.nullable fun f v => { f with category := v },
  .of "status" Json.Decoder.text.nullable fun f v => { f with status := v }]

def decoder : Json.Decoder JobChangeForm := Json.Decoder.record ⟨none, none, none, none, none⟩ known

end JobChangeForm

/-- A change of a job whose parts are all allowed. -/
structure JobChange where
  title : Option String
  description : Option String
  budget : Option Binary64
  category : Option String
  status : Option JobStatus
  deriving DecidableEq, Repr

namespace JobChange

def filledText (field : String) (value : Option String) : Except Failure (Option String) :=
  match value with
  | none => .ok none
  | some s =>
    match Text.nonBlank? s with
    | none => .error (.blank field)
    | some text => .ok (some text)

def givenAmount (field : String) (value : Option Binary64) : Except Failure (Option Binary64) :=
  match value with
  | none => .ok none
  | some amount => (positiveAmount field (some amount)).map some

def givenStatus (value : Option String) : Except Failure (Option JobStatus) :=
  match value with
  | none => .ok none
  | some s => ((Named.read s).mapError .unknownName).map some

/-- Whether a job may be put into a state by its client. -/
def checkStatus (status : Option JobStatus) (j : Job) : Except Failure Unit :=
  if status = some .inProgress ∧ j.freelancerId = none then .error .startsByAcceptance
  else if status = some .opened ∧ j.freelancerId ≠ none then .error .cannotReopen
  else .ok ()

def ofForm (f : JobChangeForm) (j : Job) : Except Failure JobChange := do
  let title ← filledText "title" f.title
  let category ← filledText "category" f.category
  let budget ← givenAmount "budget" f.budget
  let status ← givenStatus f.status
  checkStatus status j
  return ⟨title, f.description.map Text.trim, budget, category, status⟩

def apply (c : JobChange) (j : Job) (now : Timestamp) : Job :=
  { j with
    title := c.title.getD j.title
    description := c.description.getD j.description
    budget := c.budget.getD j.budget
    category := c.category.getD j.category
    status := c.status.getD j.status
    updatedAt := now }

end JobChange

def updateJob (caller id : Uuid) (form : JobChangeForm) : Action JobView := do
  Action.connect
  let job ← findJob id
  Action.require (job.clientId = caller) (.notOwner "update")
  let change ← Action.ofExcept (JobChange.ofForm form job)
  let ctx ← Action.context
  Action.change (Store.replaceJob (change.apply job ctx.now)) .store
  let updated ← findJob id
  viewJob updated (partiesOf [updated])

def removeJob (caller id : Uuid) : Action Unit := do
  Action.connect
  let job ← findJob id
  Action.require (job.clientId = caller) (.notOwner "delete")
  let count ← Action.change (Store.removeJob id) .store
  Action.require (count ≠ 0) (.missing "job")

end GigBoard.Hiring
