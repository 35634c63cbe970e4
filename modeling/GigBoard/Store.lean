import GigBoard.Account.User
import GigBoard.Delivery.Milestone
import GigBoard.Failure
import GigBoard.Hiring.Job
import GigBoard.Messaging.Message
import GigBoard.Reputation.Review
import GigBoard.Text.Pattern

/-!
# The store

Six tables of rows.  A query reads rows and fails if a time among them cannot be read back; a change
adds, replaces or removes rows, or fails and leaves the store as it is.
-/

set_option autoImplicit false

namespace GigBoard

/-- The rows of all tables, each table in the order in which its rows were added. -/
structure Store where
  users : List Account.User
  jobs : List Hiring.Job
  milestones : List Delivery.Milestone
  applications : List Hiring.Application
  messages : List Messaging.Message
  reviews : List Reputation.Review
  deriving DecidableEq

namespace Store

def empty : Store := ⟨[], [], [], [], [], []⟩

abbrev Query (α : Type) := Store → Except StoreFault α

abbrev Change (α : Type) := Store → Except StoreFault (α × Store)

/-! ## Reading rows -/

def readRows {α : Type} (isReadable : α → Bool) (rows : List α) : Except StoreFault (List α) :=
  if rows.all isReadable then .ok rows else .error .unreadable

def readRow {α : Type} (isReadable : α → Bool) (row : Option α) :
    Except StoreFault (Option α) :=
  if row.all isReadable then .ok row else .error .unreadable

def readPair {α β : Type} (isReadable : α → Bool) (isReadable' : β → Bool)
    (pair : Option (α × β)) : Except StoreFault (Option (α × β)) :=
  readRow (fun p => isReadable p.1 && isReadable' p.2) pair

/-- Rows with the latest first, and of the same time the one with the greatest identifier first. -/
def newestFirst {α : Type} (time : α → Timestamp) (id : α → Uuid) (rows : List α) : List α :=
  rows.mergeSort fun a b => decide (time b < time a ∨ (time a = time b ∧ id b ≤ id a))

def oldestFirst {α : Type} (time : α → Timestamp) (id : α → Uuid) (rows : List α) : List α :=
  rows.mergeSort fun a b => decide (time a < time b ∨ (time a = time b ∧ id a ≤ id b))

def window {α : Type} (offset limit : Int) (rows : List α) : List α :=
  (rows.drop offset.toNat).take limit.toNat

end Store

end GigBoard
