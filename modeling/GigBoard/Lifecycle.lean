import GigBoard.Text.Blank

/-!
# Roles and states

The roles of users and the states of jobs, applications and milestones.  Each has a name, by which it
is stored, shown and read; reading ignores blanks around the name and nothing else.

An application is decided once.  A milestone is moved forward by the freelancer and judged by the
client, and a rejected one is taken up again.
-/

set_option autoImplicit false

namespace GigBoard

/-- A type with finitely many values, each known by a name. -/
class Named (α : Type) where
  kind : String
  values : List α
  name : α → String

structure UnknownName where
  kind : String
  text : String
  deriving DecidableEq, Repr

def UnknownName.message (u : UnknownName) : String := "unknown " ++ u.kind ++ ": " ++ u.text

namespace Named

variable {α : Type} [Named α]

/-- The value with exactly this name. -/
def ofName? (s : String) : Option α := (values (α := α)).find? fun a => name a = s

/-- The value whose name is the text without the blanks around it. -/
def read (s : String) : Except UnknownName α :=
  match ofName? (Text.trim s) with
  | some a => .ok a
  | none => .error ⟨kind α, Text.trim s⟩

end Named

inductive Role where
  | client
  | freelancer
  deriving DecidableEq, Repr, Inhabited

instance : Named Role where
  kind := "role"
  values := [.client, .freelancer]
  name
    | .client => "CLIENT"
    | .freelancer => "FREELANCER"

inductive JobStatus where
  | opened
  | inProgress
  | completed
  | cancelled
  | disputed
  deriving DecidableEq, Repr, Inhabited

instance : Named JobStatus where
  kind := "job status"
  values := [.opened, .inProgress, .completed, .cancelled, .disputed]
  name
    | .opened => "OPEN"
    | .inProgress => "IN_PROGRESS"
    | .completed => "COMPLETED"
    | .cancelled => "CANCELLED"
    | .disputed => "DISPUTED"

inductive ApplicationStatus where
  | pending
  | accepted
  | rejected
  deriving DecidableEq, Repr, Inhabited

instance : Named ApplicationStatus where
  kind := "application status"
  values := [.pending, .accepted, .rejected]
  name
    | .pending => "PENDING"
    | .accepted => "ACCEPTED"
    | .rejected => "REJECTED"

inductive MilestoneStatus where
  | pending
  | inProgress
  | submitted
  | approved
  | rejected
  deriving DecidableEq, Repr, Inhabited

instance : Named MilestoneStatus where
  kind := "milestone status"
  values := [.pending, .inProgress, .submitted, .approved, .rejected]
  name
    | .pending => "PENDING"
    | .inProgress => "IN_PROGRESS"
    | .submitted => "SUBMITTED"
    | .approved => "APPROVED"
    | .rejected => "REJECTED"

inductive Party where
  | client
  | freelancer
  deriving DecidableEq, Repr, Inhabited

def Party.other : Party → Party
  | .client => .freelancer
  | .freelancer => .client

/-- Whether an application may go from one state to another: a pending one is decided, and that is
all. -/
def ApplicationStatus.mayBecome : ApplicationStatus → ApplicationStatus → Bool
  | .pending, .accepted => true
  | .pending, .rejected => true
  | _, _ => false

def MilestoneStatus.mayBecome : MilestoneStatus → Party → MilestoneStatus → Bool
  | .pending, .freelancer, .inProgress => true
  | .inProgress, .freelancer, .submitted => true
  | .rejected, .freelancer, .inProgress => true
  | .submitted, .client, .approved => true
  | .submitted, .client, .rejected => true
  | _, _, _ => false

end GigBoard
