import GigBoard.Store

/-!
# Actions

What a request does: it looks at the circumstances, runs statements on the store, and ends with a
result or a failure.  A failure does not undo what was done before it, unless that was done in a
transaction.
-/

set_option autoImplicit false

namespace GigBoard

/-- The circumstances of a request: whether the store can be reached, the time, and the identifiers
made up for it. -/
structure Context where
  connected : Bool
  now : Timestamp
  freshId : Nat → Uuid

/-- What is done with a store under some circumstances. -/
def Action (α : Type) : Type := Context → Store → Except Failure α × Store

namespace Action

variable {α β : Type}

def done (a : α) : Action α := fun _ s => (.ok a, s)

def fail (f : Failure) : Action α := fun _ s => (.error f, s)

def andThen (act : Action α) (next : α → Action β) : Action β := fun ctx s =>
  match act ctx s with
  | (.error f, s') => (.error f, s')
  | (.ok a, s') => next a ctx s'

instance : Monad Action where
  pure := done
  bind := andThen

def context : Action Context := fun ctx s => (.ok ctx, s)

def ofExcept : Except Failure α → Action α
  | .error f => fail f
  | .ok a => done a

def expect (f : Failure) : Option α → Action α
  | none => fail f
  | some a => done a

def require (condition : Bool) (f : Failure) : Action Unit :=
  if condition then done () else fail f

def connect : Action Unit := fun ctx s =>
  if ctx.connected then (.ok (), s) else (.error (.store .unavailable), s)

def query (q : Store.Query α) : Action α := fun _ s =>
  match q s with
  | .error fault => (.error (.store fault), s)
  | .ok a => (.ok a, s)

/-- Runs a statement that writes, with a failure of its own for some faults of the store. -/
def change (c : Store.Change α) (explain : StoreFault → Failure) : Action α := fun _ s =>
  match c s with
  | .error fault => (.error (explain fault), s)
  | .ok (a, s') => (.ok a, s')

/-- Does all of an action or, if it fails, nothing of it. -/
def transaction (act : Action α) : Action α := fun ctx s =>
  match act ctx s with
  | (.error f, _) => (.error f, s)
  | (.ok a, s') => (.ok a, s')

end Action

/-- The failure for a duplicate row, and for any other fault the usual one. -/
def Failure.onDuplicate (f : Failure) : StoreFault → Failure
  | .duplicate => f
  | fault => .store fault

def Failure.onMissingReference (f : Failure) : StoreFault → Failure
  | .missingReference => f
  | fault => .store fault

end GigBoard
