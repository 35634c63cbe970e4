import GigBoard.Json

/-!
# Problems

What a caller is told when a request fails: a status and a sentence.  The cause of an internal problem
is never told.
-/

set_option autoImplicit false

namespace GigBoard

inductive ProblemKind where
  | badRequest
  | unauthorized
  | forbidden
  | notFound
  | conflict
  | internal
  deriving DecidableEq, Repr

def ProblemKind.status : ProblemKind → Nat
  | .badRequest => 400
  | .unauthorized => 401
  | .forbidden => 403
  | .notFound => 404
  | .conflict => 409
  | .internal => 500

structure Problem where
  kind : ProblemKind
  message : String
  deriving DecidableEq, Repr

namespace Problem

def unauthorized : Problem := ⟨.unauthorized, "unauthorized"⟩

def notFound : Problem := ⟨.notFound, "resource not found"⟩

def internal : Problem := ⟨.internal, "internal server error"⟩

def status (p : Problem) : Nat := p.kind.status

def body (p : Problem) : Json := .object [("error", .string p.message)]

end Problem

end GigBoard
