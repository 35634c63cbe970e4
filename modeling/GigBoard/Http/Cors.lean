import GigBoard.Http.Message
import GigBoard.Text.Blank

/-!
# Requests from other origins

Browsers ask whether a page of some origin may use the service.  The service allows the origins of a
list, or every origin if no list is set up, and for an allowed origin every method and header field
that is asked for.
-/

set_option autoImplicit false

namespace GigBoard.Http

inductive Origins where
  | all
  | listed (origins : List String)
  deriving DecidableEq, Repr

namespace Origins

structure WildcardFault where
  deriving DecidableEq, Repr

def WildcardFault.message (_ : WildcardFault) : String :=
  "Wildcard origin (`*`) cannot be passed to `AllowOrigin::list`. Use `AllowOrigin::any()` instead"

/-- The entries of a text between commas, without blanks around them; empty ones and those that no
field can hold are left out. -/
def entries (text : String) : List String :=
  ((Text.splitAt ',' text.toList).map Text.trimmed |>.filter fun cs =>
    !cs.isEmpty && isFieldValue cs).map String.ofList

/-- The origins that a text allows, or all if there is none. -/
def ofText (text : Option String) : Except WildcardFault Origins :=
  match text with
  | none => .ok .all
  | some text => if (entries text).contains "*" then .error ⟨⟩ else .ok (.listed (entries text))

def allows (origins : Origins) (origin : String) : Bool :=
  match origins with
  | .all => true
  | .listed os => os.contains origin

def originHeader (origins : Origins) (hs : Headers) : Headers :=
  match hs.first? "origin" with
  | none => []
  | some origin =>
    if origins.allows origin then [("access-control-allow-origin", origin)] else []

def headers (origins : Origins) (hs : Headers) : Headers :=
  origins.originHeader hs ++
    [("access-control-allow-credentials", "true"),
      ("vary", "origin, access-control-request-method, access-control-request-headers")]

def echoed (hs : Headers) (source target : String) : Headers :=
  match hs.first? source with
  | none => []
  | some value => [(target, value)]

/-- The fields on the response to a question in advance. -/
def preflightHeaders (origins : Origins) (hs : Headers) : Headers :=
  origins.headers hs ++
    echoed hs "access-control-request-method" "access-control-allow-methods" ++
    echoed hs "access-control-request-headers" "access-control-allow-headers"

end Origins

end GigBoard.Http
