import GigBoard.Json
import GigBoard.Text.Split
import GigBoard.Text.Utf8

/-!
# Requests and responses

A request names a method and a target, carries header fields and a body of octets.  A response has a
status, header fields, and a JSON value or nothing as its body.
-/

set_option autoImplicit false

namespace GigBoard.Http

inductive Method where
  | get
  | head
  | post
  | put
  | delete
  | options
  | other
  deriving DecidableEq, Repr

/-- The method of a name; case matters. -/
def Method.ofName (s : String) : Method :=
  if s = "GET" then .get
  else if s = "HEAD" then .head
  else if s = "POST" then .post
  else if s = "PUT" then .put
  else if s = "DELETE" then .delete
  else if s = "OPTIONS" then .options
  else .other

/-- Header fields in their order, with names in lower case. -/
abbrev Headers := List (String × String)

namespace Headers

def first? (hs : Headers) (name : String) : Option String := (hs.find? (·.1 = name)).map (·.2)

def all (hs : Headers) (name : String) : List String :=
  (hs.filter (·.1 = name)).map (·.2)

end Headers

structure Request where
  method : Method
  target : String
  headers : Headers
  body : List UInt8

namespace Request

def resource (r : Request) : List Char := (Text.cutFirst '#' r.target.toList).1

def path (r : Request) : List Char := (Text.cutFirst '?' r.resource).1

/-- The query of the target; empty if there is none. -/
def query (r : Request) : String := String.ofList ((Text.cutFirst '?' r.resource).2.getD [])

end Request

structure Response where
  status : Nat
  headers : Headers
  body : Option Json

/-- Whether a text consists of visible ASCII characters, spaces and tabs. -/
def isPlain (cs : List Char) : Bool :=
  cs.all fun c => (0x20 ≤ c.toNat && c.toNat < 0x7F) || c.toNat = 9

/-- Whether a field can hold a text: none of its octets is a control character of ASCII but a tab.
Octets beyond ASCII are fine here, though `isPlain` refuses them where a field is read as text. -/
def isFieldValue (cs : List Char) : Bool :=
  (Text.Utf8.encode cs).all fun b => (0x20 ≤ b.toNat && b.toNat ≠ 0x7F) || b.toNat = 9

end GigBoard.Http
