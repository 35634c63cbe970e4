import GigBoard.Failure
import GigBoard.Http.MediaType
import GigBoard.Json.Decoder
import GigBoard.Text.Blank
import GigBoard.Text.Form

/-!
# What a request brings with it

The bearer token, the identifier in the path, the parts of the query and the JSON in the body.
-/

set_option autoImplicit false

namespace GigBoard.Http

/-! ## The token -/

/-- The token of an authorization field: what follows the word `Bearer` and a space. -/
def bearer? (value : String) : Option (List Char) :=
  let cs := value.toList
  if isPlain cs && (cs.take 6).map Char.toLower = "bearer".toList && (cs.drop 6).head? = some ' ' then
    some ((cs.drop 7).dropWhile Text.isBlank)
  else none

def Request.bearer? (r : Request) : Option (List Char) :=
  (r.headers.first? "authorization").bind Http.bearer?

/-! ## The path -/

def pathId (segment : List Char) : Except Failure Uuid :=
  match (Text.Utf8.decode? (Text.Percent.decode (Text.Utf8.encode segment))).bind Uuid.ofChars? with
  | none => .error .invalidPath
  | some id => .ok id

/-! ## The query -/

/-- The value of a name that may stand in a query once. -/
def queryValue (pairs : List (String × String)) (name : String) :
    Except Failure (Option String) :=
  match pairs.filter (·.1 = name) with
  | [] => .ok none
  | [(_, value)] => .ok (some value)
  | _ => .error .invalidQuery

def queryId (pairs : List (String × String)) (name : String) : Except Failure (Option Uuid) := do
  match ← queryValue pairs name with
  | none => return none
  | some value =>
    match Uuid.ofString? value with
    | none => throw .invalidQuery
    | some id => return some id

def pageQuery (pairs : List (String × String)) : Except Failure PageQuery := do
  return ⟨← queryValue pairs "page", ← queryValue pairs "limit"⟩

/-! ## The body -/

def greatestBody : Nat := 1048576

def Request.decodeBody {α : Type} (r : Request) (decoder : Json.Decoder α) : Except Failure α :=
  if !((r.headers.first? "content-type").map MediaType.isJson).getD false then
    .error (.invalidBody .mediaType)
  else if greatestBody < r.body.length then .error (.invalidBody .tooLarge)
  else (decoder.leading r.body).mapError fun fault => .invalidBody (.ofJson fault)

end GigBoard.Http
