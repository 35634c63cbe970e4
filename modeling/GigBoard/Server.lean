import GigBoard.Http.Cors
import GigBoard.Http.Resource

/-!
# The server

A request is answered in three steps: its path names a resource, the resource and the method make a
call of it, and the call is performed on the store.  Paths that name nothing are answered only to
known callers, and parts of the service are closed to others altogether.
-/

set_option autoImplicit false

namespace GigBoard

open Http (Request Response Resource)

structure Server where
  tokens : Token.Service
  origins : Http.Origins

namespace Server

def identify (server : Server) (now : Timestamp) (r : Request) : Except Failure Token.Identity :=
  match r.bearer? with
  | none => .error .unauthorized
  | some token =>
    match server.tokens.verify now token with
    | .error _ => .error .unauthorized
    | .ok claims => .ok claims.identity

/-- An answer together with the methods of its resource, where they are told. -/
structure Outcome where
  answer : Answer
  allow : Option String

def Outcome.ofFailure (f : Failure) : Outcome := ⟨.ofProblem f.problem, none⟩

def perform (call : Call) (ctx : Context) (store : Store) : Outcome × Store :=
  match call.perform ctx store with
  | (.error f, store') => (.ofFailure f, store')
  | (.ok answer, store') => (⟨answer, none⟩, store')

/-- The call that a request for a resource makes; none if the resource does not know the method. -/
def callFor? (server : Server) (now : Timestamp) (r : Request) (resource : Resource) :
    Option (Except Failure Call) :=
  (Resource.Verb.ofMethod? r.method).bind
    (resource.callFor? r (server.identify now r))

def refuseMethod (server : Server) (now : Timestamp) (r : Request) (resource : Resource) : Outcome :=
  match resource.isGuarded, server.identify now r with
  | true, .error f => { Outcome.ofFailure f with allow := some resource.allow }
  | _, _ => ⟨⟨405, none⟩, some resource.allow⟩

def serve (server : Server) (ctx : Context) (r : Request) (store : Store) : Outcome × Store :=
  match Resource.ofPath? r.path with
  | none =>
    match server.identify ctx.now r with
    | .error f => (.ofFailure f, store)
    | .ok _ => (⟨⟨404, none⟩, none⟩, store)
  | some resource =>
    match server.callFor? ctx.now r resource with
    | none => (server.refuseMethod ctx.now r resource, store)
    | some (.error f) => (.ofFailure f, store)
    | some (.ok call) => perform call ctx store

def allowHeader (allow : Option String) : Http.Headers :=
  match allow with
  | none => []
  | some methods => [("allow", methods)]

def typeHeader (body : Option Json) : Http.Headers :=
  match body with
  | none => []
  | some _ => [("content-type", "application/json")]

/-- The response to a question in advance. -/
def preflight (server : Server) (r : Request) : Response where
  status := 200
  headers :=
    server.origins.preflightHeaders r.headers ++
      allowHeader ((Resource.ofPath? r.path).map Resource.allow)
  body := none

/-- The response to a request, and the store after it.  The answer to a question for the header
fields alone has no body. -/
def handle (server : Server) (ctx : Context) (r : Request) (store : Store) : Response × Store :=
  if r.method = .options then (server.preflight r, store)
  else
    let (outcome, store') := server.serve ctx r store
    let answer := outcome.answer
    ({ status := answer.status
       headers :=
        typeHeader answer.body ++ allowHeader outcome.allow ++ server.origins.headers r.headers
       body := if r.method = .head then none else answer.body }, store')

end Server

end GigBoard
