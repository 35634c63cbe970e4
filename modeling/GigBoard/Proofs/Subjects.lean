import GigBoard.Proofs.Authentication
import GigBoard.Proofs.Requests
import GigBoard.Proofs.Tokens

/-!
# Only the subject of a token counts

A token says more of its bearer than who it is, and what it says may be out of date.  Two requests that
differ in their tokens only, both accepted and of one subject, are answered alike and have the same
effect; the wallet and the role of a token are seen only by who asks for the identity it stands for.
-/

set_option autoImplicit false

namespace GigBoard

open Http (Headers Request Resource Response)

namespace Http

/-- Only one list of segments names the identity. -/
theorem Resource.segments_of_identity {segments : List (List Char)}
    (named : Resource.ofSegments segments = some .identity) :
    segments = ["auth".toList, "me".toList] := by
  unfold ofSegments ofUserSegments ofJobSegments ofApplicationSegments ofMilestoneSegments
    ofMessageSegments at named
  split at named
  · cases named
  · split_ifs at named with users jobs applications milestones messages reviews alone auth me health
    -- No other area has anything that is the identity.
    all_goals
      repeat' split at named
      all_goals cases named
    rw [auth, me]

theorem path_of_identity {path : List Char} (named : Resource.ofPath? path = some .identity) :
    path = pathOf ["auth".toList, "me".toList] := by
  obtain ⟨segments, rfl, below⟩ := path_of_ofPath? named
  rw [Resource.segments_of_identity below]

theorem Headers.first?_of_filter {hs hs' : Headers} {name other : String} (distinct : name ≠ other)
    (same : hs.filter (fun h => decide (h.1 ≠ other)) = hs'.filter fun h => decide (h.1 ≠ other)) :
    hs.first? name = hs'.first? name := by
  have kept (hs : Headers) :
      hs.first? name = first? (hs.filter fun h => decide (h.1 ≠ other)) name := by
    rw [first?, first?, List.find?_filter]
    congr 2
    funext h
    by_cases named : h.1 = name
    · simp [named, distinct]
    · simp [named]
  rw [kept hs, kept hs', same]

namespace Request

/-- Two requests are the same but for their authorization fields. -/
structure SameButToken (r r' : Request) : Prop where
  method : r.method = r'.method
  target : r.target = r'.target
  headers : r.headers.filter (fun h => decide (h.1 ≠ "authorization")) =
    r'.headers.filter fun h => decide (h.1 ≠ "authorization")
  body : r.body = r'.body

namespace SameButToken

variable {r r' : Request}

theorem path (same : SameButToken r r') : r.path = r'.path := by
  rw [Request.path, Request.path, resource, resource, same.target]

theorem query (same : SameButToken r r') : r.query = r'.query := by
  rw [Request.query, Request.query, resource, resource, same.target]

theorem first? (same : SameButToken r r') (name : String) (other : name ≠ "authorization") :
    r.headers.first? name = r'.headers.first? name :=
  Headers.first?_of_filter other same.headers

theorem decodeBody {α : Type} (same : SameButToken r r') (decoder : Json.Decoder α) :
    r.decodeBody decoder = r'.decodeBody decoder := by
  rw [Request.decodeBody, Request.decodeBody, same.first? _ (by decide), same.body]

/-- Apart from the question for the identity, a call carries nothing of the caller but who it is. -/
theorem callFor?_eq (same : SameButToken r r') {who who' : Token.Identity}
    (subject : who.userId = who'.userId) {resource : Resource} {verb : Resource.Verb}
    (other : resource ≠ .identity ∨ verb ≠ .read) :
    resource.callFor? r (.ok who) verb = resource.callFor? r' (.ok who') verb := by
  have body {α : Type} (decoder : Json.Decoder α) := same.decodeBody decoder
  cases resource with
  | identity =>
      cases verb with
      | read => exact absurd rfl (other.resolve_left fun notIdentity => notIdentity rfl)
      | _ => rfl
  | _ => cases verb <;> simp only [Resource.callFor?, body, same.query, bind, Except.bind, subject]

theorem originHeaders (same : SameButToken r r') (origins : Origins) :
    origins.headers r.headers = origins.headers r'.headers := by
  rw [Origins.headers, Origins.headers, Origins.originHeader, Origins.originHeader,
    same.first? _ (by decide)]

theorem preflightHeaders (same : SameButToken r r') (origins : Origins) :
    origins.preflightHeaders r.headers = origins.preflightHeaders r'.headers := by
  have method := same.first? "access-control-request-method" (by decide)
  have fields := same.first? "access-control-request-headers" (by decide)
  simp only [Origins.preflightHeaders, Origins.echoed, same.originHeaders origins, method, fields]

end SameButToken

end Request

end Http

namespace Server

variable {server : Server} {ctx : Context} {r r' : Request} {who who' : Token.Identity}

theorem respond_eq (same : r.SameButToken r') (server : Server) (outcome : Outcome) :
    server.respond r outcome = server.respond r' outcome := by
  rw [respond, respond, same.method, same.originHeaders]

theorem preflight_eq (same : r.SameButToken r') (server : Server) :
    server.preflight r = server.preflight r' := by
  rw [preflight, preflight, same.path, same.preflightHeaders]

theorem refuseMethod_of_known {now : Timestamp} (known : server.identify now r = .ok who)
    (resource : Resource) :
    server.refuseMethod now r resource = ⟨⟨405, none⟩, some resource.allow⟩ := by
  rw [refuseMethod, known]
  cases resource.isGuarded <;> rfl

theorem serve_of_same_subject (same : r.SameButToken r') (subject : who.userId = who'.userId)
    (known : server.identify ctx.now r = .ok who) (known' : server.identify ctx.now r' = .ok who')
    (other : Resource.ofPath? r.path ≠ some .identity ∨
      Resource.Verb.ofMethod? r.method ≠ some .read) (s : Store) :
    server.serve ctx r s = server.serve ctx r' s := by
  have path := same.path
  unfold serve
  rw [← path]
  cases isPath : Resource.ofPath? r.path with
  | none => simp only [known, known']
  | some resource =>
      have calls : server.callFor? ctx.now r resource = server.callFor? ctx.now r' resource := by
        unfold callFor?
        rw [known, known', ← same.method]
        cases isVerb : Resource.Verb.ofMethod? r.method with
        | none => rfl
        | some verb =>
            apply same.callFor?_eq subject
            rw [isPath, isVerb] at other
            exact other.imp (fun apart is => apart (congrArg some is))
              (fun apart is => apart (congrArg some is))
      simp only [calls, refuseMethod_of_known known, refuseMethod_of_known known']

/-- Who asks for the header fields of the answer alone is told nothing of the identity. -/
theorem handle_of_head {q : Request} (path : Resource.ofPath? q.path = some .identity)
    (isHead : q.method = .head) (known : server.identify ctx.now q = .ok who) (s : Store) :
    server.handle ctx q s =
      (⟨200, typeHeader (some .null) ++ server.origins.headers q.headers, none⟩, s) := by
  have served : server.serve ctx q s = (⟨.ok who.toJson, none⟩, s) := by
    simp only [serve, path, callFor?, isHead, known]
    rfl
  rw [handle_of_serve (by simp [isHead]) served, respond, isHead]
  rfl

/-- Two requests that differ in their tokens only, both of them accepted and of the same subject, have
the same answer and the same effect on every store, whatever else the tokens say.  Only the question
for one's identity may be answered differently. -/
theorem only_the_subject_counts (server : Server) (ctx : Context) (r r' : Request)
    (same : r.SameButToken r') (token token' : List Char) (claims claims' : Token.Claims)
    (sent : r.bearer? = some token) (sent' : r'.bearer? = some token')
    (accepted : server.tokens.verify ctx.now token = .ok claims)
    (accepted' : server.tokens.verify ctx.now token' = .ok claims')
    (subject : claims.subject = claims'.subject)
    (other : ¬(r.method = .get ∧ r.path = Http.pathOf ["auth".toList, "me".toList])) (s : Store) :
    server.handle ctx r s = server.handle ctx r' s := by
  have known := identify_of_accepted sent accepted
  have known' := identify_of_accepted sent' accepted'
  by_cases options : r.method = .options
  · rw [handle, handle, if_pos options, if_pos (same.method ▸ options), preflight_eq same]
  by_cases identity : Resource.ofPath? r.path = some .identity ∧
      Resource.Verb.ofMethod? r.method = some .read
  · obtain ⟨path, read⟩ := identity
    have isHead : r.method = .head := by
      rcases method_of_read read with isGet | isHead
      · exact absurd ⟨isGet, Http.path_of_identity path⟩ other
      · exact isHead
    rw [handle_of_head path isHead known,
      handle_of_head (same.path ▸ path) (same.method ▸ isHead) known', same.originHeaders]
  · have served := serve_of_same_subject same subject known known' (not_and_or.mp identity) s
    cases outcome : server.serve ctx r s
    rw [handle_of_serve options outcome,
      handle_of_serve (same.method ▸ options) (served ▸ outcome), respond_eq same]

def annClaims (wallet role : String) : Token.Claims :=
  ⟨ann.id, wallet, role, "issuer", "audience", 0, 3600⟩

def approval (wallet role : String) : Request where
  method := .put
  target := "/api/milestones/00000000-0000-0000-0000-000000000004/status"
  headers := [("content-type", "application/json"), ("authorization", "Bearer " ++
    String.ofList (plain.tokens.sign (annClaims wallet role)))]
  body := Text.Utf8.ofString "\x7b\"status\":\"APPROVED\"\x7d"

theorem bearer?_approval (wallet role : String) :
    (approval wallet role).bearer? = some (plain.tokens.sign (annClaims wallet role)) := by
  apply Request.bearer?_of_sign
  simp [approval, Headers.first?]

theorem verify_approval (wallet role : String) :
    plain.tokens.verify firstMoment.now (plain.tokens.sign (annClaims wallet role)) =
      .ok (annClaims wallet role) := by
  have fit : (annClaims wallet role).Fit := ⟨by simp [annClaims], by simp [annClaims]⟩
  rw [plain.tokens.verify_sign firstMoment.now fit]
  rfl

theorem only_the_subject_counts_site :
    (approval "0xa" "CLIENT").SameButToken (approval "0xOld" "FREELANCER") ∧
      plain.Recognises firstMoment.now (approval "0xa" "CLIENT") ∧
      plain.Recognises firstMoment.now (approval "0xOld" "FREELANCER") ∧
      plain.handle firstMoment (approval "0xa" "CLIENT") siteStore =
        plain.handle firstMoment (approval "0xOld" "FREELANCER") siteStore := by
  have same : (approval "0xa" "CLIENT").SameButToken (approval "0xOld" "FREELANCER") :=
    ⟨rfl, rfl, by decide, rfl⟩
  have sent := bearer?_approval
  have accepted := verify_approval
  have alike := only_the_subject_counts plain firstMoment (approval "0xa" "CLIENT")
    (approval "0xOld" "FREELANCER") same _ _ _ _ (sent _ _) (sent _ _) (accepted _ _) (accepted _ _)
    rfl (fun asked => nomatch asked.1) siteStore
  exact ⟨same, ⟨_, _, sent _ _, accepted _ _⟩, ⟨_, _, sent _ _, accepted _ _⟩, alike⟩

end Server

end GigBoard
