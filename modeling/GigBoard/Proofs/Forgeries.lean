import GigBoard.Proofs.Authentication
import GigBoard.Proofs.Members
import GigBoard.Proofs.Tokens
import Mathlib.Algebra.Ring.Int.Defs

/-!
# No forgeries

A token that is accepted was signed with the secret of the service.  It has three parts and no other
form: each part is the one text of its octets, the header names the one algorithm that is used, and
the claims are stated under their names.
-/

set_option autoImplicit false

namespace GigBoard.Token

open Json (octet skipSpace)
open Json.Decoder (Meets States Spells WrittenBy)
open Text (Base64Url.encode Base64Url.decode?)

variable {c : Claims} {bs rest : List UInt8}

/-! ## Claims and their names -/

theorem integerOfNumber_le {range : Text.IntegerRange} {number : Json.Number} {n : Int}
    (read : Json.Decoder.integerOfNumber range number = some n) :
    range.low ≤ n ∧ n ≤ range.high := by
  cases number with
  | natural m =>
      simp only [Json.Decoder.integerOfNumber, Option.ite_none_right_eq_some, Option.some.injEq,
        Text.IntegerRange.contains, Bool.and_eq_true, decide_eq_true_eq] at read
      omega
  | negative m =>
      simp only [Json.Decoder.integerOfNumber, Option.ite_none_right_eq_some, Option.some.injEq,
        Text.IntegerRange.contains, Bool.and_eq_true, decide_eq_true_eq] at read
      omega
  | real x => cases read

namespace Claims

def Draft.empty : Draft := ⟨none, none, none, none, none, none, none⟩

/-- Inside of an object each claim is stated under its name. -/
structure StatedIn (inside : List UInt8) (c : Claims) : Prop where
  subject : States known .empty inside "sub" Json.Decoder.uuid c.subject
  wallet : States known .empty inside "wallet" Json.Decoder.text c.wallet
  role : States known .empty inside "role" Json.Decoder.text c.role
  issuer : States known .empty inside "iss" Json.Decoder.text c.issuer
  audience : States known .empty inside "aud" Json.Decoder.text c.audience
  issuedAt : States known .empty inside "iat" seconds c.issuedAt
  expiresAt : States known .empty inside "exp" seconds c.expiresAt

theorem finish?_eq_some {d : Draft} (finished : d.finish? = some c) :
    d.subject = some c.subject ∧ d.wallet = some c.wallet ∧ d.role = some c.role ∧
      d.issuer = some c.issuer ∧ d.audience = some c.audience ∧ d.issuedAt = some c.issuedAt ∧
        d.expiresAt = some c.expiresAt := by
  simp only [Draft.finish?, Option.pure_def, Option.bind_eq_bind, Option.bind_eq_some_iff,
    Option.some.injEq] at finished
  obtain ⟨_, subject, _, wallet, _, role, _, issuer, _, audience, _, issuedAt, _, expiresAt, rfl⟩ :=
    finished
  exact ⟨subject, wallet, role, issuer, audience, issuedAt, expiresAt⟩

theorem seconds_lt {n : Nat} (read : seconds bs = .ok (n, rest)) : n < 2 ^ 64 := by
  obtain ⟨i, whole, made⟩ := Json.Decoder.of_refine_ok read
  obtain ⟨number, _, isWhole⟩ := Json.Decoder.of_refine_ok whole
  have bounds := integerOfNumber_le isWhole
  simp only [Option.some.injEq] at made bounds
  omega

/-- Every field of a draft is written by the member of its name. -/
theorem writtenBy :
    WrittenBy known Draft.subject "sub" Json.Decoder.uuid ∧
      WrittenBy known Draft.wallet "wallet" Json.Decoder.text ∧
      WrittenBy known Draft.role "role" Json.Decoder.text ∧
      WrittenBy known Draft.issuer "iss" Json.Decoder.text ∧
      WrittenBy known Draft.audience "aud" Json.Decoder.text ∧
      WrittenBy known Draft.issuedAt "iat" seconds ∧
      WrittenBy known Draft.expiresAt "exp" seconds := by
  refine ⟨?_, ?_, ?_, ?_, ?_, ?_, ?_⟩ <;>
    repeat first
      | exact .nil
      | refine .own (fun _ _ => rfl) ?_
      | refine .other (fun _ _ => rfl) ?_

/-- Claims are read from an object that states them. -/
theorem statedIn_of_decoder (read : decoder bs = .ok (c, rest)) :
    ∃ inside, skipSpace bs = 0x7b :: inside ∧ c.StatedIn inside := by
  simp only [decoder] at read
  split at read
  · cases read
  rename_i b inside skipped
  split at read
  · rename_i isBrace
    obtain ⟨d, members, finished⟩ := Json.Decoder.of_refine_ok read
    obtain ⟨subject, wallet, role, issuer, audience, issuedAt, expiresAt⟩ :=
      finish?_eq_some finished
    obtain ⟨bySub, byWallet, byRole, byIss, byAud, byIat, byExp⟩ := writtenBy
    exact ⟨inside, isBrace ▸ skipped,
      Json.Decoder.states_of_members bySub rfl members subject,
      Json.Decoder.states_of_members byWallet rfl members wallet,
      Json.Decoder.states_of_members byRole rfl members role,
      Json.Decoder.states_of_members byIss rfl members issuer,
      Json.Decoder.states_of_members byAud rfl members audience,
      Json.Decoder.states_of_members byIat rfl members issuedAt,
      Json.Decoder.states_of_members byExp rfl members expiresAt⟩
  · cases read

/-- The times among claims that were stated are numbers of 64 bits. -/
theorem StatedIn.fit {inside : List UInt8} (stated : c.StatedIn inside) : c.Fit := by
  obtain ⟨_, _, _, issuedAt⟩ := stated.issuedAt
  obtain ⟨_, _, _, expiresAt⟩ := stated.expiresAt
  exact ⟨seconds_lt issuedAt, seconds_lt expiresAt⟩

end Claims

/-! ## Headers and their algorithm -/

theorem Algorithm.eq_of_ofName? {s : String} (named : Algorithm.ofName? s = some .hs256) :
    s = "HS256" := by
  obtain ⟨⟨name, algorithm⟩, found, isHs256⟩ := Option.map_eq_some_iff.mp named
  have listed := List.mem_of_find?_eq_some found
  have isName : name = s := by simpa using List.find?_some found
  simp only at isHs256
  subst isHs256 isName
  simpa using listed

namespace Header

variable {header : List UInt8} {name name' : String} {algorithm : Algorithm}

/-- A header names its algorithm: as the member `alg` of an object, or as the second element of an
array. -/
inductive Names (header : List UInt8) (name : String) : Prop where
  | member {inside value : List UInt8} (object : skipSpace header = 0x7b :: inside)
      (met : Meets known true none inside "alg" value) (spelled : Spells value name)
  | second {inside type behind value : List UInt8} {ignored : Option String}
      (array : skipSpace header = octet '[' :: inside)
      (first : Json.nextElement true inside = .ok (true, type))
      (passed : Json.Decoder.text.nullable type = .ok (ignored, behind))
      (next : Json.nextElement false behind = .ok (true, value)) (spelled : Spells value name)

theorem writtenBy : WrittenBy known id "alg" (Json.Decoder.variant Algorithm.ofName?) := by
  repeat first
    | exact .nil
    | refine .own (fun _ _ => rfl) ?_
    | refine .other (fun _ _ => rfl) ?_

theorem unused_read {α : Type} {decoder : Json.Decoder α} {found found' : Option Algorithm}
    {value : List UInt8} (read : (unused name decoder).read found value = .ok (found', rest)) :
    found' = found := by
  obtain ⟨_, _, same⟩ := Json.Decoder.of_read read
  exact same

theorem names_of_positions {inside : List UInt8} {found : Option Algorithm}
    (array : skipSpace header = octet '[' :: inside)
    (read : Json.Decoder.positions known true none inside = .ok (found, rest)) :
    ∃ name, Names header name ∧ Algorithm.ofName? name = found := by
  obtain ⟨type, _, behind, first, readType, read⟩ := Json.Decoder.positions_cases rfl read
  obtain ⟨value, _, _, next, readName, read⟩ := Json.Decoder.positions_cases rfl read
  obtain ⟨ignored, passed, rfl⟩ := Json.Decoder.of_read readType
  obtain ⟨algorithm, decoded, rfl⟩ := Json.Decoder.of_read readName
  obtain ⟨name, spelled, isName⟩ := Json.Decoder.spells_of_variant decoded
  -- The other elements of the array are not used.
  have kept : found = some algorithm := by
    refine Json.Decoder.positions_unwritten id ?_ ?_ read
    · simp [unused, Json.Decoder.Member.of]
    · intro member later
      simp only [List.mem_cons, List.not_mem_nil, or_false] at later
      rcases later with rfl | rfl | rfl | rfl | rfl | rfl | rfl | rfl <;>
        exact fun _ _ _ _ => unused_read
  exact ⟨name, .second array first passed next spelled, isName.trans kept.symm⟩

/-- The algorithm of a header that is read is the one that it names. -/
theorem names_of_decoder (read : decoder header = .ok (algorithm, rest)) :
    ∃ name, Names header name ∧ Algorithm.ofName? name = some algorithm := by
  obtain ⟨found, record, rfl⟩ := Json.Decoder.of_refine_ok read
  rcases Json.Decoder.record_cases record with
    ⟨inside, bound, object, members⟩ | ⟨inside, array, positions⟩
  · obtain ⟨value, behind, met, decoded⟩ :=
      Json.Decoder.states_of_members writtenBy rfl members rfl
    obtain ⟨name, spelled, isName⟩ := Json.Decoder.spells_of_variant decoded
    exact ⟨name, .member object met spelled, isName⟩
  · exact names_of_positions array positions

theorem object_ne_array {inside inside' : List UInt8} (object : skipSpace header = 0x7b :: inside) :
    skipSpace header ≠ octet '[' :: inside' := by
  have apart : (0x7b : UInt8) ≠ octet '[' := by decide
  rw [object]
  exact fun same => apart (List.cons.inj same).1

/-- A header that is read names one algorithm. -/
theorem Names.unique (names : Names header name) (names' : Names header name')
    (read : decoder header = .ok (algorithm, rest)) : name' = name := by
  have isKnown : ∃ m ∈ known, m.name = "alg" := ⟨known[1], by simp [known], rfl⟩
  obtain ⟨found, record, _⟩ := Json.Decoder.of_refine_ok read
  cases names with
  | member object met spelled =>
      cases names' with
      | member object' met' spelled' =>
          rw [object] at object'
          cases object'
          rcases Json.Decoder.record_cases record with
            ⟨inside, bound, object', members⟩ | ⟨inside, array, _⟩
          · rw [object] at object'
            cases object'
            obtain rfl := met.unique met' isKnown members
            exact spelled.unique spelled'
          · exact absurd array (object_ne_array object)
      | second array => exact absurd array (object_ne_array object)
  | second array first passed next spelled =>
      cases names' with
      | member object => exact absurd array (object_ne_array object)
      | second array' first' passed' next' spelled' =>
          rw [array] at array'
          cases array'
          rw [first] at first'
          cases first'
          rw [passed] at passed'
          cases passed'
          rw [next] at next'
          cases next'
          exact spelled.unique spelled'

end Header

/-! ## Accepted tokens -/

theorem decodePart_ok {α : Type} {decoder : Json.Decoder α} {part : List Char} {a : α}
    (read : decodePart decoder part = .ok a) :
    ∃ octets, part = Text.Base64Url.encode octets ∧ decoder.whole octets = .ok a := by
  simp only [decodePart] at read
  split at read
  · cases read
  · rename_i octets decoded
    refine ⟨octets, Text.Base64Url.eq_encode_of_decode? decoded, ?_⟩
    cases whole : decoder.whole octets with
    | error fault =>
        rw [whole] at read
        cases read
    | ok a' =>
        rw [whole] at read
        cases read
        rfl

namespace Service

variable {service : Service} {now : Timestamp} {token : List Char} {c' : Claims}

theorem checkClaims_eq_ok_iff : service.checkClaims now c = .ok c' ↔
    c' = c ∧ wrapped now.seconds ≤ c.expiresAt + leeway ∧ c.issuer = service.issuer ∧
      c.audience = service.audience := by
  simp only [checkClaims]
  split
  · simp
    omega
  split
  · simp_all
  split
  · simp_all
  · simp_all [eq_comm]

/-- What an accepted token is made of. -/
theorem verify_parts (accepted : service.verify now token = .ok c) :
    ∃ header body, token = Text.Base64Url.encode header ++ '.' :: Text.Base64Url.encode body ++
        '.' :: service.signature
          (Text.Base64Url.encode header ++ '.' :: Text.Base64Url.encode body) ∧
      Header.decoder.whole header = .ok .hs256 ∧ Claims.decoder.whole body = .ok c ∧
        service.checkClaims now c = .ok c := by
  simp only [verify] at accepted
  split at accepted
  · cases accepted
  rename_i message signature outer
  split at accepted
  · cases accepted
  rename_i first second inner
  split at accepted
  · cases accepted
  rename_i algorithm readHeader
  split at accepted
  · cases accepted
  rename_i isHs256
  split at accepted
  · cases accepted
  rename_i isSigned
  split at accepted
  · cases accepted
  rename_i c' readBody
  obtain ⟨header, rfl, wholeHeader⟩ := decodePart_ok readHeader
  obtain ⟨body, rfl, wholeBody⟩ := decodePart_ok readBody
  obtain ⟨rfl, _⟩ := checkClaims_eq_ok_iff.mp accepted
  rw [not_not] at isHs256 isSigned
  subst isHs256
  have joined := Text.eq_append_of_cutLast inner
  refine ⟨header, body, ?_, wholeHeader, wholeBody, accepted⟩
  rw [Text.eq_append_of_cutLast outer, isSigned, joined]

/-- A token of three parts: a header that names the one algorithm, claims for this service that have
not expired by more than a minute, and the keyed hash of the two under the secret. -/
structure Genuine (service : Service) (now : Timestamp) (token : List Char)
    (header body : List UInt8) (c : Claims) : Prop where
  parts : Text.splitAt '.' token = [Text.Base64Url.encode header, Text.Base64Url.encode body,
    Text.Base64Url.encode (Digest.Hmac.code (Text.Utf8.ofString service.secret)
      (Text.Utf8.encode (Text.Base64Url.encode header ++ '.' :: Text.Base64Url.encode body)))]
  algorithm : Header.decoder.whole header = .ok .hs256
  named : Header.Names header "HS256"
  claims : Claims.decoder.whole body = .ok c
  stated : ∃ inside, skipSpace body = 0x7b :: inside ∧ c.StatedIn inside
  issuedAt : c.issuedAt < 2 ^ 64
  expiresAt : c.expiresAt < 2 ^ 64
  issuer : c.issuer = service.issuer
  audience : c.audience = service.audience
  unexpired : now.seconds < 2 ^ 64 → now.seconds ≤ c.expiresAt + 60

theorem genuine_of_verify (accepted : service.verify now token = .ok c) :
    ∃ header body, service.Genuine now token header body c := by
  obtain ⟨header, body, rfl, readHeader, readBody, checked⟩ := verify_parts accepted
  obtain ⟨_, unexpired, issuer, audience⟩ := checkClaims_eq_ok_iff.mp checked
  obtain ⟨_, decodedHeader⟩ := Json.Decoder.of_whole_ok readHeader
  obtain ⟨_, decodedBody⟩ := Json.Decoder.of_whole_ok readBody
  obtain ⟨name, names, isHs256⟩ := Header.names_of_decoder decodedHeader
  obtain ⟨inside, object, stated⟩ := Claims.statedIn_of_decoder decodedBody
  obtain rfl := Algorithm.eq_of_ofName? isHs256
  refine ⟨header, body, ?_, readHeader, names, readBody, ⟨inside, object, stated⟩,
    stated.fit.issuedAt, stated.fit.expiresAt, issuer, audience, ?_⟩
  · have free : ∀ segment ∈ [Text.Base64Url.encode body, service.signature
        (Text.Base64Url.encode header ++ '.' :: Text.Base64Url.encode body)], '.' ∉ segment := by
      simp only [List.forall_mem_cons]
      exact ⟨point_not_mem _, point_not_mem _, by simp⟩
    have cut := Text.splitAt_append_segments free (Text.Base64Url.encode header) (point_not_mem _)
    simpa [signature] using cut
  · intro counted
    rw [wrapped, leeway] at unexpired
    omega

/-- Only tokens of the service pass.  Whatever is accepted has three parts, names the one algorithm, is
signed with the secret, and makes claims that hold for the service.  With any other signature, or under
a header that names any other algorithm, nothing passes, whatever it claims. -/
theorem only_genuine_tokens_pass (service : Service) (now : Timestamp) (token : List Char) :
    (∀ c, service.verify now token = .ok c →
      ∃ header body, service.Genuine now token header body c) ∧
    (∀ h p s, Text.splitAt '.' token = [h, p, s] →
      (s ≠ service.signature (h ++ '.' :: p) ∨ ∃ header name,
        Text.Base64Url.decode? h = some header ∧ Header.Names header name ∧ name ≠ "HS256") →
          ∀ c, service.verify now token ≠ .ok c) := by
  refine ⟨fun c accepted => genuine_of_verify accepted, ?_⟩
  intro h p s parts foreign c accepted
  obtain ⟨header, body, genuine⟩ := genuine_of_verify accepted
  rw [genuine.parts] at parts
  obtain ⟨rfl, rfl, rfl⟩ : h = _ ∧ p = _ ∧ s = _ := by simpa [eq_comm] using parts
  rcases foreign with unsigned | ⟨header', name, decoded, names, other⟩
  · exact unsigned rfl
  · rw [Text.Base64Url.decode?_encode] at decoded
    cases decoded
    obtain ⟨_, read⟩ := Json.Decoder.of_whole_ok genuine.algorithm
    exact other (genuine.named.unique names read)

def serviceFor (seconds : Int) : Service :=
  ⟨"secret", "marketplace", "marketplace-clients", seconds⟩

def oddClaims : Claims :=
  ⟨.ofNat 1, "0x.\"A\\é\x00", "", "marketplace", "marketplace-clients", 0, 3600⟩

def unsignedToken : List Char := "eyJhbGciOiJub25lIn0.e30.".toList

def unsignedHeader : List UInt8 := Text.Utf8.ofString "\x7b\"alg\":\"none\"\x7d"

theorem unsignedHeader_names : Header.Names unsignedHeader "none" := by
  have object : skipSpace unsignedHeader =
      0x7b :: Text.Utf8.ofString "\"alg\":\"none\"\x7d" := by decide +kernel
  have named : Json.nextMember true (Text.Utf8.ofString "\"alg\":\"none\"\x7d") =
      .ok (some "alg", Text.Utf8.ofString ":\"none\"\x7d") := by decide +kernel
  have colon : Json.afterColon (Text.Utf8.ofString ":\"none\"\x7d") =
      .ok (Text.Utf8.ofString "\"none\"\x7d") := by decide +kernel
  have spelled : Json.Decoder.text (Text.Utf8.ofString "\"none\"\x7d") =
      .ok ("none", Text.Utf8.ofString "\x7d") := by decide +kernel
  exact .member object (.here named colon) ⟨_, _, .inl (by decide +kernel), spelled⟩

theorem only_genuine_tokens_pass_odd :
    (serviceFor 3600).verify ⟨0⟩ ((serviceFor 3600).sign oddClaims) = .ok oddClaims ∧
      (∃ header body, (serviceFor 3600).Genuine ⟨0⟩ ((serviceFor 3600).sign oddClaims) header body
        oddClaims) ∧
      Text.splitAt '.' unsignedToken = ["eyJhbGciOiJub25lIn0".toList, "e30".toList, []] ∧
      ∀ c, (serviceFor 3600).verify ⟨0⟩ unsignedToken ≠ .ok c := by
  have fit : oddClaims.Fit := ⟨by decide, by decide⟩
  have accepted : (serviceFor 3600).verify ⟨0⟩ ((serviceFor 3600).sign oddClaims) =
      .ok oddClaims := by
    rw [(serviceFor 3600).verify_sign ⟨0⟩ fit]
    rfl
  have parts : Text.splitAt '.' unsignedToken =
      ["eyJhbGciOiJub25lIn0".toList, "e30".toList, []] := by decide +kernel
  have decoded : Text.Base64Url.decode? "eyJhbGciOiJub25lIn0".toList = some unsignedHeader := by
    decide +kernel
  obtain ⟨genuine, _⟩ := only_genuine_tokens_pass (serviceFor 3600) ⟨0⟩
    ((serviceFor 3600).sign oddClaims)
  obtain ⟨_, refused⟩ := only_genuine_tokens_pass (serviceFor 3600) ⟨0⟩ unsignedToken
  exact ⟨accepted, genuine oddClaims accepted, parts, refused _ _ _ parts
    (.inr ⟨unsignedHeader, "none", decoded, unsignedHeader_names, by decide⟩)⟩

end Service

end GigBoard.Token
