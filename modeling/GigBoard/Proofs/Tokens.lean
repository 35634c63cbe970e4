import GigBoard.Proofs.Cutting
import GigBoard.Proofs.Encodings
import GigBoard.Proofs.ReadBack
import GigBoard.Server

/-!
# Tokens that were signed here

What a token says is read back from it: its parts are cut where they were joined, each part is the text
of the octets that it was made of, and the claims are read member by member as they were written.  So a
token of the service is judged by its claims alone.
-/

set_option autoImplicit false

namespace GigBoard

open Text.Utf8 (encode encode_append encode_cons)

/-! ## Records -/

namespace Json

variable {σ α β : Type} {known : List (Decoder.Member σ)} {rest : List UInt8}

/-- Members fill a record one after the other: each is known, comes once, and is read whatever stands
behind it. -/
inductive Fills (known : List (Decoder.Member σ)) :
    List String → σ → List (String × Json) → σ → Prop where
  | nil {seen : List String} {record : σ} : Fills known seen record [] record
  | cons {seen : List String} {record next record' : σ} {name : String} {value : Json}
      {ms : List (String × Json)} {member : Decoder.Member σ}
      (found : known.find? (fun m => decide (m.name = name)) = some member) (new : name ∉ seen)
      (read : ∀ rest, EndsNumber rest →
        member.read record (encode value.chars ++ rest) = .ok (next, rest))
      (later : Fills known (name :: seen) next ms record') :
      Fills known seen record ((name, value) :: ms) record'

namespace Fills

variable {seen : List String} {record record' : σ} {ms : List (String × Json)}
  {bound : List UInt8}

theorem members_after (fills : Fills known seen record ms record')
    (enough : ms.length < bound.length) :
    Decoder.members known bound false seen record
      (encode (eachAfterComma (memberChars ms)) ++ 0x7d :: rest) = .ok (record', rest) := by
  induction fills generalizing bound with
  | nil =>
      obtain ⟨_, bound, rfl⟩ := List.exists_cons_of_length_pos enough
      change Decoder.members known _ false _ _ (0x7d :: rest) = _
      simp only [Decoder.members, nextMember_close]
  | @cons seen record next record' name value ms member found new read _ ih =>
      obtain ⟨_, bound, rfl⟩ := List.exists_cons_of_length_pos (Nat.zero_lt_of_lt enough)
      have written : encode (eachAfterComma (memberChars ((name, value) :: ms))) ++ 0x7d :: rest =
          octet ',' :: (encode (quoted name) ++ (octet ':' :: (encode value.chars ++
            (encode (eachAfterComma (memberChars ms)) ++ 0x7d :: rest)))) := by
        rw [memberChars, eachAfterComma, encode_cons, encode_append, encode_append, encode_cons]
        simp only [List.append_assoc]
        rfl
      have value := read _ (EndsNumber.separated (memberChars ms) (endsNumber_brace rest))
      rw [written]
      simp only [Decoder.members, nextMember_comma, found, if_neg new, afterColon_colon,
        Except.bind, value, ih (Nat.lt_of_succ_lt_succ enough)]

/-- The text between the braces is read into the record. -/
theorem members (fills : Fills known [] record ms record') (enough : ms.length < bound.length) :
    Decoder.members known bound true [] record
      (encode (commaSeparated (memberChars ms)) ++ 0x7d :: rest) = .ok (record', rest) := by
  obtain ⟨_, bound, rfl⟩ := List.exists_cons_of_length_pos (Nat.zero_lt_of_lt enough)
  cases fills with
  | nil =>
      change Decoder.members known _ true [] _ (0x7d :: rest) = _
      simp only [Decoder.members, nextMember_close]
  | @cons _ _ next _ name value ms member found new read later =>
      have written : encode (commaSeparated (memberChars ((name, value) :: ms))) ++ 0x7d :: rest =
          encode (quoted name) ++ (octet ':' :: (encode value.chars ++
            (encode (eachAfterComma (memberChars ms)) ++ 0x7d :: rest))) := by
        rw [memberChars, commaSeparated_cons, encode_append, encode_append, encode_cons]
        simp only [List.append_assoc]
        rfl
      have value := read _ (EndsNumber.separated (memberChars ms) (endsNumber_brace rest))
      rw [written]
      simp only [Decoder.members, nextMember_first, found, if_neg new, afterColon_colon,
        Except.bind, value, later.members_after (Nat.lt_of_succ_lt_succ enough)]

end Fills

namespace Decoder

variable {bs : List UInt8}

theorem read_of {name : String} {decoder : Decoder α} {put : σ → α → σ} {a : α}
    (read : decoder bs = .ok (a, rest)) (record : σ) :
    (Member.of name decoder put).read record bs = .ok (put record a, rest) := by
  simp only [Member.of, read]

theorem refine_ok {decoder : Decoder α} {make : α → Option β} {a : α} {b : β}
    (read : decoder bs = .ok (a, rest)) (made : make a = some b) :
    decoder.refine make bs = .ok (b, rest) := by
  simp only [refine, read, made]

theorem text_quoted (s : String) (rest : List UInt8) :
    text (encode (Json.string s).chars ++ rest) = .ok (s, rest) := by
  rw [chars, encode_quoted]
  exact scanString_quoted s rest

theorem uuid_quoted (id : Uuid) (rest : List UInt8) :
    uuid (encode (Json.string id.text).chars ++ rest) = .ok (id, rest) :=
  refine_ok (text_quoted id.text rest) id.ofString?_text

theorem number_natural {n : Nat} (fits : n < 2 ^ 64) (ends : EndsNumber rest) :
    number (encode (Json.integer n).chars ++ rest) = .ok (.natural n, rest) := by
  have scanned := scanNumber_toDigits fits ends
  obtain ⟨b, tail, written, digit, _⟩ := encode_toDigits n
  have whole : encode (Json.integer n).chars = encode (Nat.toDigits 10 n) := by
    simp only [chars]
    rfl
  rw [written, List.cons_append] at scanned
  rw [whole, written, List.cons_append]
  have notSign : b ≠ octet '-' := ne_of_isDigit digit (by decide)
  simp only [number, (begins_of_isDigit digit _).skipSpace, if_neg notSign, digit, if_true,
    scanned]

end Decoder

end Json

/-! ## Claims -/

namespace Token

open Json (EndsNumber Fills)

variable {c : Claims}

structure Claims.Fit (c : Claims) : Prop where
  issuedAt : c.issuedAt < 2 ^ 64
  expiresAt : c.expiresAt < 2 ^ 64

theorem seconds_natural {n : Nat} {rest : List UInt8} (fits : n < 2 ^ 64)
    (ends : EndsNumber rest) :
    Claims.seconds (Text.Utf8.encode (Json.integer n).chars ++ rest) = .ok (n, rest) := by
  refine Json.Decoder.refine_ok (a := (n : Int)) ?_ rfl
  refine Json.Decoder.refine_ok (Json.Decoder.number_natural fits ends) ?_
  have inside : (⟨0, 18446744073709551615⟩ : Text.IntegerRange).contains n = true := by
    simp only [Text.IntegerRange.contains, Bool.and_eq_true, decide_eq_true_eq]
    omega
  simp only [Json.Decoder.integerOfNumber, inside, if_true]

/-- The members of claims, in the order in which they are written, fill a draft of them. -/
theorem Claims.fills (fit : c.Fit) :
    Fills Claims.known [] ⟨none, none, none, none, none, none, none⟩
      [("sub", .string c.subject.text), ("wallet", .string c.wallet), ("role", .string c.role),
        ("iss", .string c.issuer), ("aud", .string c.audience), ("iat", .integer c.issuedAt),
        ("exp", .integer c.expiresAt)]
      ⟨some c.subject, some c.wallet, some c.role, some c.issuer, some c.audience,
        some c.issuedAt, some c.expiresAt⟩ := by
  have text (s : String) (rest : List UInt8) := Json.Decoder.text_quoted s rest
  refine .cons rfl (by decide) (fun rest _ =>
    Json.Decoder.read_of (Json.Decoder.uuid_quoted c.subject rest) _) ?_
  refine .cons rfl (by decide) (fun rest _ => Json.Decoder.read_of (text c.wallet rest) _) ?_
  refine .cons rfl (by decide) (fun rest _ => Json.Decoder.read_of (text c.role rest) _) ?_
  refine .cons rfl (by decide) (fun rest _ => Json.Decoder.read_of (text c.issuer rest) _) ?_
  refine .cons rfl (by decide) (fun rest _ => Json.Decoder.read_of (text c.audience rest) _) ?_
  refine .cons rfl (by decide) (fun _ ends =>
    Json.Decoder.read_of (seconds_natural fit.issuedAt ends) _) ?_
  refine .cons rfl (by decide) (fun _ ends =>
    Json.Decoder.read_of (seconds_natural fit.expiresAt ends) _) ?_
  exact .nil

theorem Claims.decoder_whole (fit : c.Fit) :
    Claims.decoder.whole (Text.Utf8.encode c.toJson.chars) = .ok c := by
  have enough := Json.length_lt_between
    (Json.memberChars [("sub", .string c.subject.text), ("wallet", .string c.wallet),
      ("role", .string c.role), ("iss", .string c.issuer), ("aud", .string c.audience),
      ("iat", .integer c.issuedAt), ("exp", .integer c.expiresAt)]) 0x7b 0x7d []
  rw [Json.length_memberChars] at enough
  have decoded : Claims.decoder (Text.Utf8.encode c.toJson.chars) = .ok (c, []) := by
    rw [toJson, Json.chars, encode_cons, encode_append]
    exact Json.Decoder.refine_ok ((Claims.fills fit).members enough) rfl
  rw [Json.Decoder.whole, decoded]
  rfl

/-! ## Verification -/

theorem decodePart_encodePart {α : Type} {decoder : Json.Decoder α} {j : Json} {a : α}
    (read : decoder.whole (Text.Utf8.encode j.chars) = .ok a) :
    decodePart decoder (encodePart j) = .ok a := by
  rw [decodePart, encodePart, Text.Base64Url.decode?_encode]
  simp only [read]
  rfl

theorem decodePart_header : decodePart Header.decoder (encodePart headerJson) = .ok .hs256 :=
  decodePart_encodePart (by decide +kernel)

theorem point_not_mem (bs : List UInt8) : '.' ∉ Text.Base64Url.encode bs := by
  intro member
  exact (Text.Base64Url.encode_isSymbol bs '.' member).ne rfl rfl

namespace Service

/-- A token that the service signed is judged by its claims. -/
theorem verify_sign (service : Service) (now : Timestamp) (fit : c.Fit) :
    service.verify now (service.sign c) = service.checkClaims now c := by
  have outer : Text.cutLast '.' (service.sign c) =
      some (encodePart headerJson ++ '.' :: encodePart c.toJson,
        service.signature (encodePart headerJson ++ '.' :: encodePart c.toJson)) :=
    Text.cutLast_append (point_not_mem _) _
  have inner : Text.cutLast '.' (encodePart headerJson ++ '.' :: encodePart c.toJson) =
      some (encodePart headerJson, encodePart c.toJson) :=
    Text.cutLast_append (point_not_mem _) _
  have claims := decodePart_encodePart (Claims.decoder_whole fit)
  simp [verify, outer, inner, decodePart_header, claims]

theorem claims_fit {service : Service} {now : Timestamp} {who : Identity}
    (made : service.claims now who = .ok c) : c.Fit := by
  have wraps (n : Int) : wrapped n < 2 ^ 64 := by
    rw [wrapped]
    omega
  simp only [claims] at made
  split at made
  · cases made
    exact ⟨wraps _, wraps _⟩
  · cases made

/-! ## Bearing a token -/

theorem isPlain_symbol {d : Char} (isSymbol : Text.Base64Url.IsSymbol d) :
    Http.isPlain [d] = true ∧ Text.isBlank d = false := by
  obtain ⟨n, small, rfl⟩ := isSymbol
  revert n
  decide

theorem sign_plain (service : Service) (c : Claims) :
    ∀ d ∈ service.sign c, Http.isPlain [d] = true ∧ Text.isBlank d = false := by
  have symbols (bs : List UInt8) : ∀ d ∈ Text.Base64Url.encode bs,
      Http.isPlain [d] = true ∧ Text.isBlank d = false :=
    fun d hd => isPlain_symbol (Text.Base64Url.encode_isSymbol bs d hd)
  have point : Http.isPlain ['.'] = true ∧ Text.isBlank '.' = false := by decide
  intro d hd
  simp only [sign, encodePart, signature, List.mem_append, List.mem_cons] at hd
  rcases hd with (header | rfl | body) | rfl | signature
  · exact symbols _ d header
  · exact point
  · exact symbols _ d body
  · exact point
  · exact symbols _ d signature

/-- The token is what follows the scheme. -/
theorem bearer?_sign (service : Service) (c : Claims) :
    Http.bearer? ("Bearer " ++ String.ofList (service.sign c)) = some (service.sign c) := by
  have plain := service.sign_plain c
  have text : ("Bearer " ++ String.ofList (service.sign c)).toList =
      "Bearer ".toList ++ service.sign c := by simp
  have allPlain : Http.isPlain ("Bearer ".toList ++ service.sign c) = true := by
    simp only [Http.isPlain, List.all_append, Bool.and_eq_true]
    refine ⟨by decide, List.all_eq_true.mpr fun d hd => ?_⟩
    have one := (plain d hd).1
    simpa [Http.isPlain] using one
  have kept : (service.sign c).dropWhile Text.isBlank = service.sign c := by
    cases token : service.sign c with
    | nil => rfl
    | cons d ds =>
        rw [token] at plain
        rw [List.dropWhile_cons_of_neg]
        simp [(plain d List.mem_cons_self).2]
  simp only [Http.bearer?, text, allPlain]
  have dropped : ("Bearer ".toList ++ service.sign c).drop 7 = service.sign c := rfl
  rw [dropped, kept]
  rfl

end Service

end Token

theorem Http.Request.bearer?_of_sign {r : Http.Request} {service : Token.Service}
    {c : Token.Claims} (field : r.headers.first? "authorization" =
      some ("Bearer " ++ String.ofList (service.sign c))) : r.bearer? = some (service.sign c) := by
  rw [bearer?, field, Option.bind_some, service.bearer?_sign]

namespace Server

variable {server : Server} {now : Timestamp} {r : Http.Request}

theorem identify_of_accepted {token : List Char} {claims : Token.Claims}
    (sent : r.bearer? = some token) (accepted : server.tokens.verify now token = .ok claims) :
    server.identify now r = .ok claims.identity := by
  simp only [identify, sent, accepted]

/-- Whoever brings a token of the service whose claims hold is known by it. -/
theorem identify_of_sign {c : Token.Claims} (fit : c.Fit)
    (valid : server.tokens.checkClaims now c = .ok c)
    (field : r.headers.first? "authorization" =
      some ("Bearer " ++ String.ofList (server.tokens.sign c))) :
    server.identify now r = .ok c.identity :=
  identify_of_accepted (Http.Request.bearer?_of_sign field)
    ((server.tokens.verify_sign now fit).trans valid)

end Server

end GigBoard
