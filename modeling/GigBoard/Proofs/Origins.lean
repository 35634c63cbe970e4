import GigBoard.Maintenance
import GigBoard.Proofs.Authentication
import GigBoard.Proofs.Utf8

/-!
# Which origins are allowed

The text that lists the origins is told by its entries: what stands between its commas, without the
blanks around it.  A text with the wildcard among its entries is refused.  Any other lists those of
its entries that are not empty and that a field can hold, which may go beyond ASCII, and the response
to a request from some origin allows the origin exactly if it is listed.  Nothing else of the text
shows in any response.
-/

set_option autoImplicit false

namespace GigBoard

open Http (Headers Origins Request Response)

namespace Http

/-! ## Texts that list origins -/

namespace Origins

/-- What stands between the commas of a text, without the blanks around it. -/
def trimmedEntries (text : String) : List (List Char) :=
  (text.toList.splitOn ',').map Text.trimmed

def HasWildcard (text : String) : Prop := ['*'] ∈ trimmedEntries text

instance (text : String) : Decidable (HasWildcard text) :=
  inferInstanceAs (Decidable (_ ∈ trimmedEntries text))

/-- An origin is one of the entries of a text, not empty, and without control characters of ASCII
but tabs.  Characters beyond ASCII are allowed. -/
structure Lists (text origin : String) : Prop where
  entry : origin.toList ∈ trimmedEntries text
  filled : origin ≠ ""
  held : ∀ c ∈ origin.toList, (0x20 ≤ c.toNat ∧ c.toNat ≠ 0x7F) ∨ c = '\t'

variable {text other origin : String} {origins : Origins}

theorem isFieldValue_iff (cs : List Char) : isFieldValue cs = true ↔
    ∀ c ∈ cs, (0x20 ≤ c.toNat ∧ c.toNat ≠ 0x7F) ∨ c = '\t' := by
  have isTab (c : Char) : c.toNat = 9 ↔ c = '\t' := by
    rw [← Char.toNat_inj]
    rfl
  have one (c : Char) := Text.Utf8.forall_encodeChar_iff
    (p := fun n => (0x20 ≤ n ∧ n ≠ 0x7F) ∨ n = 9) (fun n far => by omega) c
  simp only [isTab] at one
  simp [isFieldValue, Text.Utf8.encode, ← one]

theorem mem_entries_iff : origin ∈ entries text ↔ Lists text origin := by
  have same (cs : List Char) : String.ofList cs = origin ↔ cs = origin.toList := by
    constructor
    · rintro rfl
      simp
    · rintro rfl
      simp
  have filled : origin.toList ≠ [] ↔ origin ≠ "" := by
    rw [Ne, Ne, String.toList_eq_nil_iff]
  simp only [entries, List.mem_map, List.mem_filter, Bool.and_eq_true, isFieldValue_iff, same,
    Bool.not_eq_true', List.isEmpty_eq_false_iff, Text.splitAt_eq_splitOn, exists_eq_right, filled]
  constructor
  · rintro ⟨entry, filled, held⟩
    exact ⟨List.mem_map.mpr entry, filled, held⟩
  · rintro ⟨entry, filled, held⟩
    exact ⟨List.mem_map.mp entry, filled, held⟩

instance (text origin : String) : Decidable (Lists text origin) :=
  decidable_of_iff _ mem_entries_iff

theorem hasWildcard_iff : HasWildcard text ↔ "*" ∈ entries text := by
  rw [mem_entries_iff]
  constructor
  · intro wildcard
    exact ⟨wildcard, by decide, by simp⟩
  · intro listed
    exact listed.entry

theorem ofText_of_wildcard (wildcard : HasWildcard text) : ofText (some text) = .error ⟨⟩ := by
  rw [hasWildcard_iff] at wildcard
  simp [ofText, wildcard]

theorem ofText_of_plain (plain : ¬HasWildcard text) :
    ofText (some text) = .ok (.listed (entries text)) := by
  rw [hasWildcard_iff] at plain
  simp [ofText, plain]

theorem allows_listed_iff : (Origins.listed (entries text)).allows origin = true ↔
    Lists text origin := by
  rw [← mem_entries_iff]
  simp [allows]

/-! ## The field that allows an origin -/

theorem all_append (hs ks : Headers) (name : String) :
    Headers.all (hs ++ ks) name = Headers.all hs name ++ Headers.all ks name := by
  simp [Headers.all]

/-- The field that is there once is the first one. -/
theorem first?_of_all {hs : Headers} {name value : String} (once : hs.all name = [value]) :
    hs.first? name = some value := by
  rw [Headers.first?, ← List.head?_filter, ← List.head?_map, ← Headers.all, once]
  rfl

/-- The only field about an allowed origin is the one that tells it. -/
theorem all_headers (origins : Origins) {hs : Headers} (once : hs.all "origin" = [origin]) :
    (origins.headers hs).all "access-control-allow-origin" =
      if origins.allows origin then [origin] else [] := by
  rw [headers, all_append, originHeader, first?_of_all once]
  dsimp only
  split
  · simp [Headers.all]
  · simp [Headers.all]

end Origins

end Http

namespace Server

variable {tokens : Token.Service} {ctx : Context} {r : Request} {s : Store} {origin : String}

/-- What allows an origin on the response to a request, whatever the request is answered. -/
theorem all_handle (server : Server) (asks : r.method ≠ .options)
    (once : r.headers.all "origin" = [origin]) :
    (server.handle ctx r s).1.headers.all "access-control-allow-origin" =
      if server.origins.allows origin then [origin] else [] := by
  cases served : server.serve ctx r s with
  | mk outcome s' =>
      have noType :
          Headers.all (typeHeader outcome.answer.body) "access-control-allow-origin" = [] := by
        unfold typeHeader
        split
        · rfl
        · simp [Headers.all]
      have noMethods :
          Headers.all (allowHeader outcome.allow) "access-control-allow-origin" = [] := by
        unfold allowHeader
        split
        · rfl
        · simp [Headers.all]
      rw [handle_of_serve asks served]
      simp only [respond, Origins.all_append, noType, noMethods, List.nil_append,
        Origins.all_headers server.origins once]

/-- Origins that allow the same show in no response. -/
theorem handle_of_same_origins {origins origins' : Origins}
    (same : ∀ origin, origins.allows origin = origins'.allows origin) (ctx : Context) (r : Request)
    (s : Store) :
    handle ⟨tokens, origins⟩ ctx r s = handle ⟨tokens, origins'⟩ ctx r s := by
  have headers (hs : Headers) : origins.headers hs = origins'.headers hs := by
    rw [Origins.headers, Origins.headers, Origins.originHeader, Origins.originHeader]
    simp only [same]
  have served : serve ⟨tokens, origins⟩ ctx r s = serve ⟨tokens, origins'⟩ ctx r s := rfl
  by_cases options : r.method = .options
  · simp only [handle, if_pos options, preflight, Origins.preflightHeaders, headers]
  · simp only [handle, if_neg options, served, headers]

/-- With a wildcard among the origins no server starts. -/
theorem startFailure?_of_wildcard {env : Environment} {settings : Settings} {text : String}
    (accepted : Settings.ofEnvironment env = .ok settings)
    (isText : settings.allowedOrigins = some text) (wildcard : Origins.HasWildcard text) :
    (Maintenance.startFailure? env).isSome = true := by
  unfold Maintenance.startFailure?
  simp only [accepted, isText, Origins.ofText_of_wildcard wildcard]
  split
  · rfl
  · split <;> rfl

/-- The responses of a server allow the origins of a kind and no others, each of them by its name.
-/
def AllowsExactly (server : Server) (kind : String → Prop) : Prop :=
  ∀ ctx r s origin, r.method ≠ .options → r.headers.all "origin" = [origin] →
    (kind origin →
      (server.handle ctx r s).1.headers.all "access-control-allow-origin" = [origin]) ∧
    (¬kind origin → (server.handle ctx r s).1.headers.all "access-control-allow-origin" = [])

theorem allowsExactly_of_iff {server : Server} {kind : String → Prop}
    (same : ∀ origin, server.origins.allows origin = true ↔ kind origin) :
    server.AllowsExactly kind := by
  intro ctx r s origin asks once
  rw [all_handle server asks once, ← same]
  exact ⟨fun allowed => if_pos allowed, fun refused => if_neg refused⟩

/-- A text with the wildcard among its entries is refused, and no server starts with it.  With any
other text the responses allow exactly the origins that it lists, and two texts that list the same
origins make no difference to any response.  Without a text every origin is allowed. -/
theorem origins_allowed_as_listed (tokens : Token.Service) (text : String) :
    (Origins.HasWildcard text → Origins.ofText (some text) = .error ⟨⟩ ∧
      ∀ env settings, Settings.ofEnvironment env = .ok settings →
        settings.allowedOrigins = some text → (Maintenance.startFailure? env).isSome = true) ∧
    (¬Origins.HasWildcard text → ∃ origins, Origins.ofText (some text) = .ok origins ∧
      AllowsExactly ⟨tokens, origins⟩ (Origins.Lists text) ∧
      ∀ other, ¬Origins.HasWildcard other →
        (∀ origin, Origins.Lists text origin ↔ Origins.Lists other origin) →
          ∃ origins', Origins.ofText (some other) = .ok origins' ∧
            ∀ ctx r s, handle ⟨tokens, origins⟩ ctx r s = handle ⟨tokens, origins'⟩ ctx r s) ∧
    ∃ origins, Origins.ofText none = .ok origins ∧ AllowsExactly ⟨tokens, origins⟩ fun _ => True := by
  refine ⟨fun wildcard => ⟨Origins.ofText_of_wildcard wildcard, fun env settings accepted isText =>
    startFailure?_of_wildcard accepted isText wildcard⟩, fun plain => ?_, ?_⟩
  · refine ⟨_, Origins.ofText_of_plain plain,
      allowsExactly_of_iff fun origin => Origins.allows_listed_iff, fun other plain' same => ?_⟩
    refine ⟨_, Origins.ofText_of_plain plain', handle_of_same_origins fun origin => ?_⟩
    rw [Bool.eq_iff_iff, Origins.allows_listed_iff, Origins.allows_listed_iff, same origin]
  · refine ⟨.all, rfl, allowsExactly_of_iff fun origin => ?_⟩
    simp [Origins.allows]

def questionFrom (origin : String) : Request where
  method := .get
  target := "/nowhere"
  headers := [("origin", origin)]
  body := []

/-- A text with three origins, one of them twice and one beyond ASCII, and with blanks, an empty entry
and one that no field can hold. -/
def paddedOrigins : String :=
  "\thttps://a.example ,,*.b.example, b\u0001.example, https://b\u00fccher.example,https://a.example"

theorem lists_paddedOrigins_iff (origin : String) : Origins.Lists paddedOrigins origin ↔
    Origins.Lists "*.b.example,https://b\u00fccher.example,https://a.example" origin := by
  have repeated (w x y z : String) : z ∈ [w, x, y, w] ↔ z ∈ [x, y, w] := by
    simp only [List.mem_cons]
    tauto
  have padded : Origins.entries paddedOrigins =
      ["https://a.example", "*.b.example", "https://b\u00fccher.example", "https://a.example"] := by
    decide +kernel
  have short : Origins.entries "*.b.example,https://b\u00fccher.example,https://a.example" =
      ["*.b.example", "https://b\u00fccher.example", "https://a.example"] := by decide +kernel
  rw [← Origins.mem_entries_iff, ← Origins.mem_entries_iff, padded, short, repeated]

theorem origins_allowed_as_listed_padded :
    Origins.HasWildcard "https://a.example, * " ∧
      Origins.ofText (some "https://a.example, * ") = .error ⟨⟩ ∧
    ¬Origins.HasWildcard paddedOrigins ∧
      ∃ origins, Origins.ofText (some paddedOrigins) = .ok origins ∧ ∀ ctx s,
        (handle ⟨plain.tokens, origins⟩ ctx (questionFrom "https://b\u00fccher.example")
          s).1.headers.all "access-control-allow-origin" = ["https://b\u00fccher.example"] ∧
        (handle ⟨plain.tokens, origins⟩ ctx (questionFrom "b\u0001.example") s).1.headers.all
          "access-control-allow-origin" = [] ∧
        ∀ r, handle ⟨plain.tokens, origins⟩ ctx r s =
          handle ⟨plain.tokens,
            .listed ["*.b.example", "https://b\u00fccher.example", "https://a.example"]⟩ ctx r s := by
  have wildcard : Origins.HasWildcard "https://a.example, * " := by decide +kernel
  have noWildcard : ¬Origins.HasWildcard paddedOrigins := by decide +kernel
  have noWildcard' : ¬Origins.HasWildcard
      "*.b.example,https://b\u00fccher.example,https://a.example" := by decide +kernel
  obtain ⟨refused, _⟩ := (origins_allowed_as_listed plain.tokens _).1 wildcard
  obtain ⟨origins, isText, allows, indifferent⟩ :=
    (origins_allowed_as_listed plain.tokens _).2.1 noWildcard
  obtain ⟨origins', isText', same⟩ := indifferent _ noWildcard' lists_paddedOrigins_iff
  obtain rfl : origins' =
      .listed ["*.b.example", "https://b\u00fccher.example", "https://a.example"] := by
    have isListed :
        Origins.ofText (some "*.b.example,https://b\u00fccher.example,https://a.example") =
          .ok (.listed ["*.b.example", "https://b\u00fccher.example", "https://a.example"]) := by
      decide +kernel
    exact Except.ok.inj (isText'.symm.trans isListed)
  refine ⟨wildcard, refused, noWildcard, origins, isText,
    fun ctx s => ⟨?_, ?_, fun r => same ctx r s⟩⟩
  · exact (allows ctx _ s "https://b\u00fccher.example" (by decide) (by decide)).1 (by decide +kernel)
  · exact (allows ctx _ s "b\u0001.example" (by decide) (by decide)).2 (by decide +kernel)

/-- An origin need not consist of visible ASCII characters, spaces and tabs to be allowed. -/
theorem origin_beyond_ascii_allowed :
    ¬Origins.HasWildcard "https://b\u00fccher.example" ∧
    ¬(∀ c ∈ "https://b\u00fccher.example".toList, (0x20 ≤ c.toNat ∧ c.toNat < 0x7F) ∨ c = '\t') ∧
      ∃ origins, Origins.ofText (some "https://b\u00fccher.example") = .ok origins ∧ ∀ ctx s,
        (handle ⟨plain.tokens, origins⟩ ctx (questionFrom "https://b\u00fccher.example")
          s).1.headers.all "access-control-allow-origin" = ["https://b\u00fccher.example"] := by
  have noWildcard : ¬Origins.HasWildcard "https://b\u00fccher.example" := by decide +kernel
  have beyond : '\u00fc' ∈ "https://b\u00fccher.example".toList := by decide +kernel
  refine ⟨noWildcard, fun visible => absurd (visible _ beyond) (by decide), _,
    Origins.ofText_of_plain noWildcard, fun ctx s => ?_⟩
  have once : (questionFrom "https://b\u00fccher.example").headers.all "origin" =
      ["https://b\u00fccher.example"] := by decide
  rw [all_handle _ (by decide) once]
  exact if_pos (Origins.allows_listed_iff.mpr (by decide +kernel))

end Server

end GigBoard
