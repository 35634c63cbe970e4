import GigBoard.Proofs.HostNames
import GigBoard.Settings
import Mathlib.Data.List.TakeWhile

/-!
# Passwords do not show

Where a URL is written with a user name and a password in front of its host, everything but the
password is read without a look at it: what the last at sign leaves to the host, and what the first
colon leaves to the user name, does not depend on the password, and for files no such text is a
URL, as no conversion of domains takes an at sign.  So the reading is a shape with a place for the
secret, and the shown text, which has asterisks in that place, is the same for all passwords.
-/

set_option autoImplicit false

namespace GigBoard

namespace Url

variable {toAscii : ToAscii}

/-! ## Texts with a password -/

/-- None of the characters that end the part in front of a path, and none that is left out of a
text. -/
def Enclosed (cs : List Char) : Prop :=
  ∀ c ∈ cs, c ∉ ['/', '?', '#', '\\', '\t', '\n', '\r']

instance (cs : List Char) : Decidable (Enclosed cs) := List.decidableBAll _ cs

def IsSecret (password : String) : Prop := password ≠ "" ∧ Enclosed password.toList

instance (password : String) : Decidable (IsSecret password) :=
  inferInstanceAs (Decidable (_ ∧ _))

def addressed (scheme user password rest : String) : String :=
  scheme ++ "://" ++ user ++ ":" ++ password ++ "@" ++ rest

def userAt (user password rest : List Char) : List Char :=
  user ++ ':' :: (password ++ '@' :: rest)

/-- A text begins with a user name and a password that is not empty, both in front of where a path
would begin. -/
def BeginsWithPassword (cs : List Char) : Prop :=
  ∃ user password rest, cs = userAt user password rest ∧
    (∀ c ∈ user ++ password, c ∉ ['/', '?', '#']) ∧ password ≠ []

/-- A text, without what is left out of it, has a password behind its scheme and the slashes that
follow. -/
def WritesPassword (text : String) : Prop :=
  ∃ scheme slashes rest, cleaned text.toList = scheme ++ ':' :: (slashes ++ rest) ∧
    ':' ∉ scheme ∧ (∀ c ∈ slashes, c = '/' ∨ c = '\\') ∧ BeginsWithPassword rest

def Authority.withSecret (a : Authority) (secret : List Char) : Authority :=
  { a with password := some secret }

def withSecret (u : Url) (secret : List Char) : Url :=
  { u with authority := u.authority.map (·.withSecret secret) }

/-- A URL with a host for which a password can be meant. -/
structure TakesPassword (u : Url) : Prop where
  notFile : u.scheme ≠ "file".toList
  hosted : ∃ a, u.authority = some a ∧ a.host.isEmpty = false

/-- What is read does not depend on the password, except in the place where the password is kept. -/
def SecretApart (read : List Char → Option Url) : Prop :=
  ∃ shape : Option Url, (∀ u ∈ shape, u.TakesPassword) ∧
    ∀ password, password ≠ [] → Enclosed password →
      ∃ secret, read password = shape.map (·.withSecret secret)

/-! ## Hiding -/

theorem redacted_withSecret {u : Url} (takes : TakesPassword u) (secret : List Char) :
    (u.withSecret secret).redacted = u.withSecret mask := by
  obtain ⟨notFile, a, isAuthority, hosted⟩ := takes
  have given : (u.withSecret secret).password? = some secret := by
    rw [password?, withSecret, isAuthority]
    rfl
  have hidden : Text.Percent.encode escapedInUserInfo mask = mask := by decide
  have replaced : (u.withSecret secret).withPassword? mask = some (u.withSecret mask) := by
    simp only [withPassword?, withSecret, isAuthority, Option.map_some, Option.bind_some,
      Authority.withSecret, hosted, notFile, decide_false, Bool.or_self, hidden]
    rfl
  rw [redacted, given, replaced, Option.getD_some]

theorem redacted_of_no_password {u : Url} (free : u.password? = none) : u.redacted = u := by
  rw [redacted, free]

theorem redactedTextBy_of_ofChars? {s : String} {u : Url}
    (read : ofChars? toAscii s.toList = some u) :
    redactedTextBy toAscii s = String.ofList u.redacted.chars := by
  rw [redactedTextBy, read]

/-! ## Authorities -/

/-- The authority at which a host is read does not depend on the secret in front of the host, and
the host is not empty. -/
theorem authority?_secret (toAscii : ToAscii) (kind : SchemeKind) (name cs : List Char) :
    ∃ shape : Option (Authority × List Char),
      (∀ s ∈ shape, s.1.host.isEmpty = false) ∧
      ∀ secret, authority? toAscii kind (name, some secret) cs =
        shape.map fun s => (s.1.withSecret secret, s.2) := by
  cases isHost : (if kind.isSpecial then domainHost? toAscii (cutHost false cs).1
      else plainHost? (cutHost false cs).1) with
  | none => exact ⟨none, by simp, fun secret => by simp [authority?, isHost]⟩
  | some host =>
      cases isPort : port? kind (cutHost false cs).2 with
      | none => exact ⟨none, by simp, fun secret => by simp [authority?, isHost, isPort]⟩
      | some found =>
          cases empty : host.isEmpty with
          | true => exact ⟨none, by simp, fun secret => by simp [authority?, isHost, isPort, empty]⟩
          | false =>
              refine ⟨some (⟨name, none, host, found.1⟩, found.2), ?_, ?_⟩
              · simpa using empty
              · intro secret
                simp [authority?, isHost, isPort, empty, Authority.withSecret]

/-- A user name that is followed by a colon ends at the first one, wherever that is. -/
theorem userInfo_secret (user : List Char) :
    ∃ name tail, ∀ password, password ≠ [] →
      userInfo (user ++ ':' :: password) =
        (name, some (Text.Percent.encode escapedInUserInfo (tail ++ password))) := by
  have marked : ':' ∈ user ++ [':'] := by simp
  obtain ⟨name, tail, isName, free⟩ := List.eq_append_cons_of_mem marked
  refine ⟨Text.Percent.encode escapedInUserInfo name, tail, ?_⟩
  intro password filled
  have cut : user ++ ':' :: password = name ++ ':' :: (tail ++ password) := by
    rw [List.append_cons, isName]
    simp
  have filled : tail ++ password ≠ [] := by simp [filled]
  obtain ⟨c, cs, isCons⟩ := List.exists_cons_of_ne_nil filled
  rw [userInfo, cut, Text.cutFirst_append free, isCons]

def SchemeKind.goesOn (kind : SchemeKind) (c : Char) : Bool :=
  !(isSlash kind.isSpecial c || endsPath c)

section GoesOn

variable {user password : List Char} (kind : SchemeKind)

theorem goesOn_of_enclosed (enclosedUser : Enclosed user) (enclosed : Enclosed password) :
    ∀ c ∈ userAt user password [], kind.goesOn c = true := by
  have apart : ∀ c, c ∉ ['/', '?', '#', '\\', '\t', '\n', '\r'] → kind.goesOn c = true := by
    intro c hc
    simp only [List.mem_cons, not_or] at hc
    simp [SchemeKind.goesOn, isSlash, endsPath, hc]
  intro c hc
  simp only [userAt, List.mem_append, List.mem_cons, List.not_mem_nil, or_false] at hc
  rcases hc with hc | rfl | hc | rfl
  · exact apart c (enclosedUser c hc)
  · exact apart ':' (by decide)
  · exact apart c (enclosed c hc)
  · exact apart '@' (by decide)

theorem userAt_append (user password rest : List Char) :
    userAt user password rest = userAt user password [] ++ rest := by
  simp [userAt]

theorem takeWhile_userAt (enclosedUser : Enclosed user) (enclosed : Enclosed password)
    (rest : List Char) : (userAt user password rest).takeWhile kind.goesOn =
      userAt user password (rest.takeWhile kind.goesOn) := by
  rw [userAt_append, List.takeWhile_append_of_pos (goesOn_of_enclosed kind enclosedUser enclosed),
    ← userAt_append]

theorem dropWhile_userAt (enclosedUser : Enclosed user) (enclosed : Enclosed password)
    (rest : List Char) :
    (userAt user password rest).dropWhile kind.goesOn = rest.dropWhile kind.goesOn := by
  rw [userAt_append, List.dropWhile_append_of_pos (goesOn_of_enclosed kind enclosedUser enclosed)]

end GoesOn

theorem splitAuthority?_of_user {kind : SchemeKind} {cs user host : List Char}
    (front : cs.takeWhile kind.goesOn = user ++ '@' :: host) (free : '@' ∉ host)
    (given : user ≠ []) :
    splitAuthority? toAscii kind cs =
      (authority? toAscii kind (userInfo user) host).map
        fun s => (s.1, s.2 ++ cs.dropWhile kind.goesOn) := by
  have cut : Text.cutLast '@' (cs.takeWhile kind.goesOn) = some (user, host) := by
    rw [front, Text.cutLast_append free]
  obtain ⟨c, rest, rfl⟩ := List.exists_cons_of_ne_nil given
  unfold SchemeKind.goesOn at cut
  simp only [splitAuthority?, cut]
  rfl

theorem splitAuthority?_secret (toAscii : ToAscii) (kind : SchemeKind) {user : List Char}
    (enclosedUser : Enclosed user) (rest : List Char) :
    ∃ shape : Option (Authority × List Char),
      (∀ s ∈ shape, s.1.host.isEmpty = false) ∧
      ∀ password, password ≠ [] → Enclosed password →
        ∃ secret, splitAuthority? toAscii kind (userAt user password rest) =
          shape.map fun s => (s.1.withSecret secret, s.2) := by
  -- The last at sign is the one behind the password or a later one: the password does not matter.
  have marked : '@' ∈ '@' :: rest.takeWhile kind.goesOn := List.mem_cons_self
  obtain ⟨lead, host, isLast, free⟩ := Text.exists_last_mark marked
  obtain ⟨name, tail, isName⟩ := userInfo_secret user
  obtain ⟨shape, hosted, isShape⟩ := authority?_secret toAscii kind name host
  refine ⟨shape.map fun s => (s.1, s.2 ++ rest.dropWhile kind.goesOn), ?_, ?_⟩
  · intro s hs
    obtain ⟨t, ht, rfl⟩ := Option.map_eq_some_iff.mp hs
    exact hosted t ht
  · intro password filled enclosed
    have front : (userAt user password rest).takeWhile kind.goesOn =
        (user ++ ':' :: (password ++ lead)) ++ '@' :: host := by
      rw [takeWhile_userAt kind enclosedUser enclosed, userAt, isLast]
      simp
    have filled : password ++ lead ≠ [] := by simp [filled]
    refine ⟨Text.Percent.encode escapedInUserInfo (tail ++ (password ++ lead)), ?_⟩
    rw [splitAuthority?_of_user front free (by simp), isName _ filled, isShape,
      dropWhile_userAt kind enclosedUser enclosed, Option.map_map, Option.map_map]
    rfl

/-! ## Whole URLs -/

theorem isDrive_of_at {cs : List Char} (marked : '@' ∈ cs) : isDrive cs = false := by
  unfold isDrive
  split
  · rename_i letter mark
    simp only [List.mem_cons, List.not_mem_nil, or_false] at marked
    rcases marked with rfl | rfl
    · rfl
    · exact Bool.and_false _
  · rfl

/-- Files have no user: what stands in front of the path is the text of a host. -/
theorem file?_of_at (denies : DeniesAt toAscii) {scheme cs : List Char}
    (marked : '@' ∈ cs.takeWhile SchemeKind.file.goesOn) :
    file? toAscii scheme ('/' :: '/' :: cs) = none := by
  have noDrive := isDrive_of_at marked
  have refused := domainHost?_of_at denies marked
  have given : (cs.takeWhile SchemeKind.file.goesOn).isEmpty = false := by
    rw [List.isEmpty_eq_false_iff]
    exact List.ne_nil_of_mem marked
  have slashes : (isSlash true '/' && isSlash true '/') = true := rfl
  unfold SchemeKind.goesOn at noDrive refused given
  simp only [file?, slashes]
  simp only [SchemeKind.isSpecial] at noDrive refused given
  simp only [noDrive, refused, given]
  rfl

theorem assemble_secret {scheme : List Char} (notFile : scheme ≠ "file".toList)
    (kind : SchemeKind) (special : Bool) {user : List Char} (enclosedUser : Enclosed user)
    (rest : List Char) :
    SecretApart fun password =>
      (splitAuthority? toAscii kind (userAt user password rest)).map fun s =>
        assemble scheme (some s.1) (pathAfterAuthority kind s.2) special s.2 := by
  obtain ⟨shape, hosted, isShape⟩ := splitAuthority?_secret toAscii kind enclosedUser rest
  refine ⟨shape.map fun s => assemble scheme (some s.1) (pathAfterAuthority kind s.2) special s.2,
    ?_, ?_⟩
  · intro u hu
    obtain ⟨s, hs, rfl⟩ := Option.map_eq_some_iff.mp hu
    exact ⟨notFile, s.1, rfl, hosted s hs⟩
  · intro password filled enclosed
    obtain ⟨secret, split⟩ := isShape password filled enclosed
    refine ⟨secret, ?_⟩
    simp only [split, Option.map_map]
    rfl

theorem dropWhile_slashes {user : List Char} (enclosedUser : Enclosed user)
    (password rest : List Char) :
    ('/' :: '/' :: userAt user password rest).dropWhile (isSlash true) =
      userAt user password rest := by
  rw [List.dropWhile_cons_of_pos rfl, List.dropWhile_cons_of_pos rfl]
  cases user with
  | nil => rfl
  | cons c user =>
      have apart := enclosedUser c List.mem_cons_self
      simp only [List.mem_cons, not_or] at apart
      exact List.dropWhile_cons_of_neg (by simp [isSlash, apart])

/-- Behind the scheme, the reading depends on the secret only where it is kept. -/
theorem afterScheme?_secret (denies : DeniesAt toAscii) (scheme : List Char) {user : List Char}
    (enclosedUser : Enclosed user) (rest : List Char) :
    SecretApart fun password =>
      afterScheme? toAscii scheme ('/' :: '/' :: userAt user password rest) := by
  cases isKind : SchemeKind.of scheme with
  | file =>
      refine ⟨none, by simp, ?_⟩
      intro password filled enclosed
      refine ⟨[], ?_⟩
      simp only [afterScheme?, isKind, Option.map_none]
      apply file?_of_at denies
      rw [takeWhile_userAt .file enclosedUser enclosed]
      simp [userAt]
  | special port =>
      have notFile : scheme ≠ "file".toList := by
        rintro rfl
        cases isKind
      simp only [afterScheme?, isKind, dropWhile_slashes enclosedUser]
      exact assemble_secret notFile (.special port) true enclosedUser rest
  | other =>
      have notFile : scheme ≠ "file".toList := by
        rintro rfl
        cases isKind
      simp only [afterScheme?, isKind]
      exact assemble_secret notFile .other false enclosedUser rest

/-! ## Whole texts -/

theorem dropWhile_append_cons {p : Char → Bool} {c : Char} (stop : p c = false)
    (front back : List Char) :
    (front ++ c :: back).dropWhile p = front.dropWhile p ++ c :: back := by
  rw [List.dropWhile_append]
  split
  · rename_i through
    rw [List.isEmpty_iff.mp through, List.dropWhile_cons_of_neg (by simp [stop]), List.nil_append]
  · rfl

def isOuter (c : Char) : Bool := c.toNat ≤ 0x20

def isKept (c : Char) : Bool := c ≠ '\t' && c ≠ '\n' && c ≠ '\r'

theorem cleaned_eq (cs : List Char) :
    cleaned cs = (((cs.dropWhile isOuter).reverse.dropWhile isOuter).reverse).filter isKept :=
  rfl

/-- Between a colon and an at sign nothing is left out of a text but tabs and line breaks. -/
theorem cleaned_between {front : List Char} (free : ':' ∉ front) (back : List Char) :
    ∃ start finish, ':' ∉ start ∧ ∀ middle : List Char,
      (∀ c ∈ middle, c ∉ ['\t', '\n', '\r']) →
        cleaned (front ++ ':' :: (middle ++ '@' :: back)) =
          start ++ ':' :: (middle ++ '@' :: finish) := by
  refine ⟨(front.dropWhile isOuter).filter isKept,
    ((back.reverse.dropWhile isOuter).reverse).filter isKept, ?_, ?_⟩
  · intro marked
    exact free ((List.dropWhile_sublist _).subset (List.mem_of_mem_filter marked))
  · intro middle hmiddle
    have same : middle.filter isKept = middle := by
      rw [List.filter_eq_self]
      intro c hc
      simpa [isKept, not_or, and_assoc] using hmiddle c hc
    have atStart : (front ++ ':' :: (middle ++ '@' :: back)).dropWhile isOuter =
        (front.dropWhile isOuter ++ ':' :: middle) ++ '@' :: back := by
      rw [dropWhile_append_cons (by decide)]
      simp
    have atEnd : ((front.dropWhile isOuter ++ ':' :: middle) ++ '@' :: back).reverse.dropWhile
        isOuter = back.reverse.dropWhile isOuter ++
          '@' :: (front.dropWhile isOuter ++ ':' :: middle).reverse := by
      rw [List.reverse_append, List.reverse_cons, List.append_assoc, List.singleton_append,
        dropWhile_append_cons (by decide)]
    have colon : isKept ':' = true := rfl
    have atSign : isKept '@' = true := rfl
    rw [cleaned_eq, atStart, atEnd]
    simp [same, colon, atSign]

def inScheme (c : Char) : Bool := c.isAlphanum || c = '+' || c = '-' || c = '.'

theorem scheme?_of_colon {c : Char} {cs rest : List Char} (letter : c.isAlpha = true)
    (behind : (c :: cs).dropWhile inScheme = ':' :: rest) :
    scheme? (c :: cs) = some (((c :: cs).takeWhile inScheme).map Char.toLower, rest) := by
  unfold inScheme at behind ⊢
  simp only [scheme?, letter, if_true, behind]

theorem scheme?_of_other {c d : Char} {cs rest : List Char}
    (behind : (c :: cs).dropWhile inScheme = d :: rest) (other : d ≠ ':') :
    scheme? (c :: cs) = none := by
  unfold inScheme at behind
  simp only [scheme?, behind]
  split
  · split
    · rename_i isColon
      exact absurd (List.cons.inj isColon).1 other
    · rfl
  · rfl

/-- What stands in front of the first colon decides alone which scheme there is. -/
theorem scheme?_append {front : List Char} (free : ':' ∉ front) :
    ∃ name : Option (List Char), ∀ cs, scheme? (front ++ ':' :: cs) = name.map (·, cs) := by
  cases front with
  | nil => exact ⟨none, fun cs => rfl⟩
  | cons c front =>
      by_cases letter : c.isAlpha = true
      · have further (cs : List Char) : (c :: (front ++ ':' :: cs)).dropWhile inScheme =
            (c :: front).dropWhile inScheme ++ ':' :: cs :=
          dropWhile_append_cons (by decide) (c :: front) cs
        cases behind : (c :: front).dropWhile inScheme with
        | nil =>
            have all := List.dropWhile_eq_nil_iff.mp behind
            refine ⟨some ((c :: front).map Char.toLower), ?_⟩
            intro cs
            have name : (c :: (front ++ ':' :: cs)).takeWhile inScheme = c :: front := by
              rw [← List.cons_append, List.takeWhile_append_of_pos all,
                List.takeWhile_cons_of_neg (by decide), List.append_nil]
            have colon := further cs
            rw [behind, List.nil_append] at colon
            rw [List.cons_append, scheme?_of_colon letter colon, name, Option.map_some]
        | cons d rest =>
            have other : d ≠ ':' := by
              rintro rfl
              exact free ((List.dropWhile_sublist _).subset (behind ▸ List.mem_cons_self))
            refine ⟨none, ?_⟩
            intro cs
            have later := further cs
            rw [behind, List.cons_append] at later
            rw [List.cons_append, scheme?_of_other later other, Option.map_none]
      · exact ⟨none, fun cs => by simp [scheme?, letter]⟩

theorem ofChars?_secret (denies : DeniesAt toAscii) {scheme user : List Char} (named : ':' ∉ scheme)
    (enclosedUser : Enclosed user) (rest : List Char) :
    SecretApart fun password =>
      ofChars? toAscii (scheme ++ ':' :: '/' :: '/' :: userAt user password rest) := by
  obtain ⟨start, finish, free, isCleaned⟩ := cleaned_between named rest
  obtain ⟨name, isName⟩ := scheme?_append free
  have kept : ∀ cs, Enclosed cs → ∀ c ∈ cs, c ∉ ['\t', '\n', '\r'] := by
    intro cs enclosed c hc leftOut
    exact enclosed c hc (List.mem_append_right ['/', '?', '#', '\\'] leftOut)
  have reads {password : List Char} (enclosed : Enclosed password) :
      ofChars? toAscii (scheme ++ ':' :: '/' :: '/' :: userAt user password rest) =
        name.bind fun name =>
          afterScheme? toAscii name ('/' :: '/' :: userAt user password finish) := by
    have between : ∀ c ∈ '/' :: '/' :: (user ++ ':' :: password), c ∉ ['\t', '\n', '\r'] := by
      simp only [List.forall_mem_cons, List.forall_mem_append]
      exact ⟨by decide, by decide, kept user enclosedUser, by decide, kept password enclosed⟩
    have cleaned := isCleaned _ between
    simp only [List.cons_append, List.append_assoc] at cleaned
    rw [ofChars?, userAt, cleaned, isName, Option.bind_map]
    rfl
  cases name with
  | none => exact ⟨none, by simp, fun password _ enclosed => ⟨[], reads enclosed⟩⟩
  | some name =>
      obtain ⟨shape, takes, isShape⟩ := afterScheme?_secret denies name enclosedUser finish
      refine ⟨shape, takes, ?_⟩
      intro password filled enclosed
      obtain ⟨secret, isUrl⟩ := isShape password filled enclosed
      exact ⟨secret, (reads enclosed).trans isUrl⟩

/-! ## Texts without a password -/

theorem eq_append_of_scheme? {cs name rest : List Char} (read : scheme? cs = some (name, rest)) :
    ∃ front, cs = front ++ ':' :: rest ∧ ':' ∉ front := by
  have whole := List.takeWhile_append_dropWhile (p := inScheme) (l := cs)
  refine ⟨cs.takeWhile inScheme, ?_, ?_⟩
  · unfold scheme? at read
    split at read
    · cases read
    · split at read
      · dsimp only at read
        split at read
        · rename_i behind
          cases read
          rw [← behind]
          exact whole.symm
        · cases read
      · cases read
  · intro marked
    have named := List.mem_takeWhile_imp marked
    exact absurd named (by decide)

theorem password_of_userInfo {user secret : List Char} (read : (userInfo user).2 = some secret) :
    ∃ name password, user = name ++ ':' :: password ∧ password ≠ [] := by
  cases cut : Text.cutFirst ':' user with
  | mk name password =>
      rw [userInfo, cut] at read
      cases password with
      | none => cases read
      | some password =>
          refine ⟨name, password, Text.eq_append_of_cutFirst cut, ?_⟩
          rintro rfl
          cases read

theorem password_of_authority? {kind : SchemeKind} {credentials : List Char × Option (List Char)}
    {cs behind : List Char} {a : Authority}
    (read : authority? toAscii kind credentials cs = some (a, behind)) :
    a.password = credentials.2 := by
  unfold authority? at read
  dsimp only at read
  split at read
  · split at read
    · cases read
    · cases read
      rfl
  · cases read

theorem beginsWithPassword_of_splitAuthority? {kind : SchemeKind} {cs behind secret : List Char}
    {a : Authority} (read : splitAuthority? toAscii kind cs = some (a, behind))
    (given : a.password = some secret) : BeginsWithPassword cs := by
  unfold splitAuthority? at read
  obtain ⟨⟨_, _⟩, split, same⟩ := Option.map_eq_some_iff.mp read
  cases same
  split at split
  · rw [password_of_authority? split] at given
    cases given
  · split at split
    · cases split
    · rw [password_of_authority? split] at given
      cases given
  · rename_i user host _ cut
    rw [password_of_authority? split] at given
    obtain ⟨name, password, rfl, filled⟩ := password_of_userInfo given
    have front := Text.eq_append_of_cutLast cut
    have whole := List.takeWhile_append_dropWhile (p := kind.goesOn) (l := cs)
    refine ⟨name, password, host ++ cs.dropWhile kind.goesOn, ?_, ?_, filled⟩
    · unfold SchemeKind.goesOn at whole ⊢
      rw [front] at whole
      simpa [userAt] using whole.symm
    · intro c hc ends
      have inFront : c ∈ cs.takeWhile kind.goesOn := by
        unfold SchemeKind.goesOn
        rw [front]
        simp only [List.mem_append, List.mem_cons] at hc ⊢
        exact .inl (hc.imp_right .inr)
      have goesOn : kind.goesOn c = true := List.mem_takeWhile_imp inFront
      simp only [SchemeKind.goesOn, isSlash, endsPath, Bool.not_eq_true', Bool.or_eq_false_iff,
        decide_eq_false_iff_not] at goesOn
      simp only [List.mem_cons, List.not_mem_nil, or_false] at ends
      rcases ends with rfl | rfl | rfl
      · exact goesOn.1.1 rfl
      · exact goesOn.2.1 rfl
      · exact goesOn.2.2 rfl

theorem password?_of_file? {scheme cs : List Char} {u : Url}
    (read : file? toAscii scheme cs = some u) : u.password? = none := by
  unfold file? at read
  dsimp only at read
  split at read
  · split at read
    · split at read
      · cases read
        rfl
      · split at read
        · cases read
          rfl
        · obtain ⟨host, _, rfl⟩ := Option.map_eq_some_iff.mp read
          rfl
    · cases read
      rfl
  · cases read
    rfl

theorem beginsWithPassword_of_afterScheme? {scheme cs secret : List Char} {u : Url}
    (read : afterScheme? toAscii scheme cs = some u) (given : u.password? = some secret) :
    ∃ slashes rest, cs = slashes ++ rest ∧ (∀ c ∈ slashes, c = '/' ∨ c = '\\') ∧
      BeginsWithPassword rest := by
  unfold afterScheme? at read
  dsimp only at read
  split at read
  · rw [password?_of_file? read] at given
    cases given
  · obtain ⟨⟨a, behind⟩, split, rfl⟩ := Option.map_eq_some_iff.mp read
    refine ⟨cs.takeWhile (isSlash true), cs.dropWhile (isSlash true),
      List.takeWhile_append_dropWhile.symm, ?_, beginsWithPassword_of_splitAuthority? split given⟩
    intro c hc
    simpa [isSlash] using List.mem_takeWhile_imp hc
  · split at read
    · rename_i rest
      obtain ⟨⟨a, behind⟩, split, rfl⟩ := Option.map_eq_some_iff.mp read
      exact ⟨['/', '/'], rest, rfl, by simp, beginsWithPassword_of_splitAuthority? split given⟩
    · cases read
      cases given

theorem writesPassword_of_ofChars? {text : String} {u : Url} {secret : List Char}
    (read : ofChars? toAscii text.toList = some u) (given : u.password? = some secret) :
    WritesPassword text := by
  obtain ⟨⟨name, rest⟩, isScheme, read⟩ := Option.bind_eq_some_iff.mp read
  obtain ⟨scheme, whole, free⟩ := eq_append_of_scheme? isScheme
  obtain ⟨slashes, rest, rfl, areSlashes, begins⟩ := beginsWithPassword_of_afterScheme? read given
  exact ⟨scheme, slashes, rest, whole, free, areSlashes, begins⟩

/-! ## What is shown -/

variable {scheme user : String}

theorem toList_addressed (scheme user password rest : String) :
    (addressed scheme user password rest).toList =
      scheme.toList ++ ':' :: '/' :: '/' :: userAt user.toList password.toList rest.toList := by
  simp [addressed, userAt]

/-- The URL that a text is, up to its password. -/
theorem addressed_secret (denies : DeniesAt toAscii) (named : ':' ∉ scheme.toList)
    (enclosedUser : Enclosed user.toList) (rest : String) :
    ∃ shape : Option Url, (∀ u ∈ shape, u.TakesPassword) ∧
      ∀ password, IsSecret password → ∃ secret,
        ofChars? toAscii (addressed scheme user password rest).toList =
          shape.map (·.withSecret secret) := by
  obtain ⟨shape, takes, isShape⟩ := ofChars?_secret denies named enclosedUser rest.toList
  refine ⟨shape, takes, ?_⟩
  intro password isSecret
  rw [toList_addressed]
  exact isShape password.toList (by simpa using isSecret.1) isSecret.2

theorem redactedTextBy_of_shape {shape : Option Url} (takes : ∀ u ∈ shape, u.TakesPassword)
    {text : String} {secret : List Char}
    (read : ofChars? toAscii text.toList = shape.map (·.withSecret secret)) :
    redactedTextBy toAscii text =
      (shape.map fun u => String.ofList (u.withSecret mask).chars).getD "***" := by
  rw [redactedTextBy, read]
  cases shape with
  | none => rfl
  | some u => simp only [Option.map_some, redacted_withSecret (takes u rfl), Option.getD_some]

end Url

open Url

/-- Under every conversion of domains that refuses at signs, whatever password of the database stands
in front of the host, the same text is shown, with asterisks in the place of the password if the whole
is a URL; and a URL without a password is shown as it is read. -/
theorem Settings.database_password_is_hidden {toAscii : ToAscii} (denies : DeniesAt toAscii)
    {scheme user : String} (named : ':' ∉ scheme.toList) (enclosedUser : Enclosed user.toList)
    (rest : String) :
    (∀ (s t : Settings) (p q : String), IsSecret p → IsSecret q →
      s.databaseUrl = addressed scheme user p rest → t.databaseUrl = addressed scheme user q rest →
        s.shownDatabaseUrlBy toAscii = t.shownDatabaseUrlBy toAscii) ∧
    (∀ (s : Settings) (p : String) (u : Url), IsSecret p →
      s.databaseUrl = addressed scheme user p rest →
        ofChars? toAscii s.databaseUrl.toList = some u →
          ∃ a secret, u.authority = some a ∧ a.password = some secret ∧
            s.shownDatabaseUrlBy toAscii = String.ofList
              { u with authority := some { a with password := some "*****".toList } }.chars) ∧
    (∀ (s : Settings) (u : Url), ofChars? toAscii s.databaseUrl.toList = some u →
      (¬ WritesPassword s.databaseUrl ∨ u.password? = none) →
        s.shownDatabaseUrlBy toAscii = String.ofList u.chars) := by
  obtain ⟨shape, takes, isShape⟩ := addressed_secret denies named enclosedUser rest
  refine ⟨?_, ?_, ?_⟩
  · intro s t p q isSecret isSecret' isUrl isUrl'
    obtain ⟨secret, read⟩ := isShape p isSecret
    obtain ⟨secret', read'⟩ := isShape q isSecret'
    rw [shownDatabaseUrlBy, isUrl, redactedTextBy_of_shape takes read, shownDatabaseUrlBy, isUrl',
      redactedTextBy_of_shape takes read']
  · intro s p u isSecret isUrl isRead
    obtain ⟨secret, read⟩ := isShape p isSecret
    rw [isUrl, read] at isRead
    obtain ⟨v, isShape, rfl⟩ := Option.map_eq_some_iff.mp isRead
    obtain ⟨notFile, a, isAuthority, hosted⟩ := takes v isShape
    refine ⟨a.withSecret secret, secret, by rw [withSecret, isAuthority]; rfl, rfl, ?_⟩
    rw [shownDatabaseUrlBy, isUrl, redactedTextBy_of_shape takes read, isShape, Option.map_some,
      Option.getD_some, withSecret, isAuthority]
    rfl
  · intro s u isRead without
    have free : u.password? = none := by
      rcases without with unwritten | free
      · rw [Option.eq_none_iff_forall_ne_some]
        intro secret given
        exact unwritten (writesPassword_of_ofChars? isRead given)
      · exact free
    rw [shownDatabaseUrlBy, redactedTextBy_of_ofChars? isRead, redacted_of_no_password free]

def Settings.withDatabaseAt (url : String) : Settings where
  databaseUrl := url
  poolSize := 5
  runsMigrations := true
  host := "127.0.0.1"
  port := 3000
  secret := "a secret of the service"
  issuer := "marketplace"
  audience := "marketplace-clients"
  expiryMinutes := 60
  allowedOrigins := none

/-- A user name with a colon in it, and a password with an at sign, at a host that is written in two
cases and beyond ASCII. -/
def Settings.crowdedUrl (password : String) : String :=
  addressed "https" "al:ice" password "B\u00fccher.Example:5432/db?x=1#f"

theorem Settings.database_password_is_hidden_crowded :
    DeniesAt simpleToAscii ∧ ':' ∉ "https".toList ∧ Enclosed "al:ice".toList ∧
    IsSecret "p@:1" ∧ IsSecret "hush" ∧
    (withDatabaseAt (crowdedUrl "p@:1")).shownDatabaseUrl =
      (withDatabaseAt (crowdedUrl "hush")).shownDatabaseUrl ∧
    (∃ u a secret, ofChars? simpleToAscii (crowdedUrl "p@:1").toList = some u ∧
      u.authority = some a ∧ a.password = some secret ∧
      (withDatabaseAt (crowdedUrl "p@:1")).shownDatabaseUrl = String.ofList
        { u with authority := some { a with password := some "*****".toList } }.chars) ∧
    (withDatabaseAt "postgres://ann@localhost:5432/db").shownDatabaseUrl =
      "postgres://ann@localhost:5432/db" := by
  obtain ⟨same, shown, unchanged⟩ :=
    @database_password_is_hidden simpleToAscii simpleToAscii_deniesAt "https" "al:ice" (by decide)
      (by decide) "B\u00fccher.Example:5432/db?x=1#f"
  have isSecret : IsSecret "p@:1" := by decide
  have isSecret' : IsSecret "hush" := by decide
  obtain ⟨u, isUrl⟩ : ∃ u, ofChars? simpleToAscii (crowdedUrl "p@:1").toList = some u :=
    Option.isSome_iff_exists.mp (by decide +kernel)
  obtain ⟨a, secret, isAuthority, given, isShown⟩ :=
    shown (withDatabaseAt (crowdedUrl "p@:1")) "p@:1" u isSecret rfl isUrl
  have isPlain : (ofChars? simpleToAscii "postgres://ann@localhost:5432/db".toList).map
      (fun v => (v.password?, v.chars)) =
        some (none, "postgres://ann@localhost:5432/db".toList) := by
    decide +kernel
  obtain ⟨v, isRead, written⟩ := Option.map_eq_some_iff.mp isPlain
  simp only [Prod.mk.injEq] at written
  refine ⟨simpleToAscii_deniesAt, by decide, by decide, isSecret, isSecret',
    same _ _ _ _ isSecret isSecret' rfl rfl, ⟨u, a, secret, isUrl, isAuthority, given, isShown⟩, ?_⟩
  have plain := unchanged (withDatabaseAt "postgres://ann@localhost:5432/db") v isRead (.inr written.1)
  rw [written.2, String.ofList_toList] at plain
  exact plain

end GigBoard
