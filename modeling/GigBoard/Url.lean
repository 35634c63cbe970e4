import GigBoard.Url.Domain

/-!
# URLs

URLs by the rules of the web: blanks around them and tabs and line breaks inside are left out, the
scheme decides how the rest is read, a path is cleared of its dot segments, and characters that may
not stand in a part are escaped there.  `Url.ofChars?` reads under any conversion of domains,
`Url.chars` writes, and `Url.redacted` writes with asterisks in the place of a password.
-/

set_option autoImplicit false

namespace GigBoard

structure Url.Authority where
  username : List Char
  password : Option (List Char)
  host : Url.Host
  port : Option Nat
  deriving DecidableEq, Repr

/-- What is asked for: a list of segments, or a text without such a structure. -/
inductive Url.Path where
  | segments (names : List (List Char))
  | rootless (text : List Char)
  deriving DecidableEq, Repr

/-- A URL in parts, each in its escaped form. -/
structure Url where
  scheme : List Char
  authority : Option Url.Authority
  path : Url.Path
  query : Option (List Char)
  fragment : Option (List Char)
  deriving DecidableEq, Repr

namespace Url

/-! ## Classes of characters -/

def escapedInFragment (c : Char) : Bool :=
  isControl c || c = ' ' || c = '"' || c = '<' || c = '>' || c.toNat = 0x60

def escapedInPath (c : Char) : Bool :=
  escapedInFragment c || c = '#' || c = '?' || c = '\x7b' || c = '\x7d'

def escapedInUserInfo (c : Char) : Bool :=
  escapedInPath c || ['/', ':', ';', '=', '@', '[', '\\', ']', '^', '|'].contains c

def escapedInQuery (special : Bool) (c : Char) : Bool :=
  isControl c || c = ' ' || c = '"' || c = '#' || c = '<' || c = '>' || (special && c = '\'')

/-! ## Schemes -/

/-- How the part after the scheme is read. -/
inductive SchemeKind where
  | file
  | special (defaultPort : Nat)
  | other
  deriving DecidableEq, Repr

def SchemeKind.of (scheme : List Char) : SchemeKind :=
  if scheme = "file".toList then .file
  else if scheme = "http".toList ∨ scheme = "ws".toList then .special 80
  else if scheme = "https".toList ∨ scheme = "wss".toList then .special 443
  else if scheme = "ftp".toList then .special 21
  else .other

def SchemeKind.isSpecial : SchemeKind → Bool
  | .other => false
  | _ => true

/-- The scheme in front of the first colon, in lower case, and what follows. -/
def scheme? (cs : List Char) : Option (List Char × List Char) :=
  match cs with
  | [] => none
  | c :: _ =>
    if c.isAlpha then
      let name := cs.takeWhile fun c => c.isAlphanum || c = '+' || c = '-' || c = '.'
      match cs.dropWhile fun c => c.isAlphanum || c = '+' || c = '-' || c = '.' with
      | ':' :: rest => some (name.map Char.toLower, rest)
      | _ => none
    else none

/-! ## Paths -/

def isSlash (special : Bool) (c : Char) : Bool := c = '/' || (special && c = '\\')

def endsPath (c : Char) : Bool := c = '?' || c = '#'

def plainDots : List Char → List Char
  | '%' :: '2' :: e :: rest =>
    if e = 'e' ∨ e = 'E' then '.' :: plainDots rest else '%' :: '2' :: e :: rest
  | '.' :: rest => '.' :: plainDots rest
  | cs => cs

def isDrive (segment : List Char) : Bool :=
  match segment with
  | [letter, mark] => letter.isAlpha && (mark = ':' || mark = '|')
  | _ => false

/-- The path above the last segment; the drive of a file stays. -/
def parent (file : Bool) (names : List (List Char)) : List (List Char) :=
  match names with
  | [drive] => if file && isDrive drive then [drive] else []
  | names => names.dropLast

def keptSegment (file : Bool) (names : List (List Char)) (segment : List Char) : List Char :=
  match segment with
  | [letter, _] =>
    if file && names.isEmpty && isDrive segment then [letter, ':']
    else Text.Percent.encode escapedInPath segment
  | _ => Text.Percent.encode escapedInPath segment

/-- Walks along the segments of a path from the one reached so far. -/
def walk (file : Bool) (names : List (List Char)) : List (List Char) → List (List Char)
  | [] => names
  | segment :: rest =>
    if plainDots segment = ['.', '.'] then
      let up := parent file names
      walk file (if rest.isEmpty then up ++ [[]] else up) rest
    else if plainDots segment = ['.'] then
      walk file (if rest.isEmpty then names ++ [[]] else names) rest
    else walk file (names ++ [keptSegment file names segment]) rest

def segmentsOf (kind : SchemeKind) (cs : List Char) : List (List Char) :=
  let slashed := cs.map fun c => if isSlash kind.isSpecial c then '/' else c
  let names := walk (kind = .file) [] (Text.splitAt '/' slashed)
  if kind = .file then
    match names.dropWhile List.isEmpty with
    | [] => [[]]
    | names => names
  else names

def pathAfterAuthority (kind : SchemeKind) (cs : List Char) : Path :=
  match cs.takeWhile (!endsPath ·) with
  | [] => .segments (if kind.isSpecial then [[]] else [])
  | c :: rest => .segments (segmentsOf kind (if isSlash kind.isSpecial c then rest else c :: rest))

def pathWithoutAuthority (cs : List Char) : Path :=
  match cs.takeWhile (!endsPath ·) with
  | '/' :: rest => .segments (segmentsOf .other rest)
  | text => .rootless (Text.Percent.encode isControl text)

/-! ## Authorities -/

def userInfo (cs : List Char) : List Char × Option (List Char) :=
  let (user, password) := Text.cutFirst ':' cs
  let escaped := Text.Percent.encode escapedInUserInfo
  match password with
  | none => (escaped user, none)
  | some [] => (escaped user, none)
  | some password => (escaped user, some (escaped password))

/-- The host at the front of a text, as far as a colon outside brackets, and what follows. -/
def cutHost (inside : Bool) : List Char → List Char × List Char
  | [] => ([], [])
  | c :: cs =>
    if c = ':' && !inside then ([], c :: cs)
    else
      let (host, rest) := cutHost (if c = '[' then true else if c = ']' then false else inside) cs
      (c :: host, rest)

/-- The port behind a host, and the text behind the port.  A default port is left out. -/
def port? (kind : SchemeKind) (cs : List Char) : Option (Option Nat × List Char) :=
  match cs with
  | ':' :: rest =>
    let digits := rest.takeWhile Char.isDigit
    let behind := rest.dropWhile Char.isDigit
    match digitsOfBase? 10 digits with
    | none => none
    | some n =>
      if 65535 < n ∨ (behind ≠ [] ∧ behind.head? ≠ some '\\') then none
      else if digits.isEmpty || kind = .special n then some (none, behind)
      else some (some n, behind)
  | cs => some (none, cs)

/-- The authority of a text that ends where the path begins, and a part of the path if it was
written without a slash. -/
def authority? (toAscii : ToAscii) (kind : SchemeKind) (credentials : List Char × Option (List Char))
    (cs : List Char) : Option (Authority × List Char) :=
  let (hostText, rest) := cutHost false cs
  let host := if kind.isSpecial then domainHost? toAscii hostText else plainHost? hostText
  match host, port? kind rest with
  | some host, some (port, behind) =>
    let named := !credentials.1.isEmpty || credentials.2.isSome
    if host.isEmpty && (kind.isSpecial || named || !rest.isEmpty) then none
    else some (⟨credentials.1, credentials.2, host, port⟩, behind)
  | _, _ => none

/-- Splits a text that begins with an authority into the authority and the path onwards. -/
def splitAuthority? (toAscii : ToAscii) (kind : SchemeKind) (cs : List Char) :
    Option (Authority × List Char) :=
  let ends (c : Char) : Bool := isSlash kind.isSpecial c || endsPath c
  let front := cs.takeWhile (!ends ·)
  let tail := cs.dropWhile (!ends ·)
  let split : Option (Authority × List Char) :=
    match Text.cutLast '@' front with
    | none => authority? toAscii kind ([], none) front
    | some ([], host) =>
      if host.isEmpty && !tail.isEmpty then none else authority? toAscii kind ([], none) host
    | some (user, host) => authority? toAscii kind (userInfo user) host
  split.map fun (authority, behind) => (authority, behind ++ tail)

/-! ## Whole URLs -/

def queryAndFragment (special : Bool) (cs : List Char) :
    Option (List Char) × Option (List Char) :=
  let (front, fragment) := Text.cutFirst '#' (cs.dropWhile (!endsPath ·))
  let query := if front.isEmpty then none else some (front.drop 1)
  (query.map (Text.Percent.encode (escapedInQuery special)),
    fragment.map (Text.Percent.encode escapedInFragment))

def assemble (scheme : List Char) (authority : Option Authority) (path : Path) (special : Bool)
    (cs : List Char) : Url :=
  let (query, fragment) := queryAndFragment special cs
  ⟨scheme, authority, path, query, fragment⟩

def file? (toAscii : ToAscii) (scheme : List Char) (cs : List Char) : Option Url :=
  let build (host : Host) (cs : List Char) : Url :=
    let path := pathAfterAuthority .file cs
    let onDrive : Bool :=
      match path with
      | .segments (drive :: _) => isDrive drive
      | _ => false
    let authority : Authority := ⟨[], none, if onDrive then .name [] else host, none⟩
    assemble scheme (some authority) path true cs
  match cs with
  | a :: b :: rest =>
    if isSlash true a && isSlash true b then
      let hostText := rest.takeWhile fun c => !(isSlash true c || endsPath c)
      let tail := rest.dropWhile fun c => !(isSlash true c || endsPath c)
      if isDrive hostText then some (build (.name []) ('/' :: rest))
      else if hostText.isEmpty then some (build (.name []) tail)
      else
        (domainHost? toAscii hostText).map fun host =>
          build (if host = .name "localhost".toList then .name [] else host) tail
    else some (build (.name []) cs)
  | cs => some (build (.name []) cs)

def afterScheme? (toAscii : ToAscii) (scheme : List Char) (cs : List Char) : Option Url :=
  let kind := SchemeKind.of scheme
  match kind with
  | .file => file? toAscii scheme cs
  | .special _ =>
    (splitAuthority? toAscii kind (cs.dropWhile (isSlash true))).map fun (authority, rest) =>
      assemble scheme (some authority) (pathAfterAuthority kind rest) true rest
  | .other =>
    match cs with
    | '/' :: '/' :: rest =>
      (splitAuthority? toAscii kind rest).map fun (authority, rest) =>
        assemble scheme (some authority) (pathAfterAuthority kind rest) false rest
    | cs => some (assemble scheme none (pathWithoutAuthority cs) false cs)

/-- A text without the blanks and control characters at both ends, and without tabs and line
breaks. -/
def cleaned (cs : List Char) : List Char :=
  let isOuter (c : Char) : Bool := c.toNat ≤ 0x20
  let inner := ((cs.dropWhile isOuter).reverse.dropWhile isOuter).reverse
  inner.filter fun c => c ≠ '\t' && c ≠ '\n' && c ≠ '\r'

def ofChars? (toAscii : ToAscii) (cs : List Char) : Option Url :=
  (scheme? (cleaned cs)).bind fun (scheme, rest) => afterScheme? toAscii scheme rest

def Authority.userChars (a : Authority) : List Char :=
  match a.password with
  | some password => a.username ++ ':' :: (password ++ ['@'])
  | none => if a.username.isEmpty then [] else a.username ++ ['@']

def Authority.chars (a : Authority) : List Char :=
  a.userChars ++ a.host.chars ++
    match a.port with
    | some port => ':' :: Nat.toDigits 10 port
    | none => []

def Path.chars : Path → List Char
  | .segments names => names.flatMap ('/' :: ·)
  | .rootless text => text

/-- Whether a path could be taken for an authority. -/
def Path.looksLikeAuthority : Path → Bool
  | .segments ([] :: _ :: _) => true
  | _ => false

def chars (u : Url) : List Char :=
  u.scheme ++ ':' :: ((match u.authority with
    | some a => '/' :: '/' :: a.chars
    | none => if u.path.looksLikeAuthority then ['/', '.'] else []) ++
    u.path.chars ++ (match u.query with
    | some query => '?' :: query
    | none => []) ++ (match u.fragment with
    | some fragment => '#' :: fragment
    | none => []))

def mask : List Char := List.replicate 5 '*'

def password? (u : Url) : Option (List Char) := u.authority.bind (·.password)

/-- The same URL with another password, or without one if it is empty.  This is refused where there
is no host that a password could be for. -/
def withPassword? (u : Url) (password : List Char) : Option Url :=
  u.authority.bind fun a =>
    if a.host.isEmpty || u.scheme = "file".toList then none
    else
      let kept :=
        if password.isEmpty then none else some (Text.Percent.encode escapedInUserInfo password)
      some { u with authority := some { a with password := kept } }

/-- The same URL with its password hidden; it stays as it is if the change is refused. -/
def redacted (u : Url) : Url :=
  match u.password? with
  | none => u
  | some _ => (u.withPassword? mask).getD u

/-- A text that is a URL under a conversion of domains, with its password hidden; asterisks for any
other text. -/
def redactedTextBy (toAscii : ToAscii) (s : String) : String :=
  match ofChars? toAscii s.toList with
  | some u => String.ofList u.redacted.chars
  | none => "***"

def redactedText (s : String) : String := redactedTextBy simpleToAscii s

end Url

end GigBoard
