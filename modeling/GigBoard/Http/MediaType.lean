import GigBoard.Http.Message

/-!
# Media types

A media type is a type and a subtype around a slash, and parameters behind semicolons.  The part of
the subtype behind its last plus sign is its suffix.  A request carries JSON if its type is
`application` and its subtype or suffix is `json`.
-/

set_option autoImplicit false

namespace GigBoard.Http.MediaType

def isToken (c : Char) : Bool :=
  c.isAlphanum ||
    ['!', '#', '$', '%', '&', '\'', '*', '+', '-', '.', '^', '_', '|', '~'].contains c ||
    c.toNat = 0x60

def isQuotable (c : Char) : Bool := 31 < c.toNat && c.toNat ≠ 127

/-- Where the reading of parameters stands: before or in a name, before or in a value, or behind a
quoted value. -/
inductive Place where
  | beforeName
  | inName
  | beforeValue
  | inValue
  | quoteOpened
  | inQuoted
  | afterQuoted
  deriving DecidableEq, Repr

/-- The place after one more character, if the character may stand there.  The first character of a
quoted value may be a quote. -/
def Place.next? (c : Char) : Place → Option Place
  | .beforeName => if c = ' ' then some .beforeName else if isToken c then some .inName else none
  | .inName => if isToken c then some .inName else if c = '=' then some .beforeValue else none
  | .beforeValue =>
    if c = '"' then some .quoteOpened else if isToken c then some .inValue else none
  | .inValue => if isToken c then some .inValue else if c = ';' then some .beforeName else none
  | .quoteOpened => if isQuotable c then some .inQuoted else none
  | .inQuoted =>
    if c = '"' then some .afterQuoted else if isQuotable c then some .inQuoted else none
  | .afterQuoted =>
    if c = ';' then some .beforeName else if c = ' ' then some .afterQuoted else none

def Place.mayEnd : Place → Bool
  | .beforeName => true
  | .beforeValue => true
  | .inValue => true
  | .afterQuoted => true
  | _ => false

def areParameters (place : Place) : List Char → Bool
  | [] => place.mayEnd
  | c :: cs =>
    match place.next? c with
    | none => false
    | some place' => areParameters place' cs

/-- The subtype without its suffix, and the suffix; a plus sign at the front begins no suffix. -/
def cutSuffix (cs : List Char) : List Char × Option (List Char) :=
  match Text.cutLast '+' cs with
  | none => (cs, none)
  | some ([], _) => (cs, none)
  | some (front, suffix) => (front, some suffix)

def isJson (text : String) : Bool :=
  let lower := text.toList.map Char.toLower
  match Text.cutFirst '/' lower with
  | (_, none) => false
  | (type, some rest) =>
    let (subtype, parameters) := Text.cutFirst ';' rest
    let (name, suffix) := cutSuffix subtype
    isPlain text.toList && type = "application".toList && !subtype.isEmpty &&
      subtype.all isToken && areParameters .beforeName (parameters.getD []) &&
      (name = "json".toList || suffix = some "json".toList)

end GigBoard.Http.MediaType
