import GigBoard.Text.Percent
import GigBoard.Url.Address

/-!
# Hosts of URLs

A host is a name or an address.  URLs of the well-known schemes have domains as host names, which are
brought into ASCII form, and into an address if they end in a number.  Other schemes have names of any
characters but a few.

The ASCII form of a domain is a matter of UTS 46 and its tables of Unicode.  Reading a URL does not
look into it: it takes the conversion as an argument.
-/

set_option autoImplicit false

namespace GigBoard.Url

/-- A host; the empty name stands for none. -/
inductive Host where
  | name (text : List Char)
  | ipv4 (address : Nat)
  | ipv6 (groups : List Nat)
  deriving DecidableEq, Repr

namespace Host

def chars : Host → List Char
  | .name text => text
  | .ipv4 address => ipv4Chars address
  | .ipv6 groups => '[' :: (ipv6Chars groups ++ [']'])

def isEmpty (host : Host) : Bool := host = .name []

end Host

def isControl (c : Char) : Bool := c.toNat < 0x20 || c.toNat = 0x7F

def forbiddenInHost : List Char :=
  [' ', '#', '/', ':', '<', '>', '?', '@', '[', '\\', ']', '^', '|']

def bracketed? (cs : List Char) : Option Host :=
  if cs.getLast? = some ']' then (ipv6? cs.dropLast).map .ipv6 else none

/-- The host of a URL of any other scheme. -/
def plainHost? (cs : List Char) : Option Host :=
  match cs with
  | '[' :: rest => bracketed? rest
  | cs =>
    if cs.any fun c => c.toNat = 0 || forbiddenInHost.contains c then none
    else some (.name (Text.Percent.encode isControl cs))

/-- A conversion of domains, given by their octets, into ASCII form; it refuses what is no domain. -/
abbrev ToAscii := List UInt8 → Option (List Char)

def domainHost? (toAscii : ToAscii) (cs : List Char) : Option Host :=
  match cs with
  | '[' :: rest => bracketed? rest
  | cs =>
    (toAscii (Text.Percent.decode (Text.Utf8.encode cs))).bind fun name =>
      if name.isEmpty then none
      else if endsInNumber name then (ipv4? name).map .ipv4
      else some (.name name)

end GigBoard.Url
