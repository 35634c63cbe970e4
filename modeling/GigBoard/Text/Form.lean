import GigBoard.Text.Percent
import GigBoard.Text.Split

/-!
# Form-encoded pairs

The query of a request as names and values: pairs between `&`, the value after the first `=`, a plus
sign for a space, percent escapes for the rest, and U+FFFD where the octets are not UTF-8.
-/

set_option autoImplicit false

namespace GigBoard.Text.Form

def decodeText (cs : List Char) : String :=
  let octets := Utf8.encode (cs.map fun c => if c = '+' then ' ' else c)
  String.ofList (Utf8.decodeLossy (Percent.decode octets))

/-- A pair in its decoded form; without an equals sign the value is empty. -/
def decodePair (cs : List Char) : String × String :=
  let (name, value) := cutFirst '=' cs
  (decodeText name, decodeText (value.getD []))

/-- The pairs of a query in their order; empty pieces are no pairs. -/
def pairs (query : String) : List (String × String) :=
  ((splitAt '&' query.toList).filter (!·.isEmpty)).map decodePair

end GigBoard.Text.Form
