import GigBoard.Json
import GigBoard.Text.Blank

/-!
# Changes of optional texts

A partial update says for each optional text whether it stays, goes, or is replaced: a member that is
absent keeps it, null or a blank text clears it, and another text replaces it without the blanks
around it.
-/

set_option autoImplicit false

namespace GigBoard.Account

/-- What becomes of an optional text. -/
inductive TextPatch where
  | keep
  | clear
  | set (text : String)
  deriving DecidableEq, Repr

namespace TextPatch

/-- The patch that a member stands for; none if it is neither text nor null. -/
def ofMember? : Option Json → Option TextPatch
  | none => some .keep
  | some .null => some .clear
  | some (.string s) =>
    match Text.nonBlank? s with
    | none => some .clear
    | some text => some (.set text)
  | some _ => none

def refusal (field : String) (value : Json) : String :=
  field ++ " must be a string or null, got " ++ value.text

def change? : TextPatch → Option (Option String)
  | .keep => none
  | .clear => some none
  | .set text => some (some text)

def apply (patch : TextPatch) (current : Option String) : Option String :=
  patch.change?.getD current

end TextPatch

end GigBoard.Account
