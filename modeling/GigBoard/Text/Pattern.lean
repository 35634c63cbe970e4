/-!
# Search patterns

Patterns over texts: `%` stands for any run of characters, `_` for any one, and a backslash makes
the next character literal.  Letters of the ASCII alphabet match in either case.  `around` turns a
search text into the pattern that looks for it anywhere, with its special characters escaped.
-/

set_option autoImplicit false

namespace GigBoard.Text

inductive PatternPiece where
  | anyRun
  | anyOne
  | literal (c : Char)
  deriving DecidableEq, Repr

namespace Pattern

/-- The elements of a pattern; none for a pattern that ends in an open escape. -/
def parse? : List Char → Option (List PatternPiece)
  | [] => some []
  | '%' :: cs => (parse? cs).map (.anyRun :: ·)
  | '_' :: cs => (parse? cs).map (.anyOne :: ·)
  | ['\\'] => none
  | '\\' :: c :: cs => (parse? cs).map (.literal c :: ·)
  | c :: cs => (parse? cs).map (.literal c :: ·)

/-- Equality of characters up to the case of ASCII letters. -/
def sameLetter (a b : Char) : Bool := a.toLower = b.toLower

def accepts : List PatternPiece → List Char → Bool
  | [], [] => true
  | [], _ :: _ => false
  | .anyRun :: ps, [] => accepts ps []
  | .anyRun :: ps, c :: cs => accepts ps (c :: cs) || accepts (.anyRun :: ps) cs
  | .anyOne :: _, [] => false
  | .anyOne :: ps, _ :: cs => accepts ps cs
  | .literal _ :: _, [] => false
  | .literal a :: ps, c :: cs => sameLetter a c && accepts ps cs
termination_by ps cs => (cs.length, ps.length)

/-- Whether a pattern matches a run of characters; a malformed one matches nothing. -/
def matchesText (pattern text : List Char) : Bool :=
  match parse? pattern with
  | none => false
  | some ps => accepts ps text

def escaped (cs : List Char) : List Char :=
  cs.flatMap fun c => if c = '\\' ∨ c = '%' ∨ c = '_' then ['\\', c] else [c]

/-- The pattern that looks for a run of characters anywhere in a text. -/
def around (cs : List Char) : List Char := '%' :: (escaped cs ++ ['%'])

end Pattern

end GigBoard.Text
