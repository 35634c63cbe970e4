import GigBoard.Text.Blank
import GigBoard.Text.Integer

/-!
# Pages of a list

Long lists are answered page by page.  A page is asked for by two texts, its number and its size;
what is no number of 64 bits counts as not given, and numbers out of bounds are brought to the nearest
bound.  The arithmetic is that of signed numbers of 64 bits, and a result outside their range is a
fault.
-/

set_option autoImplicit false

namespace GigBoard

inductive ArithmeticFault where
  | addOverflow
  | subtractOverflow
  | divideByZero
  deriving DecidableEq, Repr

def ArithmeticFault.message : ArithmeticFault → String
  | .addOverflow => "attempt to add with overflow"
  | .subtractOverflow => "attempt to subtract with overflow"
  | .divideByZero => "attempt to divide by zero"

structure Page where
  page : Int
  limit : Int
  deriving DecidableEq, Repr

namespace Page

def defaultLimit : Int := 10

def greatestLimit : Int := 100

/-- The number of 64 bits that is nearest to a number. -/
def saturate (n : Int) : Int :=
  max Text.IntegerRange.int64.low (min Text.IntegerRange.int64.high n)

/-- How many rows lie in front of the page.  A page too far away begins at the greatest number. -/
def offset (p : Page) : Except ArithmeticFault Int :=
  if Text.IntegerRange.int64.contains (p.page - 1) then .ok (saturate ((p.page - 1) * p.limit))
  else .error .subtractOverflow

def totalPages (p : Page) (total : Int) : Except ArithmeticFault Int :=
  if total ≤ 0 then .ok 0
  else if !Text.IntegerRange.int64.contains (total + p.limit) then .error .addOverflow
  else if p.limit = 0 then .error .divideByZero
  else .ok ((total + p.limit - 1).tdiv p.limit)

end Page

/-- What is asked for about a page, as it was written. -/
structure PageQuery where
  page : Option String
  limit : Option String
  deriving DecidableEq, Repr

namespace PageQuery

def number? (text : Option String) : Option Int :=
  text.bind fun s => Text.integer? .int64 (Text.trim s)

def resolve (q : PageQuery) : Page where
  page := max 1 ((number? q.page).getD 1)
  limit := max 1 (min Page.greatestLimit ((number? q.limit).getD Page.defaultLimit))

end PageQuery

end GigBoard
