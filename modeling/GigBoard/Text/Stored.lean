/-!
# Texts that can be stored

A column may bound the number of characters of its texts, and none holds the character U+0000.
-/

set_option autoImplicit false

namespace GigBoard.Text

/-- Whether a text holds no U+0000. -/
def isStorable (s : String) : Bool := s.toList.all fun c => c.toNat != 0

def fitsColumn (size : Nat) (s : String) : Bool := decide (s.length ≤ size) && isStorable s

end GigBoard.Text
