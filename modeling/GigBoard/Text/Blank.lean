/-!
# White space

The characters of the Unicode property `White_Space`, and texts with the white space at both ends
removed.  Everywhere in this library "blank" and "trimmed" mean this property.
-/

set_option autoImplicit false

namespace GigBoard.Text

/-- The characters with the Unicode property `White_Space`. -/
def isBlank (c : Char) : Bool :=
  let n := c.toNat
  (9 ≤ n && n ≤ 13) || n == 0x20 || n == 0x85 || n == 0xA0 || n == 0x1680 ||
    (0x2000 ≤ n && n ≤ 0x200A) || n == 0x2028 || n == 0x2029 || n == 0x202F || n == 0x205F ||
    n == 0x3000

def dropBlankEnd (cs : List Char) : List Char :=
  (cs.reverse.dropWhile isBlank).reverse

def trimmed (cs : List Char) : List Char :=
  dropBlankEnd (cs.dropWhile isBlank)

def trim (s : String) : String := String.ofList (trimmed s.toList)

/-- The trimmed text, if anything is left of it. -/
def nonBlank? (s : String) : Option String :=
  match trimmed s.toList with
  | [] => none
  | cs => some (String.ofList cs)

end GigBoard.Text
