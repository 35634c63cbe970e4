import GigBoard.Text.LowerCase.Table

/-!
# Lower case

The lower-case form of a text by the full Unicode mapping.  One letter depends on what stands around
it: a capital sigma at the end of a word, that is after a cased letter and before none, becomes the
final form.
-/

set_option autoImplicit false

namespace GigBoard.Text.LowerCase

def isCased (c : Char) : Bool := inRanges casedRanges c.toNat

/-- Whether a character is looked through when the letters around a sigma are asked for. -/
def isIgnorable (c : Char) : Bool := inRanges ignorableRanges c.toNat

def ofChar (c : Char) : List Char :=
  if c.toNat < 0x80 then [c.toLower]
  else if c.toNat = 0x130 then ['i', Char.ofNat 0x307]
  else
    match caseRuns.find? (·.holds c.toNat) with
    | none => [c]
    | some run => [Char.ofNat (c.toNat + run.shift).toNat]

def casedAhead : List Char → Bool
  | [] => false
  | c :: cs => if isIgnorable c then casedAhead cs else isCased c

/-- The form of one character after a cased letter or none, and before the given ones. -/
def inContext (afterCased : Bool) (c : Char) (ahead : List Char) : List Char :=
  if c.toNat = 0x3A3 then
    if afterCased && !casedAhead ahead then [Char.ofNat 0x3C2] else [Char.ofNat 0x3C3]
  else ofChar c

/-- The lower-case form of the rest of a text, in reverse, in front of what was done before. -/
def lowerInto (acc : List Char) (afterCased : Bool) : List Char → List Char
  | [] => acc
  | c :: cs =>
    lowerInto ((inContext afterCased c cs).reverse ++ acc)
      (if isIgnorable c then afterCased else isCased c) cs

def ofChars (cs : List Char) : List Char := (lowerInto [] false cs).reverse

def ofString (s : String) : String := String.ofList (ofChars s.toList)

end GigBoard.Text.LowerCase
