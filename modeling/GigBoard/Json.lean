import GigBoard.Number.DecimalText
import GigBoard.Text.Hex

/-!
# JSON values and their text

A value keeps the members of an object in the order in which they are written.  Numbers are whole or
real, and stay what they are: a whole number is written without a fraction, a real number never.
-/

set_option autoImplicit false

namespace GigBoard

inductive Json where
  | null
  | bool (b : Bool)
  | integer (n : Int)
  | real (x : Binary64)
  | string (s : String)
  | array (elements : List Json)
  | object (members : List (String × Json))

namespace Json

instance : Inhabited Json := ⟨.null⟩

/-- Real numbers are written positionally from five zeros behind the point to sixteen digits in front
of it. -/
def realStyle : DecimalStyle := ⟨-5, 15⟩

/-- How a character is written inside a string: the quote, the backslash and the control characters
are escaped, all others stand for themselves. -/
def escapeChar (c : Char) : List Char :=
  if c = '"' then ['\\', '"']
  else if c = '\\' then ['\\', '\\']
  else if c.toNat = 8 then ['\\', 'b']
  else if c.toNat = 9 then ['\\', 't']
  else if c.toNat = 10 then ['\\', 'n']
  else if c.toNat = 12 then ['\\', 'f']
  else if c.toNat = 13 then ['\\', 'r']
  else if c.toNat < 0x20 then '\\' :: 'u' :: Text.Hex.digits 4 c.toNat
  else [c]

def quoted (s : String) : List Char := '"' :: (s.toList.flatMap escapeChar ++ ['"'])

def commaSeparated : List (List Char) → List Char
  | [] => []
  | [item] => item
  | item :: items => item ++ ',' :: commaSeparated items

mutual

def chars : Json → List Char
  | .null => "null".toList
  | .bool b => (if b then "true" else "false").toList
  | .integer n => DecimalStyle.integerText n
  | .real x => realStyle.text x
  | .string s => quoted s
  | .array elements => '[' :: (commaSeparated (elementChars elements) ++ [']'])
  | .object members => '\x7b' :: (commaSeparated (memberChars members) ++ ['\x7d'])

def elementChars : List Json → List (List Char)
  | [] => []
  | e :: es => e.chars :: elementChars es

def memberChars : List (String × Json) → List (List Char)
  | [] => []
  | (name, value) :: ms => (quoted name ++ ':' :: value.chars) :: memberChars ms

end

def text (j : Json) : String := String.ofList j.chars

/-- The member of an object with the given name; other values have none. -/
def member? (j : Json) (name : String) : Option Json :=
  match j with
  | .object members => (members.find? (·.1 = name)).map (·.2)
  | _ => none

def orNull (s : Option String) : Json :=
  match s with
  | none => .null
  | some s => .string s

/-- A member that is left out if it has no value. -/
def ifPresent (name : String) (value : Option Json) : List (String × Json) :=
  match value with
  | none => []
  | some v => [(name, v)]

end Json

end GigBoard
