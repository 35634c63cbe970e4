import GigBoard.Json.Decoder

/-!
# Reading JSON values

Any JSON value, with the members of each object in the order of their names.  Of several members with
one name the last counts.  Arrays and objects may lie in one another to a fixed depth.
-/

set_option autoImplicit false

namespace GigBoard.Json

/-- The number of arrays and objects that may lie in one another. -/
def greatestDepth : Nat := 127

def addMember (members : List (String × Json)) (member : String × Json) : List (String × Json) :=
  match members with
  | [] => [member]
  | last :: _ => if last.1 = member.1 then members else member :: members

/-- The members of an object in the order of their names, from their reverse order in the text. -/
def arranged (latestFirst : List (String × Json)) : List (String × Json) :=
  ((latestFirst.mergeSort fun a b => decide (a.1 ≤ b.1)).foldl addMember []).reverse

/-- The rest of an object, in front of the members already read.  The first list bounds the number of
steps: it has an octet for each member that may follow and one for the closing brace. -/
def objectMembers (item : Decoder Json) :
    List UInt8 → Bool → List (String × Json) → Decoder (List (String × Json))
  | [], _, _, _ => .error .malformed
  | _ :: bound, first, acc, bs =>
    match nextMember first bs with
    | .error f => .error f
    | .ok (none, rest) => .ok (arranged acc, rest)
    | .ok (some name, rest) =>
      match (afterColon rest).bind item with
      | .error f => .error f
      | .ok (value, rest') => objectMembers item bound false ((name, value) :: acc) rest'

/-- A value that is neither array nor object; an opening bracket or brace and the octets behind it
are left to the given reader. -/
def readUpTo (nested : Frame → Decoder Json) : Decoder Json := fun bs =>
  match skipSpace bs with
  | [] => .error .malformed
  | b :: rest =>
    if b = octet 'n' then (expectWord ("ull".toList.map octet) rest).map (.null, ·)
    else if b = octet 't' then (expectWord ("rue".toList.map octet) rest).map (.bool true, ·)
    else if b = octet 'f' then (expectWord ("alse".toList.map octet) rest).map (.bool false, ·)
    else if b = octet '-' then (scanNumber false rest).map fun r => (r.1.toJson, r.2)
    else if isDigit b then (scanNumber true (b :: rest)).map fun r => (r.1.toJson, r.2)
    else if b = octet '"' then (scanString rest).map fun r => (.string r.1, r.2)
    else if b = octet '[' then nested .array (b :: rest)
    else if b = 0x7b then nested .object (b :: rest)
    else .error .malformed

/-- A value in which at most the given number of arrays and objects lie in one another. -/
def readValue : Nat → Decoder Json
  | 0 => readUpTo fun _ _ => .error .malformed
  | depth + 1 =>
    readUpTo fun frame bs =>
      match frame with
      | .array =>
        (Decoder.elements (readValue depth) bs true [] bs.tail).map fun r => (.array r.1, r.2)
      | .object =>
        (objectMembers (readValue depth) bs true [] bs.tail).map fun r => (.object r.1, r.2)

def Decoder.json : Decoder Json := readValue greatestDepth

def ofText? (s : String) : Option Json :=
  (Decoder.json.whole (Text.Utf8.ofString s)).toOption

end GigBoard.Json
