import GigBoard.Json.Reader
import GigBoard.Proofs.Numerals
import GigBoard.Proofs.Rows

/-!
# JSON text read back

The text of a value is read as the value.  A string is read character by character, each in its
written form; a value is read element by element and member by member, whatever follows it.  Only the
members of objects are put in the order of their names.
-/

set_option autoImplicit false

namespace GigBoard.Json

open Text.Utf8 (encode encodeChar encode_append encode_cons toNat_toUInt8)

variable {acc bs rest : List UInt8} {c : Char} {n : Nat}

/-! ## Strings -/

/-- An octet that stands for itself inside a string: neither quote nor backslash nor a control
character. -/
def IsLiteral (b : UInt8) : Prop := 32 ≤ b.toNat ∧ b.toNat ≠ 34 ∧ b.toNat ≠ 92

theorem stringOctets_literal (literal : ∀ b ∈ bs, IsLiteral b) (acc rest : List UInt8) :
    stringOctets acc (bs ++ rest) = stringOctets (bs.reverse ++ acc) rest := by
  induction bs generalizing acc with
  | nil => rfl
  | cons b bs ih =>
      obtain ⟨⟨large, notQuote, notEscape⟩, literals⟩ := List.forall_mem_cons.mp literal
      have isNotQuote : b ≠ octet '"' := fun same => notQuote (congrArg UInt8.toNat same)
      have isNotEscape : b ≠ octet '\\' := fun same => notEscape (congrArg UInt8.toNat same)
      have isNotControl : ¬b < 32 := Nat.not_lt.mpr large
      rw [List.cons_append, stringOctets, if_neg isNotQuote, if_neg isNotEscape,
        if_neg isNotControl, ih literals, List.reverse_cons, List.append_assoc,
        List.singleton_append]

theorem stringOctets_escape {octets : List UInt8} (escaped : escape? bs = some (octets, rest))
    (acc : List UInt8) :
    stringOctets acc (octet '\\' :: bs) = stringOctets (octets.reverse ++ acc) rest := by
  rw [stringOctets, if_neg (by decide), if_pos rfl]
  split
  · rename_i failed
    rw [escaped] at failed
    cases failed
  · rename_i octets' rest' same
    rw [escaped] at same
    cases same
    rfl

/-- The octets of a character that is written as it is stand for themselves. -/
theorem isLiteral_of_encodeChar (large : 32 ≤ c.toNat) (notQuote : c.toNat ≠ 34)
    (notEscape : c.toNat ≠ 92) : ∀ b ∈ encodeChar c, IsLiteral b := by
  have beyond (n : Nat) (far : 0x80 ≤ n) : 32 ≤ n ∧ n ≠ 34 ∧ n ≠ 92 := by omega
  exact (Text.Utf8.forall_encodeChar_iff beyond c).mpr ⟨large, notQuote, notEscape⟩

theorem encode_digits (control : n < 32) : encode (Text.Hex.digits 4 n) =
    [48, 48, octet (Text.Hex.digit (n / 16)), octet (Text.Hex.digit (n % 16))] := by
  revert n
  decide +kernel

theorem hex4?_digits (control : n < 32) :
    hex4? 48 48 (octet (Text.Hex.digit (n / 16))) (octet (Text.Hex.digit (n % 16))) = some n := by
  revert n
  decide +kernel

theorem unicodeEscape?_digits (control : c.toNat < 32) (rest : List UInt8) :
    escape? (octet 'u' :: (encode (Text.Hex.digits 4 c.toNat) ++ rest)) =
      some (encodeChar c, rest) := by
  rw [encode_digits control, escape?, if_pos rfl]
  simp only [List.cons_append, List.nil_append, unicodeEscape?, hex4?_digits control]
  rw [if_neg (by omega), if_neg (by omega), Char.ofNat_toNat]

/-- A control character with a short escape is what the escape stands for. -/
theorem stringOctets_short {letter : Char} (isCode : c.toNat = n) (control : n < 32)
    (short : ∀ rest, escape? (octet letter :: rest) = some ([n.toUInt8], rest))
    (written : encode ['\\', letter] = [octet '\\', octet letter]) (acc rest : List UInt8) :
    stringOctets acc (encode ['\\', letter] ++ rest) =
      stringOctets ((encodeChar c).reverse ++ acc) rest := by
  have octets : encodeChar c = [n.toUInt8] := by
    rw [encodeChar, isCode, if_pos (by omega)]
  rw [written, octets]
  exact stringOctets_escape (short rest) acc

theorem stringOctets_escapeChar (acc : List UInt8) (c : Char) (rest : List UInt8) :
    stringOctets acc (encode (escapeChar c) ++ rest) =
      stringOctets ((encodeChar c).reverse ++ acc) rest := by
  unfold escapeChar
  -- Quote and backslash, the five short escapes, the other control characters, all the rest.
  split
  · rename_i isQuote
    subst isQuote
    exact stringOctets_escape rfl acc
  split
  · rename_i isEscape
    subst isEscape
    exact stringOctets_escape rfl acc
  split
  · exact stringOctets_short ‹_› (by decide) (fun _ => rfl) rfl acc rest
  split
  · exact stringOctets_short ‹_› (by decide) (fun _ => rfl) rfl acc rest
  split
  · exact stringOctets_short ‹_› (by decide) (fun _ => rfl) rfl acc rest
  split
  · exact stringOctets_short ‹_› (by decide) (fun _ => rfl) rfl acc rest
  split
  · exact stringOctets_short ‹_› (by decide) (fun _ => rfl) rfl acc rest
  split
  · rename_i control
    exact stringOctets_escape (unicodeEscape?_digits control rest) acc
  · rename_i notQuote notEscape _ _ _ _ _ notControl
    rw [encode, List.flatMap_singleton]
    apply stringOctets_literal
    apply isLiteral_of_encodeChar (by omega)
    · exact fun same => notQuote (Char.toNat_inj.mp same)
    · exact fun same => notEscape (Char.toNat_inj.mp same)

theorem encode_quoted (s : String) (rest : List UInt8) : encode (quoted s) ++ rest =
    octet '"' :: (encode (s.toList.flatMap escapeChar) ++ octet '"' :: rest) := by
  rw [quoted, encode_cons, encode_append, List.append_assoc, List.append_assoc]
  rfl

/-- A string is read behind its opening quote as it was written. -/
theorem scanString_quoted (s : String) (rest : List UInt8) :
    scanString (encode (s.toList.flatMap escapeChar) ++ octet '"' :: rest) = .ok (s, rest) := by
  have octets : ∀ (cs : List Char) (acc : List UInt8),
      stringOctets acc (encode (cs.flatMap escapeChar) ++ octet '"' :: rest) =
        .ok (acc.reverse ++ encode cs, rest) := by
    intro cs
    induction cs with
    | nil =>
        intro acc
        rw [List.flatMap_nil, encode, List.flatMap_nil, List.nil_append, stringOctets, if_pos rfl,
          List.append_nil]
    | cons c cs ih =>
        intro acc
        rw [List.flatMap_cons, encode_append, List.append_assoc, stringOctets_escapeChar, ih,
          List.reverse_append, List.reverse_reverse, List.append_assoc, encode_cons]
  rw [scanString, octets, List.reverse_nil, List.nil_append]
  have text := Text.Utf8.toString?_ofString s
  rw [Text.Utf8.ofString] at text
  simp only [text]

/-! ## Values -/

/-- Values that are written and read without loss but for the order of members: words, strings,
natural numbers of 64 bits, and at most `depth` arrays and objects of them in one another. -/
inductive Plain : Nat → Json → Prop where
  | null {depth : Nat} : Plain depth .null
  | bool {depth : Nat} (b : Bool) : Plain depth (.bool b)
  | natural {depth n : Nat} (fits : n < 2 ^ 64) : Plain depth (.integer n)
  | string {depth : Nat} (s : String) : Plain depth (.string s)
  | array {depth : Nat} {es : List Json} (elements : ∀ e ∈ es, Plain depth e) :
      Plain (depth + 1) (.array es)
  | object {depth : Nat} {ms : List (String × Json)} (members : ∀ m ∈ ms, Plain depth m.2) :
      Plain (depth + 1) (.object ms)

mutual

/-- A value as it is read from its text: the members of objects are in the order of their names. -/
def reread : Json → Json
  | .array elements => .array (rereadElements elements)
  | .object members => .object (arranged (rereadMembers members).reverse)
  | j => j

def rereadElements : List Json → List Json
  | [] => []
  | e :: es => e.reread :: rereadElements es

def rereadMembers : List (String × Json) → List (String × Json)
  | [] => []
  | (name, value) :: ms => (name, value.reread) :: rereadMembers ms

end

theorem rereadElements_eq (es : List Json) : rereadElements es = es.map reread := by
  induction es with
  | nil => rfl
  | cons e es ih => rw [rereadElements, ih, List.map_cons]

theorem rereadMembers_eq (ms : List (String × Json)) :
    rereadMembers ms = ms.map fun m => (m.1, m.2.reread) := by
  induction ms with
  | nil => rfl
  | cons m ms ih => rw [rereadMembers, ih, List.map_cons]

def eachAfterComma : List (List Char) → List Char
  | [] => []
  | item :: items => ',' :: (item ++ eachAfterComma items)

theorem commaSeparated_cons (item : List Char) (items : List (List Char)) :
    commaSeparated (item :: items) = item ++ eachAfterComma items := by
  induction items generalizing item with
  | nil => rw [commaSeparated, eachAfterComma, List.append_nil]
  | cons next items ih =>
      rw [commaSeparated, ih, eachAfterComma]
      exact List.cons_ne_nil _ _

def Begins (bs : List UInt8) : Prop :=
  ∃ b tail, bs = b :: tail ∧ isSpace b = false ∧ b ≠ octet ']'

theorem Begins.append (begins : Begins bs) (rest : List UInt8) : Begins (bs ++ rest) := by
  obtain ⟨b, tail, rfl, notSpace, notClosing⟩ := begins
  exact ⟨b, tail ++ rest, rfl, notSpace, notClosing⟩

theorem Begins.skipSpace (begins : Begins bs) : skipSpace bs = bs := by
  obtain ⟨b, tail, rfl, notSpace, _⟩ := begins
  rw [Json.skipSpace, List.dropWhile_cons_of_neg]
  simp [notSpace]

theorem EndsNumber.separated (items : List (List Char)) {closing : UInt8}
    (ends : EndsNumber (closing :: rest)) :
    EndsNumber (encode (eachAfterComma items) ++ closing :: rest) := by
  cases items with
  | nil => exact ends
  | cons item items =>
      rintro b ⟨⟩
      decide

theorem endsNumber_bracket (rest : List UInt8) : EndsNumber (octet ']' :: rest) := by
  rintro b ⟨⟩
  decide

theorem endsNumber_brace (rest : List UInt8) : EndsNumber (0x7d :: rest) := by
  rintro b ⟨⟩
  decide

/-! ### Arrays -/

theorem nextElement_close (first : Bool) (rest : List UInt8) :
    nextElement first (octet ']' :: rest) = .ok (false, rest) := rfl

theorem nextElement_first (begins : Begins bs) : nextElement true bs = .ok (true, bs) := by
  obtain ⟨b, tail, rfl, notSpace, notClosing⟩ := begins
  rw [nextElement, Begins.skipSpace ⟨b, tail, rfl, notSpace, notClosing⟩]
  simp only [if_neg notClosing, if_true]

theorem nextElement_comma (begins : Begins bs) :
    nextElement false (octet ',' :: bs) = .ok (true, bs) := by
  have skipped := begins.skipSpace
  obtain ⟨b, tail, rfl, notSpace, notClosing⟩ := begins
  have comma : Json.skipSpace (octet ',' :: b :: tail) = octet ',' :: b :: tail := rfl
  simp only [nextElement, comma, skipped, if_neg notClosing]
  rfl

/-- A value stands at the front of the octets that follow, and a decoder reads it. -/
structure ReadsFront (item : Decoder Json) (e : Json) : Prop where
  begins : Begins (encode e.chars)
  read : ∀ rest, EndsNumber rest → item (encode e.chars ++ rest) = .ok (e.reread, rest)

theorem elements_after {item : Decoder Json} {es : List Json} (reads : ∀ e ∈ es, ReadsFront item e)
    {bound : List UInt8} (enough : es.length < bound.length) (acc : List Json)
    (rest : List UInt8) :
    Decoder.elements item bound false acc
      (encode (eachAfterComma (elementChars es)) ++ octet ']' :: rest) =
        .ok (acc.reverse ++ rereadElements es, rest) := by
  induction es generalizing bound acc with
  | nil =>
      obtain ⟨_, bound, rfl⟩ := List.exists_cons_of_length_pos enough
      change Decoder.elements item _ false acc (octet ']' :: rest) = _
      simp only [Decoder.elements, nextElement_close, rereadElements, List.append_nil]
  | cons e es ih =>
      obtain ⟨_, bound, rfl⟩ := List.exists_cons_of_length_pos (Nat.zero_lt_of_lt enough)
      obtain ⟨front, later⟩ := List.forall_mem_cons.mp reads
      have written : encode (eachAfterComma (elementChars (e :: es))) ++ octet ']' :: rest =
          octet ',' :: (encode e.chars ++
            (encode (eachAfterComma (elementChars es)) ++ octet ']' :: rest)) := by
        rw [elementChars, eachAfterComma, encode_cons, encode_append, List.append_assoc,
          List.append_assoc]
        rfl
      have read := front.read _ (EndsNumber.separated (elementChars es) (endsNumber_bracket rest))
      have enough' : es.length < bound.length := Nat.lt_of_succ_lt_succ enough
      rw [written]
      simp only [Decoder.elements, nextElement_comma (front.begins.append _), read,
        ih later enough', List.reverse_cons, List.append_assoc, List.singleton_append,
        rereadElements]

theorem elements_reread {item : Decoder Json} {es : List Json}
    (reads : ∀ e ∈ es, ReadsFront item e) {bound : List UInt8} (enough : es.length < bound.length)
    (rest : List UInt8) :
    Decoder.elements item bound true []
      (encode (commaSeparated (elementChars es)) ++ octet ']' :: rest) =
        .ok (rereadElements es, rest) := by
  obtain ⟨_, bound, rfl⟩ := List.exists_cons_of_length_pos (Nat.zero_lt_of_lt enough)
  cases es with
  | nil =>
      change Decoder.elements item _ true [] (octet ']' :: rest) = _
      simp only [Decoder.elements, nextElement_close, rereadElements, List.reverse_nil]
  | cons e es =>
      obtain ⟨front, later⟩ := List.forall_mem_cons.mp reads
      have read := front.read _ (EndsNumber.separated (elementChars es) (endsNumber_bracket rest))
      have after := elements_after later (Nat.lt_of_succ_lt_succ enough) [e.reread] rest
      rw [elementChars, commaSeparated_cons, encode_append, List.append_assoc]
      simp only [Decoder.elements, nextElement_first (front.begins.append _), read, after,
        List.reverse_singleton, List.singleton_append, rereadElements]

/-! ### Objects -/

theorem nextMember_close (first : Bool) (rest : List UInt8) :
    nextMember first (0x7d :: rest) = .ok (none, rest) := rfl

theorem afterColon_colon (bs : List UInt8) : afterColon (octet ':' :: bs) = .ok bs := rfl

theorem memberName_quoted (name : String) (rest : List UInt8) :
    memberName (encode (quoted name) ++ rest) = .ok (some name, rest) := by
  rw [encode_quoted, memberName, if_pos rfl, scanString_quoted]

theorem nextMember_first (name : String) (rest : List UInt8) :
    nextMember true (encode (quoted name) ++ rest) = .ok (some name, rest) :=
  memberName_quoted name rest

theorem nextMember_comma (name : String) (rest : List UInt8) :
    nextMember false (octet ',' :: (encode (quoted name) ++ rest)) = .ok (some name, rest) :=
  memberName_quoted name rest

theorem objectMembers_after {item : Decoder Json} {ms : List (String × Json)}
    (reads : ∀ m ∈ ms, ReadsFront item m.2) {bound : List UInt8} (enough : ms.length < bound.length)
    (acc : List (String × Json)) (rest : List UInt8) :
    objectMembers item bound false acc
      (encode (eachAfterComma (memberChars ms)) ++ 0x7d :: rest) =
        .ok (arranged ((rereadMembers ms).reverse ++ acc), rest) := by
  induction ms generalizing bound acc with
  | nil =>
      obtain ⟨_, bound, rfl⟩ := List.exists_cons_of_length_pos enough
      change objectMembers item _ false acc (0x7d :: rest) = _
      simp only [objectMembers, nextMember_close, rereadMembers, List.reverse_nil, List.nil_append]
  | cons m ms ih =>
      obtain ⟨name, value⟩ := m
      obtain ⟨_, bound, rfl⟩ := List.exists_cons_of_length_pos (Nat.zero_lt_of_lt enough)
      obtain ⟨front, later⟩ := List.forall_mem_cons.mp reads
      have written : encode (eachAfterComma (memberChars ((name, value) :: ms))) ++ 0x7d :: rest =
          octet ',' :: (encode (quoted name) ++ (octet ':' :: (encode value.chars ++
            (encode (eachAfterComma (memberChars ms)) ++ 0x7d :: rest)))) := by
        rw [memberChars, eachAfterComma, encode_cons, encode_append, encode_append, encode_cons]
        simp only [List.append_assoc]
        rfl
      have read := front.read _ (EndsNumber.separated (memberChars ms) (endsNumber_brace rest))
      have enough' : ms.length < bound.length := Nat.lt_of_succ_lt_succ enough
      rw [written]
      simp only [objectMembers, nextMember_comma, afterColon_colon, Except.bind, read,
        ih later enough', rereadMembers, List.reverse_cons, List.append_assoc,
        List.singleton_append]

theorem objectMembers_reread {item : Decoder Json} {ms : List (String × Json)}
    (reads : ∀ m ∈ ms, ReadsFront item m.2) {bound : List UInt8} (enough : ms.length < bound.length)
    (rest : List UInt8) :
    objectMembers item bound true []
      (encode (commaSeparated (memberChars ms)) ++ 0x7d :: rest) =
        .ok (arranged (rereadMembers ms).reverse, rest) := by
  obtain ⟨_, bound, rfl⟩ := List.exists_cons_of_length_pos (Nat.zero_lt_of_lt enough)
  cases ms with
  | nil =>
      change objectMembers item _ true [] (0x7d :: rest) = _
      simp only [objectMembers, nextMember_close, rereadMembers, List.reverse_nil]
  | cons m ms =>
      obtain ⟨name, value⟩ := m
      obtain ⟨front, later⟩ := List.forall_mem_cons.mp reads
      have written : encode (commaSeparated (memberChars ((name, value) :: ms))) ++ 0x7d :: rest =
          encode (quoted name) ++ (octet ':' :: (encode value.chars ++
            (encode (eachAfterComma (memberChars ms)) ++ 0x7d :: rest))) := by
        rw [memberChars, commaSeparated_cons, encode_append, encode_append, encode_cons]
        simp only [List.append_assoc]
        rfl
      have read := front.read _ (EndsNumber.separated (memberChars ms) (endsNumber_brace rest))
      have after := objectMembers_after later (Nat.lt_of_succ_lt_succ enough)
        [(name, value.reread)] rest
      rw [written]
      simp only [objectMembers, nextMember_first, afterColon_colon, Except.bind, read, after,
        rereadMembers, List.reverse_cons]

/-! ### All values -/

theorem readValue_eq (depth : Nat) : ∃ nested, readValue depth = readUpTo nested := by
  cases depth with
  | zero => exact ⟨_, rfl⟩
  | succ depth => exact ⟨_, rfl⟩

theorem length_le_eachAfterComma (items : List (List Char)) :
    items.length ≤ (encode (eachAfterComma items)).length := by
  induction items with
  | nil => exact Nat.le_refl _
  | cons item items ih =>
      have comma : encode (eachAfterComma (item :: items)) =
          octet ',' :: (encode item ++ encode (eachAfterComma items)) := by
        rw [eachAfterComma, encode_cons, encode_append]
        rfl
      rw [comma, List.length_cons, List.length_cons, List.length_append]
      omega

theorem length_elementChars (es : List Json) : (elementChars es).length = es.length := by
  induction es with
  | nil => rfl
  | cons e es ih => rw [elementChars, List.length_cons, ih, List.length_cons]

theorem length_memberChars (ms : List (String × Json)) : (memberChars ms).length = ms.length := by
  induction ms with
  | nil => rfl
  | cons m ms ih => rw [memberChars, List.length_cons, ih, List.length_cons]

/-- The text between brackets is long enough to bound the steps of reading it. -/
theorem length_lt_between (items : List (List Char)) (opening closing : UInt8)
    (rest : List UInt8) :
    items.length < (opening :: (encode (commaSeparated items) ++ closing :: rest)).length := by
  rw [List.length_cons, List.length_append, List.length_cons]
  cases items with
  | nil => rw [List.length_nil]; omega
  | cons item items =>
      have := length_le_eachAfterComma items
      rw [commaSeparated_cons, encode_append, List.length_append, List.length_cons]
      omega

theorem ne_of_isDigit {b c : UInt8} (digit : isDigit b = true) (notDigit : isDigit c = false) :
    b ≠ c := by
  rintro rfl
  rw [digit] at notDigit
  cases notDigit

theorem begins_of_isDigit {b : UInt8} (digit : isDigit b = true) (rest : List UInt8) :
    Begins (b :: rest) := by
  have other : ∀ c, isDigit c = false → b ≠ c := fun _ => ne_of_isDigit digit
  refine ⟨b, rest, rfl, ?_, other _ (by decide)⟩
  rw [isSpace, decide_eq_false (other 32 (by decide)), decide_eq_false (other 10 (by decide)),
    decide_eq_false (other 9 (by decide)), decide_eq_false (other 13 (by decide))]
  rfl

theorem readUpTo_digit (nested : Frame → Decoder Json) {b : UInt8} (digit : isDigit b = true)
    (rest : List UInt8) : readUpTo nested (b :: rest) =
      (scanNumber true (b :: rest)).map fun r => (r.1.toJson, r.2) := by
  have other : ∀ c, isDigit c = false → b ≠ c := fun _ => ne_of_isDigit digit
  simp only [readUpTo, (begins_of_isDigit digit rest).skipSpace, digit, if_true]
  rw [if_neg (other _ (by decide)), if_neg (other _ (by decide)), if_neg (other _ (by decide)),
    if_neg (other _ (by decide))]

/-- The text of a value is read as the value, whatever follows it. -/
theorem Plain.readsFront {depth : Nat} {j : Json} (plain : Plain depth j) :
    ReadsFront (readValue depth) j := by
  -- Words, numerals and strings are read alike at every depth; only brackets take one off.
  induction plain with
  | @null depth =>
      obtain ⟨nested, same⟩ := readValue_eq depth
      rw [same]
      exact ⟨⟨_, _, rfl, rfl, by decide⟩, fun _ _ => rfl⟩
  | @bool depth b =>
      obtain ⟨nested, same⟩ := readValue_eq depth
      rw [same]
      cases b with
      | false => exact ⟨⟨_, _, rfl, rfl, by decide⟩, fun _ _ => rfl⟩
      | true => exact ⟨⟨_, _, rfl, rfl, by decide⟩, fun _ _ => rfl⟩
  | @natural depth n fits =>
      obtain ⟨nested, same⟩ := readValue_eq depth
      obtain ⟨b, tail, written, digit, _⟩ := encode_toDigits n
      refine ⟨written ▸ begins_of_isDigit digit tail, ?_⟩
      intro rest ends
      have number := scanNumber_toDigits fits ends
      change readValue depth (encode (Nat.toDigits 10 n) ++ rest) = _
      rw [written, List.cons_append] at number ⊢
      rw [same, readUpTo_digit nested digit, number]
      rfl
  | @string depth s =>
      obtain ⟨nested, same⟩ := readValue_eq depth
      rw [same]
      refine ⟨⟨_, _, rfl, rfl, by decide⟩, ?_⟩
      intro rest _
      rw [chars, encode_quoted]
      change (scanString _).map _ = _
      rw [scanString_quoted]
      rfl
  | @array depth es _ ih =>
      refine ⟨⟨_, _, rfl, rfl, by decide⟩, ?_⟩
      intro rest _
      have written : encode (Json.array es).chars ++ rest =
          octet '[' :: (encode (commaSeparated (elementChars es)) ++ octet ']' :: rest) := by
        rw [chars, encode_cons, encode_append, List.append_assoc, List.append_assoc]
        rfl
      rw [written]
      have enough := length_lt_between (elementChars es) (octet '[') (octet ']') rest
      rw [length_elementChars] at enough
      change (Decoder.elements _ _ true [] _).map _ = _
      rw [List.tail_cons, elements_reread ih enough]
      rfl
  | @object depth ms _ ih =>
      refine ⟨⟨_, _, rfl, rfl, by decide⟩, ?_⟩
      intro rest _
      have written : encode (Json.object ms).chars ++ rest =
          0x7b :: (encode (commaSeparated (memberChars ms)) ++ 0x7d :: rest) := by
        rw [chars, encode_cons, encode_append, List.append_assoc, List.append_assoc]
        rfl
      rw [written]
      have enough := length_lt_between (memberChars ms) 0x7b 0x7d rest
      rw [length_memberChars] at enough
      change (objectMembers _ _ true [] _).map _ = _
      rw [List.tail_cons, objectMembers_reread ih enough]
      rfl

/-- The text of a value is read as the value, with the members of objects arranged. -/
theorem json_text {j : Json} (plain : Plain greatestDepth j) :
    Decoder.json (Text.Utf8.ofString j.text) = .ok (j.reread, []) := by
  have read := plain.readsFront.read [] (by rintro b ⟨⟩)
  rw [List.append_nil] at read
  rw [Text.Utf8.ofString, text, String.toList_ofList, Decoder.json, read]

theorem ofText?_text {j : Json} (plain : Plain greatestDepth j) : ofText? j.text = some j.reread := by
  rw [ofText?, Decoder.whole, json_text plain]
  rfl

theorem Plain.mono {depth depth' : Nat} {j : Json} (plain : Plain depth j) (le : depth ≤ depth') :
    Plain depth' j := by
  induction plain generalizing depth' with
  | null => exact .null
  | bool b => exact .bool b
  | natural fits => exact .natural fits
  | string s => exact .string s
  | array _ ih =>
      obtain ⟨depth', rfl⟩ := Nat.exists_eq_add_one_of_ne_zero (Nat.ne_zero_of_lt le)
      exact .array fun e he => ih e he (Nat.le_of_succ_le_succ le)
  | object _ ih =>
      obtain ⟨depth', rfl⟩ := Nat.exists_eq_add_one_of_ne_zero (Nat.ne_zero_of_lt le)
      exact .object fun m hm => ih m hm (Nat.le_of_succ_le_succ le)

/-! ### Members -/

theorem foldl_addMember {ms : List (String × Json)} (unique : Rows.Unique Prod.fst ms)
    (acc : List (String × Json)) (new : ∀ m ∈ ms, ∀ a ∈ acc, a.1 ≠ m.1) :
    ms.foldl addMember acc = ms.reverse ++ acc := by
  induction ms generalizing acc with
  | nil => rfl
  | cons m ms ih =>
      obtain ⟨others, rest⟩ := List.nodup_cons.mp unique
      obtain ⟨newHere, newLater⟩ := List.forall_mem_cons.mp new
      -- No member read before has this name, so none is replaced.
      have added : addMember acc m = m :: acc := by
        cases acc with
        | nil => rfl
        | cons a acc => rw [addMember, if_neg (newHere a List.mem_cons_self)]
      rw [List.foldl_cons, added, ih rest, List.reverse_cons, List.append_assoc,
        List.singleton_append]
      intro n hn a ha
      rcases List.mem_cons.mp ha with rfl | ha
      · intro same
        exact others (List.mem_map.mpr ⟨n, hn, same.symm⟩)
      · exact newLater n hn a ha

/-- Members with names of their own are only put in order. -/
theorem arranged_eq_mergeSort {ms : List (String × Json)} (unique : Rows.Unique Prod.fst ms) :
    arranged ms = ms.mergeSort fun a b => decide (a.1 ≤ b.1) := by
  have perm := List.mergeSort_perm ms fun a b => decide (a.1 ≤ b.1)
  have uniqueSorted := (perm.map Prod.fst).nodup_iff.mpr unique
  rw [arranged, foldl_addMember uniqueSorted [] (by rintro _ _ _ ⟨⟩), List.append_nil,
    List.reverse_reverse]

theorem arranged_perm {ms : List (String × Json)} (unique : Rows.Unique Prod.fst ms) :
    (arranged ms).Perm ms := by
  rw [arranged_eq_mergeSort unique]
  exact List.mergeSort_perm _ _

/-- Members in the order of their names stay as they are. -/
theorem arranged_of_sorted {ms : List (String × Json)} (sorted : ms.Pairwise fun a b => a.1 < b.1) :
    arranged ms = ms := by
  have unique : Rows.Unique Prod.fst ms :=
    (Rows.unique_iff_pairwise _ _).mpr (sorted.imp fun before => String.ne_of_lt before)
  rw [arranged_eq_mergeSort unique]
  apply List.mergeSort_of_pairwise
  exact sorted.imp fun before => decide_eq_true (String.not_lt.mp (String.lt_asymm before))

/-- A member of an object with names of their own is read as its value. -/
theorem member?_reread {ms : List (String × Json)} (unique : Rows.Unique Prod.fst ms)
    {name : String} {value : Json} (member : (name, value) ∈ ms) :
    (Json.object ms).reread.member? name = some value.reread := by
  have names : Rows.Unique Prod.fst (rereadMembers ms).reverse := by
    rw [Rows.Unique, List.map_reverse, List.nodup_reverse, rereadMembers_eq, List.map_map]
    exact unique
  have perm := arranged_perm names
  have present : (name, value.reread) ∈ arranged (rereadMembers ms).reverse := by
    rw [perm.mem_iff, List.mem_reverse, rereadMembers_eq]
    exact List.mem_map.mpr ⟨_, member, rfl⟩
  have found := Rows.Unique.find?_eq ((perm.map Prod.fst).nodup_iff.mpr names) present rfl
  rw [reread, member?, found, Option.map_some]

end GigBoard.Json
