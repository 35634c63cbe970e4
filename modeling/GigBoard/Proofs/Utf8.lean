import GigBoard.Text.Utf8

/-!
# UTF-8 read back

The octets of a run of characters are read back as these characters.  For one character this is a
matter of its four ranges; a piece leaves the octets behind it alone, so the rest is an induction on
the run.
-/

set_option autoImplicit false

namespace GigBoard.Text.Utf8

variable {n low high code x : Nat} {c : Char} {rest : List UInt8}

/-! ## One character -/

theorem toNat_toUInt8 (small : n < 256) : n.toUInt8.toNat = n := by
  rw [Nat.toUInt8_eq, UInt8.toNat_ofNat']
  omega

/-- A code point is none of the halves of others, and lies in one of seventeen planes. -/
theorem toNat_range (c : Char) : c.toNat < 0xD800 ∨ (0xDFFF < c.toNat ∧ c.toNat < 0x110000) :=
  c.valid

theorem follow_one (k : Nat) (small : x < 64) (fits : low ≤ 0x80 + x ∧ 0x80 + x ≤ high) :
    follow (k + 1) low high code ((0x80 + x).toUInt8 :: rest) =
      follow k 0x80 0xBF (code * 64 + x) rest := by
  have value : (0x80 + x).toUInt8.toNat = 0x80 + x := toNat_toUInt8 (by omega)
  rw [follow, value, if_pos fits, Nat.add_sub_cancel_left]

theorem next_of_lead {b k bits : Nat} {tail : List UInt8} (small : b < 256) (long : 0x80 ≤ b)
    (isLead : lead b = some ⟨k, bits, low, high⟩)
    (followed : follow k low high bits tail = (some c.toNat, rest)) :
    next b.toUInt8 tail = (some c, rest) := by
  rw [next, toNat_toUInt8 small, if_neg (by omega), isLead]
  simp only [followed, Option.map_some, Char.ofNat_toNat]

theorem next_two (low : 0x80 ≤ c.toNat) (high : c.toNat < 0x800) :
    next (0xC0 + c.toNat / 64).toUInt8 ((0x80 + c.toNat % 64).toUInt8 :: rest) =
      (some c, rest) := by
  have isLead : lead (0xC0 + c.toNat / 64) = some ⟨1, c.toNat / 64, 0x80, 0xBF⟩ := by
    rw [lead, if_pos (by omega), Nat.add_sub_cancel_left]
  refine next_of_lead (by omega) (by omega) isLead ?_
  rw [follow_one 0 (by omega) (by omega), follow]
  congr 2
  omega

theorem lead_three (low : 0x800 ≤ n) (high : n < 0x10000) (whole : n < 0xD800 ∨ 0xDFFF < n) :
    ∃ least greatest, lead (0xE0 + n / 4096) = some ⟨2, n / 4096, least, greatest⟩ ∧
      least ≤ 0x80 + n / 64 % 64 ∧ 0x80 + n / 64 % 64 ≤ greatest := by
  -- The second octet is bounded further behind the first lead and behind that of the halves.
  by_cases first : n / 4096 = 0
  · exact ⟨0xA0, 0xBF, by rw [first]; rfl, by omega, by omega⟩
  · by_cases halves : n / 4096 = 0xD
    · exact ⟨0x80, 0x9F, by rw [halves]; rfl, by omega, by omega⟩
    · refine ⟨0x80, 0xBF, ?_, by omega, by omega⟩
      rw [lead, if_neg (by omega), if_neg (by omega), if_neg (by omega), if_pos (by omega),
        Nat.add_sub_cancel_left]

theorem next_three (low : 0x800 ≤ c.toNat) (high : c.toNat < 0x10000) :
    next (0xE0 + c.toNat / 4096).toUInt8 ((0x80 + c.toNat / 64 % 64).toUInt8 ::
      (0x80 + c.toNat % 64).toUInt8 :: rest) = (some c, rest) := by
  have range := toNat_range c
  obtain ⟨least, greatest, isLead, fits⟩ := lead_three low high (by omega)
  refine next_of_lead (by omega) (by omega) isLead ?_
  rw [follow_one 1 (by omega) fits, follow_one 0 (by omega) (by omega), follow]
  congr 2
  omega

theorem lead_four (low : 0x10000 ≤ n) (high : n < 0x110000) :
    ∃ least greatest, lead (0xF0 + n / 262144) = some ⟨3, n / 262144, least, greatest⟩ ∧
      least ≤ 0x80 + n / 4096 % 64 ∧ 0x80 + n / 4096 % 64 ≤ greatest := by
  by_cases first : n / 262144 = 0
  · exact ⟨0x90, 0xBF, by rw [first]; rfl, by omega, by omega⟩
  · by_cases last : n / 262144 = 4
    · exact ⟨0x80, 0x8F, by rw [last]; rfl, by omega, by omega⟩
    · refine ⟨0x80, 0xBF, ?_, by omega, by omega⟩
      rw [lead, if_neg (by omega), if_neg (by omega), if_neg (by omega), if_neg (by omega),
        if_neg (by omega), if_neg (by omega), if_pos (by omega), Nat.add_sub_cancel_left]

theorem next_four (low : 0x10000 ≤ c.toNat) :
    next (0xF0 + c.toNat / 262144).toUInt8 ((0x80 + c.toNat / 4096 % 64).toUInt8 ::
      (0x80 + c.toNat / 64 % 64).toUInt8 :: (0x80 + c.toNat % 64).toUInt8 :: rest) =
        (some c, rest) := by
  have range := toNat_range c
  obtain ⟨least, greatest, isLead, fits⟩ := lead_four low (by omega)
  refine next_of_lead (by omega) (by omega) isLead ?_
  rw [follow_one 2 (by omega) fits, follow_one 1 (by omega) (by omega),
    follow_one 0 (by omega) (by omega), follow]
  congr 2
  omega

theorem encodeChar_of_ascii (small : c.toNat < 0x80) : encodeChar c = [c.toNat.toUInt8] := by
  rw [encodeChar, if_pos small]

/-- Leads and the octets that follow them are none of ASCII. -/
theorem octet_of_encodeChar {b : UInt8} (large : 0x80 ≤ c.toNat) (hb : b ∈ encodeChar c) :
    0x80 ≤ b.toNat := by
  have range := toNat_range c
  have beyond {n : Nat} (least : 0x80 ≤ n) (most : n < 256) : 0x80 ≤ n.toUInt8.toNat := by
    rw [toNat_toUInt8 most]
    exact least
  rw [encodeChar, if_neg (by omega)] at hb
  split at hb
  · simp only [List.mem_cons, List.not_mem_nil, or_false] at hb
    rcases hb with rfl | rfl <;> exact beyond (by omega) (by omega)
  · split at hb
    · simp only [List.mem_cons, List.not_mem_nil, or_false] at hb
      rcases hb with rfl | rfl | rfl <;> exact beyond (by omega) (by omega)
    · simp only [List.mem_cons, List.not_mem_nil, or_false] at hb
      rcases hb with rfl | rfl | rfl | rfl <;> exact beyond (by omega) (by omega)

/-- What all octets of a character fulfil is decided by its own code in ASCII, and holds outside
ASCII if no octet from there breaks it. -/
theorem forall_encodeChar_iff {p : Nat → Prop} (beyond : ∀ n, 0x80 ≤ n → p n) (c : Char) :
    (∀ b ∈ encodeChar c, p b.toNat) ↔ p c.toNat := by
  by_cases small : c.toNat < 0x80
  · rw [encodeChar_of_ascii small, List.forall_mem_singleton, toNat_toUInt8 (by omega)]
  · have large : 0x80 ≤ c.toNat := Nat.not_lt.mp small
    exact ⟨fun _ => beyond _ large, fun _ b hb => beyond _ (octet_of_encodeChar large hb)⟩

/-! ## Runs of characters -/

theorem encode_append (cs ds : List Char) : encode (cs ++ ds) = encode cs ++ encode ds :=
  List.flatMap_append

theorem encode_cons (c : Char) (cs : List Char) : encode (c :: cs) = encodeChar c ++ encode cs :=
  rfl

theorem piecesInto_encodeChar (acc : List (Option Char)) (c : Char) (rest : List UInt8) :
    piecesInto acc (encodeChar c ++ rest) = piecesInto (some c :: acc) rest := by
  unfold encodeChar
  dsimp only
  -- One case for each number of octets.
  split
  · rename_i one
    have first : next c.toNat.toUInt8 rest = (some c, rest) := by
      rw [next, toNat_toUInt8 (by omega), if_pos one, Char.ofNat_toNat]
    rw [List.singleton_append, piecesInto, first]
  · split
    · rw [List.cons_append, List.singleton_append, piecesInto, next_two (by omega) (by omega)]
    · split
      · rw [List.cons_append, List.cons_append, List.singleton_append, piecesInto,
          next_three (by omega) (by omega)]
      · rw [List.cons_append, List.cons_append, List.cons_append, List.singleton_append,
          piecesInto, next_four (by omega)]

theorem piecesInto_encode (acc : List (Option Char)) (cs : List Char) :
    piecesInto acc (encode cs) = (cs.map some).reverse ++ acc := by
  induction cs generalizing acc with
  | nil => rw [encode, List.flatMap_nil, piecesInto, List.map_nil, List.reverse_nil, List.nil_append]
  | cons c cs ih =>
      rw [encode_cons, piecesInto_encodeChar, ih, List.map_cons, List.reverse_cons,
        List.append_assoc, List.singleton_append]

theorem decode?_encode (cs : List Char) : decode? (encode cs) = some cs := by
  have isPieces : pieces (encode cs) = cs.map some := by
    rw [pieces, piecesInto_encode, List.append_nil, List.reverse_reverse]
  rw [decode?, isPieces]
  simp

/-- The octets of a text are read back as the text. -/
theorem toString?_ofString (s : String) : toString? (ofString s) = some s := by
  rw [toString?, ofString, decode?_encode, Option.map_some, String.ofList_toList]

end GigBoard.Text.Utf8
