import GigBoard.Proofs.Utf8
import GigBoard.Text.Base64Url
import GigBoard.Uuid
import Mathlib.Algebra.GroupWithZero.Nat

/-!
# Written forms that are read back

Octets in base64url, numbers in hexadecimal digits, and identifiers in groups of such digits: each is
read back as what was written.  Base64url is strict: what is read was written so.
-/

set_option autoImplicit false

namespace GigBoard.Text

/-! ## Base64url -/

namespace Base64Url

def IsSymbol (c : Char) : Prop := ∃ n, n < 64 ∧ c = symbol n

theorem value?_symbol {n : Nat} (small : n < 64) : value? (symbol n) = some n := by
  revert n
  decide

theorem IsSymbol.ne {c d : Char} (isSymbol : IsSymbol c) (other : value? d = none) : c ≠ d := by
  obtain ⟨n, small, rfl⟩ := isSymbol
  rintro rfl
  rw [value?_symbol small] at other
  cases other

theorem isSymbol_symbol {n : Nat} (small : n < 64) : IsSymbol (symbol n) := ⟨n, small, rfl⟩

theorem encode_isSymbol (bs : List UInt8) : ∀ c ∈ encode bs, IsSymbol c := by
  fun_induction encode bs with
  | case1 => simp
  | case2 a =>
      have bound := a.toNat_lt
      simp only [List.forall_mem_cons]
      exact ⟨isSymbol_symbol (by omega), isSymbol_symbol (by omega), by simp⟩
  | case3 a b =>
      have bound := a.toNat_lt
      have bound' := b.toNat_lt
      simp only [List.forall_mem_cons]
      exact ⟨isSymbol_symbol (by omega), isSymbol_symbol (by omega), isSymbol_symbol (by omega),
        by simp⟩
  | case4 a b c rest ih =>
      have bound := a.toNat_lt
      have bound' := b.toNat_lt
      have bound'' := c.toNat_lt
      simp only [List.forall_mem_cons]
      exact ⟨isSymbol_symbol (by omega), isSymbol_symbol (by omega), isSymbol_symbol (by omega),
        isSymbol_symbol (by omega), ih⟩

theorem toUInt8_eq {n : Nat} {b : UInt8} (same : n = b.toNat) : n.toUInt8 = b := by
  subst same
  simp

/-- The characters of some octets stand for numbers that are joined to the octets again. -/
theorem mapM_encode (bs : List UInt8) :
    ∃ ns, (encode bs).mapM value? = some ns ∧ join? ns = some bs := by
  fun_induction encode bs with
  | case1 => exact ⟨[], rfl, rfl⟩
  | case2 a =>
      have bound := a.toNat_lt
      refine ⟨[a.toNat / 4, a.toNat % 4 * 16], ?_, ?_⟩
      · simp [value?_symbol (show a.toNat / 4 < 64 by omega),
          value?_symbol (show a.toNat % 4 * 16 < 64 by omega)]
      · rw [join?, if_pos (by omega), toUInt8_eq (b := a) (by omega)]
  | case3 a b =>
      have bound := a.toNat_lt
      have bound' := b.toNat_lt
      refine ⟨[a.toNat / 4, a.toNat % 4 * 16 + b.toNat / 16, b.toNat % 16 * 4], ?_, ?_⟩
      · simp [value?_symbol (show a.toNat / 4 < 64 by omega),
          value?_symbol (show a.toNat % 4 * 16 + b.toNat / 16 < 64 by omega),
          value?_symbol (show b.toNat % 16 * 4 < 64 by omega)]
      · rw [join?, if_pos (by omega), toUInt8_eq (b := a) (by omega), toUInt8_eq (b := b) (by omega)]
  | case4 a b c rest ih =>
      have bound := a.toNat_lt
      have bound' := b.toNat_lt
      have bound'' := c.toNat_lt
      obtain ⟨ns, read, joined⟩ := ih
      refine ⟨a.toNat / 4 :: (a.toNat % 4 * 16 + b.toNat / 16) ::
        (b.toNat % 16 * 4 + c.toNat / 64) :: c.toNat % 64 :: ns, ?_, ?_⟩
      · simp [value?_symbol (show a.toNat / 4 < 64 by omega),
          value?_symbol (show a.toNat % 4 * 16 + b.toNat / 16 < 64 by omega),
          value?_symbol (show b.toNat % 16 * 4 + c.toNat / 64 < 64 by omega),
          value?_symbol (show c.toNat % 64 < 64 by omega), read]
      · rw [join?, joined, Option.map_some, toUInt8_eq (b := a) (by omega),
          toUInt8_eq (b := b) (by omega), toUInt8_eq (b := c) (by omega)]

theorem decode?_encode (bs : List UInt8) : decode? (encode bs) = some bs := by
  obtain ⟨ns, read, joined⟩ := mapM_encode bs
  rw [decode?, read, Option.bind_some, joined]

/-! ### One text only -/

theorem eq_symbol_of_value? {c : Char} {n : Nat} (read : value? c = some n) :
    n < 64 ∧ c = symbol n := by
  have same := Char.ofNat_toNat c
  simp only [value?] at read
  split at read
  · cases read
    refine ⟨by omega, ?_⟩
    rw [symbol, if_pos (by omega), Nat.add_sub_cancel' (by omega), same]
  split at read
  · cases read
    refine ⟨by omega, ?_⟩
    rw [symbol, if_neg (by omega), if_pos (by omega), Nat.add_sub_cancel' (by omega), same]
  split at read
  · cases read
    refine ⟨by omega, ?_⟩
    rw [symbol, if_neg (by omega), if_neg (by omega), if_pos (by omega), Nat.add_sub_cancel, same]
  split at read
  · rename_i isHyphen
    cases read
    exact ⟨by decide, isHyphen⟩
  split at read
  · rename_i isLine
    cases read
    exact ⟨by decide, isLine⟩
  · cases read

theorem eq_symbols_of_mapM {cs : List Char} {ns : List Nat} (read : cs.mapM value? = some ns) :
    (∀ n ∈ ns, n < 64) ∧ cs = ns.map symbol := by
  induction cs generalizing ns with
  | nil =>
      cases read
      exact ⟨by simp, rfl⟩
  | cons c cs ih =>
      simp only [List.mapM_cons, Option.pure_def, Option.bind_eq_bind, Option.bind_eq_some_iff,
        Option.some.injEq] at read
      obtain ⟨n, first, rest, later, rfl⟩ := read
      obtain ⟨small, isSymbol⟩ := eq_symbol_of_value? first
      obtain ⟨smallLater, symbols⟩ := ih later
      refine ⟨List.forall_mem_cons.mpr ⟨small, smallLater⟩, ?_⟩
      rw [List.map_cons, ← isSymbol, ← symbols]

/-- Octets that were joined are cut into the same numbers again. -/
theorem encode_of_join? {ns : List Nat} {bs : List UInt8} (small : ∀ n ∈ ns, n < 64)
    (joined : join? ns = some bs) : encode bs = ns.map symbol := by
  fun_induction join? ns generalizing bs with
  | case1 =>
      cases joined
      rfl
  | case2 => cases joined
  | case3 p q aligned =>
      simp only [List.forall_mem_cons] at small
      obtain ⟨smallP, smallQ, _⟩ := small
      cases joined
      have first : (p * 4 + q / 16).toUInt8.toNat = p * 4 + q / 16 := Utf8.toNat_toUInt8 (by omega)
      have high : (p * 4 + q / 16) / 4 = p := by omega
      have low : (p * 4 + q / 16) % 4 * 16 = q := by omega
      simp only [encode, first, high, low, List.map_cons, List.map_nil]
  | case4 => cases joined
  | case5 p q r aligned =>
      simp only [List.forall_mem_cons] at small
      obtain ⟨smallP, smallQ, smallR, _⟩ := small
      cases joined
      have first : (p * 4 + q / 16).toUInt8.toNat = p * 4 + q / 16 := Utf8.toNat_toUInt8 (by omega)
      have second : (q % 16 * 16 + r / 4).toUInt8.toNat = q % 16 * 16 + r / 4 :=
        Utf8.toNat_toUInt8 (by omega)
      have high : (p * 4 + q / 16) / 4 = p := by omega
      have middle : (p * 4 + q / 16) % 4 * 16 + (q % 16 * 16 + r / 4) / 16 = q := by omega
      have low : (q % 16 * 16 + r / 4) % 16 * 4 = r := by omega
      simp only [encode, first, second, high, middle, low, List.map_cons, List.map_nil]
  | case6 => cases joined
  | case7 p q r s rest ih =>
      simp only [List.forall_mem_cons] at small
      obtain ⟨smallP, smallQ, smallR, smallS, smallRest⟩ := small
      obtain ⟨later, joinedRest, rfl⟩ := Option.map_eq_some_iff.mp joined
      have first : (p * 4 + q / 16).toUInt8.toNat = p * 4 + q / 16 := Utf8.toNat_toUInt8 (by omega)
      have second : (q % 16 * 16 + r / 4).toUInt8.toNat = q % 16 * 16 + r / 4 :=
        Utf8.toNat_toUInt8 (by omega)
      have third : (r % 4 * 64 + s).toUInt8.toNat = r % 4 * 64 + s := Utf8.toNat_toUInt8 (by omega)
      have one : (p * 4 + q / 16) / 4 = p := by omega
      have two : (p * 4 + q / 16) % 4 * 16 + (q % 16 * 16 + r / 4) / 16 = q := by omega
      have three : (q % 16 * 16 + r / 4) % 16 * 4 + (r % 4 * 64 + s) / 64 = r := by omega
      have four : (r % 4 * 64 + s) % 64 = s := by omega
      simp only [encode, first, second, third, one, two, three, four, ih smallRest joinedRest,
        List.map_cons]

/-- A text that is read is the one that is written for its octets. -/
theorem eq_encode_of_decode? {cs : List Char} {bs : List UInt8} (decoded : decode? cs = some bs) :
    cs = encode bs := by
  obtain ⟨ns, read, joined⟩ := Option.bind_eq_some_iff.mp decoded
  obtain ⟨small, symbols⟩ := eq_symbols_of_mapM read
  rw [symbols, encode_of_join? small joined]

end Base64Url

/-! ## Hexadecimal digits -/

namespace Hex

theorem value?_digit {n : Nat} (small : n < 16) : value? (digit n) = some n := by
  revert n
  decide

theorem continue?_append (n : Nat) (first second : List Char) :
    continue? n (first ++ second) = (continue? n first).bind fun m => continue? m second := by
  induction first generalizing n with
  | nil => rfl
  | cons c cs ih =>
      simp only [List.cons_append, continue?]
      cases value? c with
      | none => rfl
      | some d => simp [ih]

theorem continue?_digits (n width v : Nat) :
    continue? n (digits width v) = some (n * 16 ^ width + v % 16 ^ width) := by
  induction width generalizing v with
  | zero => simp [digits, continue?, Nat.mod_one]
  | succ width ih =>
      have last : v % 16 < 16 := Nat.mod_lt _ (by decide)
      have split : v % 16 ^ (width + 1) = 16 * (v / 16 % 16 ^ width) + v % 16 := by
        rw [Nat.pow_succ', Nat.mod_mul]
        omega
      rw [digits, continue?_append, ih, Option.bind_some, continue?, value?_digit last,
        Option.bind_some, continue?, split, Nat.pow_succ, Nat.mul_add, Nat.add_assoc,
        Nat.mul_left_comm, Nat.mul_comm 16 (16 ^ width)]

theorem toNat?_digits {width v : Nat} (fits : v < 16 ^ width) : toNat? (digits width v) = some v := by
  rw [toNat?, continue?_digits, Nat.mod_eq_of_lt fits, Nat.zero_mul, Nat.zero_add]

end Hex

end GigBoard.Text

/-! ## Identifiers -/

namespace GigBoard.Uuid

theorem length_grouped {ds : List Char} (all : ds.length = 32) : (grouped ds).length = 36 := by
  simp [grouped]
  omega

theorem length_text (id : Uuid) : id.text.toList.length = 36 := by
  simp only [text, chars, String.toList_ofList]
  exact length_grouped (Text.Hex.length_digits 32 id.value)

/-- The digits are found again between the hyphens. -/
theorem regrouped {ds : List Char} (all : ds.length = 32) :
    (grouped ds).take 8 ++ ((grouped ds).drop 9).take 4 ++ ((grouped ds).drop 14).take 4 ++
      ((grouped ds).drop 19).take 4 ++ (grouped ds).drop 24 = ds := by
  match ds, all with
  | [a, b, c, d, e, f, g, h, i, j, k, l, m, n, o, p, q, r, s, t, u, v, w, x, y, z, a', b', c', d',
      e', f'], _ => rfl

theorem ofDigits?_digits (id : Uuid) : ofDigits? (Text.Hex.digits 32 id.value) = some id := by
  have fits : id.value < 16 ^ 32 := id.value_lt
  rw [ofDigits?, if_pos (Text.Hex.length_digits 32 id.value), Text.Hex.toNat?_digits fits,
    Option.map_some, ofNat]
  congr
  exact Nat.mod_eq_of_lt id.value_lt

/-- The written form of an identifier is read as the identifier. -/
theorem ofString?_text (id : Uuid) : ofString? id.text = some id := by
  have all := Text.Hex.length_digits 32 id.value
  have written : id.text.toList = grouped (Text.Hex.digits 32 id.value) := by simp [text, chars]
  have again := regrouped all
  rw [ofString?, written, ofChars?, length_grouped all, if_neg (by decide), if_pos rfl, ofGrouped?]
  simp only [again, if_true, ofDigits?_digits]

/-- Identifiers are told apart by their written forms. -/
theorem text_injective : Function.Injective text := by
  intro a b same
  have read : ofString? a.text = ofString? b.text := congrArg ofString? same
  rw [ofString?_text, ofString?_text] at read
  exact Option.some.inj read

end GigBoard.Uuid
