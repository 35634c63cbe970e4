import GigBoard.Json.Scanner
import GigBoard.Number.DecimalText
import GigBoard.Proofs.Utf8
import Mathlib.Algebra.GroupWithZero.Nat

/-!
# Numerals read back

A natural number of 64 bits is read back from its decimal digits.  A numeral is read as a whole number
only if it can be read as a real one too, so the real number has to be there: it is far from the
greatest.
-/

set_option autoImplicit false

namespace GigBoard

/-! ## Small numbers are no overflow -/

namespace Binary64

variable {n d num den : Nat} {e : Int}

theorem exponentOf_le (num den : Nat) :
    exponentOf num den ≤ max ((num.log2 : Int) - den.log2 - 52) leastExponent := by
  unfold exponentOf
  dsimp only
  split <;> omega

theorem le_exponentOf (num den : Nat) : (num.log2 : Int) - den.log2 - 53 ≤ exponentOf num den := by
  unfold exponentOf
  dsimp only
  split <;> omega

/-- Rounding to a mantissa of 54 bits moves the point by one. -/
theorem ofRatio_eq (notZero : num ≠ 0) (isExponent : exponentOf num den = e)
    (isScaled : scaled num den e = (n, d)) : ofRatio num den =
      if roundQuotient n d = Nat.pow 2 53 then
        if greatestExponent < e + 1 then none else some ⟨false, Nat.pow 2 52, e + 1⟩
      else if greatestExponent < e then none else some ⟨false, roundQuotient n d, e⟩ := by
  rw [ofRatio, if_neg notZero, isExponent]
  simp only [isScaled]
  by_cases carry : roundQuotient n d = Nat.pow 2 53
  · rw [if_pos carry, if_pos carry]
  · rw [if_neg carry, if_neg carry]

theorem ofRatio_of_small (notZero : num ≠ 0) (small : num.log2 ≤ 900)
    (isExponent : exponentOf num den = e) (isScaled : scaled num den e = (n, d)) :
    ∃ x, ofRatio num den = some x ∧ x.mantissa ≤ max (Nat.pow 2 52) (roundQuotient n d) ∧
      x.exponent ≤ e + 1 := by
  have upper := exponentOf_le num den
  have least : leastExponent = -1074 := rfl
  have greatest : greatestExponent = 971 := rfl
  rw [ofRatio_eq notZero isExponent isScaled]
  split
  · rw [if_neg (by omega)]
    exact ⟨_, rfl, Nat.le_max_left _ _, Int.le_refl _⟩
  · rw [if_neg (by omega)]
    exact ⟨_, rfl, Nat.le_max_right _ _, Int.le_add_one (Int.le_refl _)⟩

theorem roundQuotient_le (num den : Nat) : roundQuotient num den ≤ num + 1 := by
  have quotient := Nat.div_le_self num den
  unfold roundQuotient
  dsimp only
  split
  · omega
  · split <;> omega

/-- The number nearest to a natural number of 64 bits stays within generous bounds. -/
theorem ofNat_of_small (notZero : n ≠ 0) (small : n < 2 ^ 64) :
    ∃ x, ofNat n = some x ∧ x.mantissa ≤ n * 2 ^ 53 + 2 ^ 53 ∧ x.exponent ≤ 13 := by
  have log : n.log2 < 64 := (Nat.log2_lt notZero).mpr small
  have upper := exponentOf_le n 1
  have lower := le_exponentOf n 1
  have least : leastExponent = -1074 := rfl
  have one : Nat.log2 1 = 0 := rfl
  generalize isExponent : exponentOf n 1 = e at upper lower
  rcases isScaled : scaled n 1 e with ⟨a, b⟩
  obtain ⟨x, isNumber, mantissa, exponent⟩ :=
    ofRatio_of_small notZero (by omega) isExponent isScaled
  -- The exponent is no less than -53, so scaling moves the point by at most 53 binary places.
  have numerator : a ≤ n * 2 ^ 53 := by
    unfold scaled at isScaled
    split at isScaled
    · cases isScaled
      exact Nat.le_mul_of_pos_right n (Nat.two_pow_pos 53)
    · cases isScaled
      exact Nat.mul_le_mul_left n (Nat.pow_le_pow_right (by decide) (by omega))
  have rounded := roundQuotient_le a b
  have limit : Nat.pow 2 52 ≤ 2 ^ 53 := by decide
  exact ⟨x, isNumber, by omega, by omega⟩

theorem fraction_fst_le {x : Binary64} {k : Nat} (exponent : x.exponent ≤ k) :
    x.fraction.1 ≤ x.mantissa * 2 ^ k := by
  unfold fraction
  split
  · exact Nat.mul_le_mul_left _ (Nat.pow_le_pow_right (by decide) (by omega))
  · exact Nat.le_mul_of_pos_right _ (Nat.two_pow_pos k)

theorem ofRatio_of_lt (small : num < 2 ^ 200) : ∃ x, ofRatio num den = some x := by
  by_cases zero : num = 0
  · exact ⟨_, if_pos zero⟩
  · rcases isScaled : scaled num den (exponentOf num den) with ⟨n, d⟩
    have log : num.log2 < 200 := (Nat.log2_lt zero).mpr small
    obtain ⟨x, isNumber, _⟩ := ofRatio_of_small zero (by omega) rfl isScaled
    exact ⟨x, isNumber⟩

theorem mul_one_of_small {x : Binary64} (small : x.fraction.1 * 2 ^ 52 < 2 ^ 200) :
    ∃ y, x.mul (powerOfTen 0) = some y := by
  have one : (powerOfTen 0).fraction = (2 ^ 52, 2 ^ 52) := by decide +kernel
  rcases isFraction : x.fraction with ⟨a, b⟩
  rw [isFraction] at small
  obtain ⟨y, isNumber⟩ : ∃ y, ofRatio (a * 2 ^ 52) (b * 2 ^ 52) = some y := ofRatio_of_lt small
  rw [mul, isFraction, one]
  exact ⟨_, Option.map_eq_some_iff.mpr ⟨y, isNumber, rfl⟩⟩

end Binary64

namespace Json

theorem realOf_of_small {n : Nat} (small : n < 2 ^ 64) : ∃ x, realOf true n 0 = some x := by
  by_cases zero : n = 0
  · rw [zero]
    exact ⟨_, rfl⟩
  · obtain ⟨x, isNumber, mantissa, exponent⟩ := Binary64.ofNat_of_small zero small
    have numerator := Binary64.fraction_fst_le (k := 13) exponent
    obtain ⟨y, isScaled⟩ : ∃ y, x.scaleByTen 0 = some y := by
      rw [Binary64.scaleByTen]
      split
      · exact ⟨_, rfl⟩
      · exact Binary64.mul_one_of_small (by omega)
    rw [realOf, isNumber, Option.bind_some, isScaled]
    exact ⟨_, rfl⟩

/-! ## Digits -/

open Text.Utf8 (encode encode_append)

variable {n d kept : Nat} {rest : List UInt8}

/-- What follows a numeral does not go on with it. -/
def EndsNumber (rest : List UInt8) : Prop :=
  ∀ b ∈ rest.head?, isDigit b = false ∧ b ≠ octet '.' ∧ isExponentMark b = false

theorem encode_digitChar (small : d < 10) : encode [Nat.digitChar d] = [octet (Nat.digitChar d)] ∧
    isDigit (octet (Nat.digitChar d)) = true ∧ digitValue (octet (Nat.digitChar d)) = d := by
  revert d
  decide

theorem wholeDigits_digit (small : d < 10) (fits : 10 * kept + d < 2 ^ 64) :
    wholeDigits kept (encode [Nat.digitChar d] ++ rest) = wholeDigits (10 * kept + d) rest := by
  obtain ⟨written, digit, value⟩ := encode_digitChar small
  have isFit : Json.fits kept (octet (Nat.digitChar d)) = true := by
    rw [Json.fits, value]
    exact decide_eq_true fits
  rw [written, List.singleton_append, wholeDigits, if_pos digit, if_pos isFit, value]

theorem wholeDigits_toDigits (fits : n < 2 ^ 64) (rest : List UInt8) :
    wholeDigits 0 (encode (Nat.toDigits 10 n) ++ rest) = wholeDigits n rest := by
  induction n using Nat.strongRecOn generalizing rest with
  | ind n ih =>
      by_cases one : n < 10
      · rw [Nat.toDigits_of_lt_base one, wholeDigits_digit one (by omega), Nat.mul_zero,
          Nat.zero_add]
      · have whole : 10 * (n / 10) + n % 10 = n := Nat.div_add_mod n 10
        rw [Nat.toDigits_of_base_le (by decide) (by omega), encode_append, List.append_assoc,
          ih (n / 10) (by omega) (by omega), wholeDigits_digit (by omega) (by omega), whole]

/-- A numeral begins with a digit, and with zero only if it is that of zero. -/
theorem encode_toDigits (n : Nat) : ∃ b tail, encode (Nat.toDigits 10 n) = b :: tail ∧
    isDigit b = true ∧ (b = octet '0' → n = 0) ∧ (n = 0 → tail = []) := by
  induction n using Nat.strongRecOn with
  | ind n ih =>
      by_cases one : n < 10
      · have first : ∀ d < 10, octet (Nat.digitChar d) = octet '0' → d = 0 := by decide
        obtain ⟨written, digit, _⟩ := encode_digitChar one
        rw [Nat.toDigits_of_lt_base one]
        exact ⟨_, [], written, digit, first n one, fun _ => rfl⟩
      · obtain ⟨b, tail, written, digit, first, _⟩ := ih (n / 10) (by omega)
        rw [Nat.toDigits_of_base_le (by decide) (by omega), encode_append, written]
        refine ⟨b, _, rfl, digit, ?_, by omega⟩
        intro isZero
        have := first isZero
        omega

theorem wholeDigits_of_ends (ends : EndsNumber rest) : wholeDigits kept rest = ⟨kept, 0, rest⟩ := by
  cases rest with
  | nil => rfl
  | cons b rest => rw [wholeDigits, (ends b rfl).1, if_neg Bool.false_ne_true]

theorem scanScale_of_ends (fits : n < 2 ^ 64) (ends : EndsNumber rest) :
    ∃ x, scanScale true n (0 : Nat) rest = .ok (.real x, rest) := by
  obtain ⟨x, isReal⟩ := realOf_of_small fits
  refine ⟨x, ?_⟩
  cases rest with
  | nil =>
      rw [scanScale, Int.natCast_zero, isReal]
  | cons b rest =>
      rw [scanScale, (ends b rfl).2.2, if_neg Bool.false_ne_true, Int.natCast_zero, isReal]

theorem scanNumber_toDigits (fits : n < 2 ^ 64) (ends : EndsNumber rest) :
    scanNumber true (encode (Nat.toDigits 10 n) ++ rest) = .ok (.natural n, rest) := by
  obtain ⟨b, tail, written, digit, first, single⟩ := encode_toDigits n
  have digits := wholeDigits_toDigits fits rest
  obtain ⟨x, isReal⟩ := scanScale_of_ends fits ends
  -- A leading zero would be refused; it is the whole numeral, and no digit follows it.
  have noLeadingZero :
      (b = octet '0' && ((tail ++ rest).head?.map isDigit).getD false) = false := by
    by_cases zero : b = octet '0'
    · rw [single (first zero), List.nil_append, Bool.and_eq_false_iff]
      right
      cases rest with
      | nil => rfl
      | cons c rest => exact (ends c rfl).1
    · rw [decide_eq_false zero, Bool.false_and]
  rw [written, List.cons_append, wholeDigits_of_ends ends] at digits
  rw [written, List.cons_append, scanNumber, digit, noLeadingZero, digits]
  cases rest with
  | nil =>
      simp only [isReal]
      rfl
  | cons c rest =>
      obtain ⟨_, notPoint, notExponent⟩ := ends c rfl
      simp only [isReal, if_neg notPoint, notExponent]
      rfl

end Json

end GigBoard
