import GigBoard.Number.DecimalText
import GigBoard.Text.Integer

/-!
# Whole numbers and their texts

A whole number is written in decimal digits with at most one sign in front of them.  A signed range is
read from these forms and from nothing else: the limit that is watched digit by digit lets every number
of the range pass, whatever zeros it begins with, and stops every other number.
-/

set_option autoImplicit false

namespace GigBoard.Text

theorem int64_contains_iff (n : Int) : IntegerRange.int64.contains n = true ↔
    -9223372036854775808 ≤ n ∧ n ≤ 9223372036854775807 := by
  rw [IntegerRange.contains, Bool.and_eq_true, decide_eq_true_eq, decide_eq_true_eq]
  rfl

/-! ## Written forms -/

def IsNumeral (ds : List Char) : Prop := ds ≠ [] ∧ ∀ d ∈ ds, d.isDigit = true

/-- The written forms of a whole number: decimal digits with at most one sign in front of them. -/
inductive WritesInteger : List Char → Int → Prop where
  | unsigned {ds : List Char} (digits : IsNumeral ds) : WritesInteger ds (Nat.ofDigitChars 10 ds 0)
  | plus {ds : List Char} (digits : IsNumeral ds) :
      WritesInteger ('+' :: ds) (Nat.ofDigitChars 10 ds 0)
  | minus {ds : List Char} (digits : IsNumeral ds) :
      WritesInteger ('-' :: ds) (-Nat.ofDigitChars 10 ds 0)

section

variable {limit n m : Nat} {beyond : IntegerFault} {c : Char} {cs ds : List Char}
  {range : IntegerRange} {k : Int}

theorem isDigit_iff : c.isDigit = true ↔ 48 ≤ c.toNat ∧ c.toNat ≤ 57 := by
  rw [Char.isDigit, Bool.and_eq_true, decide_eq_true_eq, decide_eq_true_eq]
  exact Iff.rfl

/-- A sign is no digit. -/
theorem IsNumeral.not_sign (digits : IsNumeral (c :: ds)) : c ≠ '+' ∧ c ≠ '-' := by
  have digit := digits.2 c List.mem_cons_self
  constructor
  · rintro rfl
    exact absurd digit (by decide)
  · rintro rfl
    exact absurd digit (by decide)

theorem writesInteger_plus_iff : WritesInteger ('+' :: ds) k ↔
    IsNumeral ds ∧ (Nat.ofDigitChars 10 ds 0 : Int) = k := by
  constructor
  · intro writes
    cases writes with
    | unsigned digits => exact absurd rfl digits.not_sign.1
    | plus digits => exact ⟨digits, rfl⟩
  · rintro ⟨digits, rfl⟩
    exact .plus digits

theorem writesInteger_minus_iff : WritesInteger ('-' :: ds) k ↔
    IsNumeral ds ∧ -(Nat.ofDigitChars 10 ds 0 : Int) = k := by
  constructor
  · intro writes
    cases writes with
    | unsigned digits => exact absurd rfl digits.not_sign.2
    | minus digits => exact ⟨digits, rfl⟩
  · rintro ⟨digits, rfl⟩
    exact .minus digits

theorem writesInteger_unsigned_iff (notPlus : cs.head? ≠ some '+')
    (notMinus : cs.head? ≠ some '-') :
    WritesInteger cs k ↔ IsNumeral cs ∧ (Nat.ofDigitChars 10 cs 0 : Int) = k := by
  constructor
  · intro writes
    cases writes with
    | unsigned digits => exact ⟨digits, rfl⟩
    | plus digits => exact absurd rfl notPlus
    | minus digits => exact absurd rfl notMinus
  · rintro ⟨digits, rfl⟩
    exact .unsigned digits

theorem isNumeral_toDigits (n : Nat) : IsNumeral (Nat.toDigits 10 n) :=
  ⟨Nat.toDigits_ne_nil, fun _ => Nat.isDigit_of_mem_toDigits (by decide) (by decide)⟩

/-- The decimal digits in which a number is sent are one of its written forms. -/
theorem writesInteger_integerText (n : Int) : WritesInteger (DecimalStyle.integerText n) n := by
  cases n with
  | ofNat n =>
      have writes := WritesInteger.unsigned (isNumeral_toDigits n)
      rwa [Nat.ofDigitChars_ten_toDigits] at writes
  | negSucc n =>
      have writes := WritesInteger.minus (isNumeral_toDigits (n + 1))
      rwa [Nat.ofDigitChars_ten_toDigits] at writes

/-! ## Magnitudes -/

theorem digit?_eq_some_iff {d : Nat} :
    digit? c = some d ↔ c.isDigit = true ∧ c.toNat - '0'.toNat = d := by
  rw [digit?, isDigit_iff]
  split
  · rename_i digit
    simp [digit]
  · rename_i noDigit
    simp [noDigit]

/-- More digits never make a number smaller. -/
theorem le_ofDigitChars (n : Nat) (ds : List Char) : n ≤ Nat.ofDigitChars 10 ds n := by
  induction ds generalizing n with
  | nil => simp
  | cons d ds ih =>
      have later := ih (10 * n + (d.toNat - '0'.toNat))
      rw [Nat.ofDigitChars_cons]
      omega

/-- A magnitude that is beyond its limit once is beyond it at the end, so the limit counts only
there. -/
theorem readMagnitude_eq_ok_iff (within : n ≤ limit) : readMagnitude limit beyond n ds = .ok m ↔
    (∀ d ∈ ds, d.isDigit = true) ∧ Nat.ofDigitChars 10 ds n = m ∧ m ≤ limit := by
  induction ds generalizing n with
  | nil =>
      rw [readMagnitude, Nat.ofDigitChars_nil]
      constructor
      · intro read
        cases read
        exact ⟨nofun, rfl, within⟩
      · rintro ⟨_, rfl, _⟩
        rfl
  | cons c ds ih =>
      rw [readMagnitude, Nat.ofDigitChars_cons, List.forall_mem_cons]
      cases value : digit? c with
      | none =>
          have noDigit : ¬c.isDigit = true := by
            intro digit
            rw [digit?_eq_some_iff.mpr ⟨digit, rfl⟩] at value
            cases value
          simp [noDigit]
      | some d =>
          obtain ⟨digit, rfl⟩ := digit?_eq_some_iff.mp value
          have grows := le_ofDigitChars (10 * n + (c.toNat - '0'.toNat)) ds
          simp only [digit, true_and]
          split
          · rename_i fits
            exact ih fits
          · simp only [reduceCtorEq, false_iff, not_and]
            omega

theorem readMagnitude_map_eq_ok_iff {f : Nat → Int} (filled : ds ≠ []) :
    (readMagnitude limit beyond 0 ds).map f = .ok k ↔
      IsNumeral ds ∧ f (Nat.ofDigitChars 10 ds 0) = k ∧ Nat.ofDigitChars 10 ds 0 ≤ limit := by
  cases read : readMagnitude limit beyond 0 ds with
  | error fault =>
      have unread : ¬(IsNumeral ds ∧ Nat.ofDigitChars 10 ds 0 ≤ limit) := by
        rintro ⟨digits, fits⟩
        rw [(readMagnitude_eq_ok_iff (Nat.zero_le _)).mpr ⟨digits.2, rfl, fits⟩] at read
        cases read
      simp only [Except.map, reduceCtorEq, false_iff]
      exact fun written => unread ⟨written.1, written.2.2⟩
  | ok m =>
      obtain ⟨digits, rfl, fits⟩ := (readMagnitude_eq_ok_iff (Nat.zero_le _)).mp read
      have numeral : IsNumeral ds := ⟨filled, digits⟩
      simp [Except.map, numeral, fits]

/-! ## Reading -/

theorem readNatural_eq_ok_iff : readNatural range ds = .ok k ↔ IsNumeral ds ∧
    (Nat.ofDigitChars 10 ds 0 : Int) = k ∧ Nat.ofDigitChars 10 ds 0 ≤ range.high.toNat := by
  cases ds with
  | nil => simp [readNatural, IsNumeral]
  | cons d ds => exact readMagnitude_map_eq_ok_iff (List.cons_ne_nil d ds)

theorem readInteger_minus (signed : range.low < 0) (filled : ds ≠ []) :
    readInteger range ('-' :: ds) =
      (readMagnitude (-range.low).toNat .tooSmall 0 ds).map fun n : Nat => -(n : Int) := by
  cases ds with
  | nil => exact absurd rfl filled
  | cons d ds =>
      simp only [readInteger, if_pos signed]
      cases readMagnitude (-range.low).toNat .tooSmall 0 (d :: ds) <;> rfl

theorem readInteger_unsigned (notPlus : c ≠ '+') (notMinus : c ≠ '-') :
    readInteger range (c :: cs) = readNatural range (c :: cs) := by
  rw [readInteger]
  · simp
  · simp [notPlus]
  · simp [notMinus]

/-- A number of a range that reaches below zero is read from its written forms, and from nothing
else. -/
theorem readInteger_eq_ok_iff (signed : range.low < 0) (wide : 0 ≤ range.high) :
    readInteger range cs = .ok k ↔ WritesInteger cs k ∧ range.contains k = true := by
  rw [IntegerRange.contains, Bool.and_eq_true, decide_eq_true_eq, decide_eq_true_eq]
  have natural (ds : List Char) : readNatural range ds = .ok k ↔
      IsNumeral ds ∧ (Nat.ofDigitChars 10 ds 0 : Int) = k ∧ range.low ≤ k ∧ k ≤ range.high := by
    rw [readNatural_eq_ok_iff]
    refine and_congr_right fun _ => and_congr_right ?_
    rintro rfl
    omega
  by_cases isMinus : cs.head? = some '-'
  · obtain ⟨ds, rfl⟩ := List.head?_eq_some_iff.mp isMinus
    rw [writesInteger_minus_iff, and_assoc]
    by_cases filled : ds = []
    · simp [filled, readInteger, IsNumeral]
    · rw [readInteger_minus signed filled, readMagnitude_map_eq_ok_iff filled]
      refine and_congr_right fun _ => and_congr_right ?_
      rintro rfl
      omega
  by_cases isPlus : cs.head? = some '+'
  · obtain ⟨ds, rfl⟩ := List.head?_eq_some_iff.mp isPlus
    rw [readInteger, natural, writesInteger_plus_iff, and_assoc]
  · rw [writesInteger_unsigned_iff isPlus isMinus, and_assoc, ← natural]
    cases cs with
    | nil => simp [readInteger, readNatural]
    | cons c cs => rw [readInteger_unsigned (by simpa using isPlus) (by simpa using isMinus)]

/-- A number of a range that reaches below zero is read from its own digits. -/
theorem readInteger_integerText (signed : range.low < 0) (wide : 0 ≤ range.high)
    (within : range.contains k = true) : readInteger range (DecimalStyle.integerText k) = .ok k :=
  (readInteger_eq_ok_iff signed wide).mpr ⟨writesInteger_integerText k, within⟩

end

end GigBoard.Text
