import GigBoard.Proofs.Searching

/-!
# What a pattern stands for

`Pattern.StandsFor` says of which texts a pattern is the pattern, character by character and without
a reader or a matcher: a run for `%`, one character for `_`, the next character itself behind a
backslash, and every other character itself, letters of the ASCII alphabet in either case.  Matching
decides it for every pattern.  The pattern around a search text stands for the texts that have it
somewhere, whatever characters it is made of.
-/

set_option autoImplicit false

namespace GigBoard.Text

/-- The same character, or the same letter of the ASCII alphabet in the other case. -/
def SameUpToCase (a b : Char) : Prop :=
  a = b ∨ (a.isUpper = true ∧ b.toNat = a.toNat + 32) ∨ (b.isUpper = true ∧ a.toNat = b.toNat + 32)

instance (a b : Char) : Decidable (SameUpToCase a b) := inferInstanceAs (Decidable (_ ∨ _ ∨ _))

theorem isUpper_iff (c : Char) : c.isUpper = true ↔ 65 ≤ c.toNat ∧ c.toNat ≤ 90 := by
  have capital : c.isUpper = decide (c.val ≥ 'A'.val ∧ c.val ≤ 'Z'.val) := rfl
  rw [capital, decide_eq_true_eq, ge_iff_le, UInt32.le_iff_toNat_le, UInt32.le_iff_toNat_le]
  rfl

theorem toNat_toLower (c : Char) :
    c.toLower.toNat = if c.isUpper then c.toNat + 32 else c.toNat := by
  by_cases capital : c.val ≥ 'A'.val ∧ c.val ≤ 'Z'.val
  · have upper : c.isUpper = true := decide_eq_true capital
    have lower : c.toLower.val = c.val + 32 := congrArg Char.val (dif_pos capital)
    have small : c.val.toNat ≤ 90 := ((isUpper_iff c).mp upper).2
    rw [if_pos upper]
    change c.toLower.val.toNat = c.val.toNat + 32
    rw [lower, UInt32.toNat_add]
    exact Nat.mod_eq_of_lt (by change c.val.toNat + 32 < _; omega)
  · have upper : ¬c.isUpper = true := by
      rw [Bool.not_eq_true]
      exact decide_eq_false capital
    have same : c.toLower = c := dif_neg capital
    rw [if_neg upper, same]

theorem toLower_eq_iff (a b : Char) : a.toLower = b.toLower ↔ SameUpToCase a b := by
  rw [← Char.toNat_inj, toNat_toLower, toNat_toLower, SameUpToCase, ← Char.toNat_inj]
  simp only [isUpper_iff]
  split
  · split <;> omega
  · split <;> omega

/-- A text contains some characters if it falls into three parts the second of which they are. -/
theorem contains_iff (text part : List Char) : Contains text part ↔
    ∃ before found after, text = before ++ found ++ after ∧
      List.Forall₂ SameUpToCase part found := by
  have same (found : List Char) :
      part.map Char.toLower = found.map Char.toLower ↔ List.Forall₂ SameUpToCase part found := by
    rw [← List.forall₂_eq_eq_eq, List.forall₂_map_left_iff, List.forall₂_map_right_iff]
    simp only [toLower_eq_iff]
  constructor
  · rintro ⟨front, back, whole⟩
    obtain ⟨first, after, rfl, isFirst, _⟩ := List.map_eq_append_iff.mp whole.symm
    obtain ⟨before, found, rfl, _, isFound⟩ := List.map_eq_append_iff.mp isFirst
    exact ⟨before, found, after, rfl, (same found).mp isFound.symm⟩
  · rintro ⟨before, found, after, rfl, matched⟩
    refine ⟨before.map Char.toLower, after.map Char.toLower, ?_⟩
    rw [(same found).mpr matched, List.map_append, List.map_append]

namespace Pattern

variable {pattern text : List Char} {c : Char}

inductive StandsFor : List Char → List Char → Prop where
  | empty : StandsFor [] []
  | anyRun {pattern text : List Char} (run : List Char) (rest : StandsFor pattern text) :
      StandsFor ('%' :: pattern) (run ++ text)
  | anyOne {pattern text : List Char} (c : Char) (rest : StandsFor pattern text) :
      StandsFor ('_' :: pattern) (c :: text)
  | escaped {pattern text : List Char} {c d : Char} (same : SameUpToCase c d)
      (rest : StandsFor pattern text) : StandsFor ('\\' :: c :: pattern) (d :: text)
  | plain {pattern text : List Char} {c d : Char} (noRun : c ≠ '%') (noOne : c ≠ '_')
      (noEscape : c ≠ '\\') (same : SameUpToCase c d) (rest : StandsFor pattern text) :
      StandsFor (c :: pattern) (d :: text)

theorem standsFor_nil_iff : StandsFor [] text ↔ text = [] := by
  constructor
  · rintro ⟨⟩
    rfl
  · rintro rfl
    exact .empty

theorem standsFor_anyRun_iff : StandsFor ('%' :: pattern) text ↔
    ∃ rest, rest <:+ text ∧ StandsFor pattern rest := by
  constructor
  · rintro (_ | ⟨run, rest⟩ | _ | _ | ⟨noRun, _⟩)
    · exact ⟨_, List.suffix_append run _, rest⟩
    · exact absurd rfl noRun
  · rintro ⟨rest, ⟨run, rfl⟩, standsFor⟩
    exact .anyRun run standsFor

theorem standsFor_anyOne_iff : StandsFor ('_' :: pattern) text ↔
    ∃ d rest, text = d :: rest ∧ StandsFor pattern rest := by
  constructor
  · rintro (_ | _ | ⟨d, rest⟩ | _ | ⟨_, noOne, _⟩)
    · exact ⟨d, _, rfl, rest⟩
    · exact absurd rfl noOne
  · rintro ⟨d, rest, rfl, standsFor⟩
    exact .anyOne d standsFor

theorem standsFor_escaped_iff : StandsFor ('\\' :: c :: pattern) text ↔
    ∃ d rest, text = d :: rest ∧ SameUpToCase c d ∧ StandsFor pattern rest := by
  constructor
  · rintro (_ | _ | _ | ⟨same, rest⟩ | ⟨_, _, noEscape, _⟩)
    · exact ⟨_, _, rfl, same, rest⟩
    · exact absurd rfl noEscape
  · rintro ⟨d, rest, rfl, same, standsFor⟩
    exact .escaped same standsFor

/-- A pattern that ends in an open escape stands for nothing. -/
theorem not_standsFor_open : ¬StandsFor ['\\'] text := by
  rintro (_ | _ | _ | _ | ⟨_, _, noEscape, _⟩)
  exact noEscape rfl

theorem standsFor_plain_iff (noRun : c ≠ '%') (noOne : c ≠ '_') (noEscape : c ≠ '\\') :
    StandsFor (c :: pattern) text ↔
      ∃ d rest, text = d :: rest ∧ SameUpToCase c d ∧ StandsFor pattern rest := by
  constructor
  · intro standsFor
    cases standsFor with
    | anyRun => exact absurd rfl noRun
    | anyOne => exact absurd rfl noOne
    | escaped => exact absurd rfl noEscape
    | plain _ _ _ same rest => exact ⟨_, _, rfl, same, rest⟩
  · rintro ⟨d, rest, rfl, same, standsFor⟩
    exact .plain noRun noOne noEscape same standsFor

/-! ## Matching decides what patterns stand for -/

theorem accepts_anyOne_iff (ps : List PatternPiece) : accepts (.anyOne :: ps) text = true ↔
    ∃ d rest, text = d :: rest ∧ accepts ps rest = true := by
  cases text with
  | nil => simp [accepts]
  | cons d rest => simp [accepts]

theorem accepts_literal_iff (ps : List PatternPiece) : accepts (.literal c :: ps) text = true ↔
    ∃ d rest, text = d :: rest ∧ SameUpToCase c d ∧ accepts ps rest = true := by
  cases text with
  | nil => simp [accepts]
  | cons d rest => simp [accepts, sameLetter, toLower_eq_iff]

/-- Matching by the elements of a pattern; one without elements matches nothing. -/
theorem matchesText_eq (pattern text : List Char) :
    matchesText pattern text = (parse? pattern).any (accepts · text) := by
  unfold matchesText
  cases parse? pattern <;> rfl

theorem matchesText_iff (pattern text : List Char) :
    matchesText pattern text = true ↔ StandsFor pattern text := by
  rw [matchesText_eq]
  -- One case for each kind of element at the front, and one for an escape that is left open.
  fun_induction parse? pattern generalizing text with
  | case1 => cases text <;> simp [standsFor_nil_iff, accepts]
  | case2 cs ih =>
      rw [standsFor_anyRun_iff, Option.any_map]
      simp only [← ih]
      cases parse? cs with
      | none => simp
      | some ps => simp [accepts_anyRun_iff]
  | case3 cs ih =>
      rw [standsFor_anyOne_iff, Option.any_map]
      simp only [← ih]
      cases parse? cs with
      | none => simp
      | some ps => simp [accepts_anyOne_iff]
  | case4 => simp [not_standsFor_open]
  | case5 c cs ih =>
      rw [standsFor_escaped_iff, Option.any_map]
      simp only [← ih]
      cases parse? cs with
      | none => simp
      | some ps => simp [accepts_literal_iff]
  | case6 c cs noRun noOne noOpen noEscape ih =>
      have other : c ≠ '\\' := by
        rintro rfl
        cases cs with
        | nil => exact noOpen rfl rfl
        | cons d ds => exact noEscape d ds rfl rfl
      rw [standsFor_plain_iff noRun noOne other, Option.any_map]
      simp only [← ih]
      cases parse? cs with
      | none => simp
      | some ps => simp [accepts_literal_iff]

/-- A search text is looked for as it is.  The pattern around it reads as a run, its characters, and
a run, so that none of them is special and no escape is left open; matching finds it in a text
exactly if the pattern stands for the text, and exactly if the text has it somewhere, letters of the
ASCII alphabet in either case. -/
theorem search_is_literal (part text : List Char) :
    parse? (around part) = some (.anyRun :: (part.map .literal ++ [.anyRun])) ∧
    (matchesText (around part) text = true ↔ StandsFor (around part) text) ∧
    (StandsFor (around part) text ↔ ∃ before found after, text = before ++ found ++ after ∧
      List.Forall₂ SameUpToCase part found) := by
  refine ⟨parse?_around part, matchesText_iff _ _, ?_⟩
  rw [← matchesText_iff, matchesText_around_iff, contains_iff]

end Pattern

end GigBoard.Text
