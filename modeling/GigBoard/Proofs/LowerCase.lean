import GigBoard.Account.Registration
import GigBoard.Proofs.Searching

/-!
# Texts in lower case

The lower-case form of a text is its own lower-case form, and it has no blanks that were not there
before.  So the form in which a wallet is kept does not change when it is made once more.
-/

set_option autoImplicit false

namespace GigBoard.Text.LowerCase

/-! ## The table -/

namespace CaseRun

def start (run : CaseRun) : Nat := (run.first + run.shift).toNat

def stop (run : CaseRun) : Nat := (run.last + run.shift).toNat

def leadsToCharacters (run : CaseRun) : Bool :=
  decide (0 ≤ run.first + run.shift) &&
    (Nat.blt run.stop 0xD800 || (Nat.blt 0xDFFF run.start && Nat.blt run.stop 0x110000))

def avoids (run other : CaseRun) : Bool :=
  Nat.blt run.stop other.first || Nat.blt other.last run.start ||
    (Nat.beq other.step 2 && (Nat.beq run.step 2 || Nat.beq run.first run.last) &&
      Nat.beq ((run.start + other.first) % 2) 1)

variable {run other : CaseRun} {n m : Nat}

theorem holds_iff : run.holds n = true ↔
    run.first ≤ n ∧ n ≤ run.last ∧ (n - run.first) % run.step = 0 := by
  simp [holds, and_assoc]

theorem isValidChar_of_holds (characters : run.leadsToCharacters = true)
    (held : run.holds n = true) : (n + run.shift).toNat.isValidChar := by
  obtain ⟨least, greatest, _⟩ := holds_iff.mp held
  simp only [leadsToCharacters, start, stop, Bool.and_eq_true, Bool.or_eq_true, decide_eq_true_eq,
    Nat.blt_eq] at characters
  rw [Nat.isValidChar]
  omega

theorem not_holds_of_avoids (apart : run.avoids other = true)
    (characters : run.leadsToCharacters = true) (held : run.holds n = true) :
    other.holds (n + run.shift).toNat = false := by
  rw [Bool.eq_false_iff]
  intro heldByOther
  obtain ⟨least, greatest, inStep⟩ := holds_iff.mp held
  obtain ⟨least', greatest', inStep'⟩ := holds_iff.mp heldByOther
  simp only [leadsToCharacters, Bool.and_eq_true, decide_eq_true_eq] at characters
  have positive := characters.1
  simp only [avoids, start, stop, Bool.or_eq_true, Bool.and_eq_true, Nat.blt_eq, Nat.beq_eq] at apart
  rcases apart with (below | above) | ⟨⟨step', two | one⟩, odd⟩
  · omega
  · omega
  · rw [two] at inStep
    rw [step'] at inStep'
    omega
  · rw [step'] at inStep'
    omega

end CaseRun

/-- The white space as runs. -/
def blankRuns : List CaseRun := [
  ⟨9, 13, 1, 0⟩, ⟨0x20, 0x20, 1, 0⟩, ⟨0x85, 0x85, 1, 0⟩, ⟨0xA0, 0xA0, 1, 0⟩, ⟨0x1680, 0x1680, 1, 0⟩,
  ⟨0x2000, 0x200A, 1, 0⟩, ⟨0x2028, 0x2028, 1, 0⟩, ⟨0x2029, 0x2029, 1, 0⟩, ⟨0x202F, 0x202F, 1, 0⟩,
  ⟨0x205F, 0x205F, 1, 0⟩, ⟨0x3000, 0x3000, 1, 0⟩]

/-- The capital letter with a dot above, whose lower-case form has two characters. -/
def dottedRun : CaseRun := ⟨0x130, 0x130, 1, 0⟩

/-- Where a run leads there are characters that no run holds, and that are no blanks. -/
theorem runs_lead_apart : (caseRuns.all fun run => run.leadsToCharacters &&
    (dottedRun :: blankRuns).all run.avoids && caseRuns.all run.avoids) = true := by
  decide +kernel

theorem leadsToCharacters_of_mem {run : CaseRun} (hrun : run ∈ caseRuns) :
    run.leadsToCharacters = true := by
  have apart := List.all_eq_true.mp runs_lead_apart run hrun
  simp only [Bool.and_eq_true] at apart
  exact apart.1.1

theorem not_holds_of_mem {run other : CaseRun} {n : Nat} (hrun : run ∈ caseRuns)
    (hother : other ∈ dottedRun :: blankRuns ∨ other ∈ caseRuns) (held : run.holds n = true) :
    other.holds (n + run.shift).toNat = false := by
  have apart := List.all_eq_true.mp runs_lead_apart run hrun
  simp only [Bool.and_eq_true] at apart
  apply CaseRun.not_holds_of_avoids _ apart.1.1 held
  rcases hother with hother | hother
  · exact List.all_eq_true.mp apart.1.2 other hother
  · exact List.all_eq_true.mp apart.2 other hother

theorem exists_of_isBlank {c : Char} (blank : isBlank c = true) :
    ∃ run ∈ blankRuns, run.holds c.toNat = true := by
  simp only [isBlank, Bool.or_eq_true, Bool.and_eq_true, decide_eq_true_eq, beq_iff_eq] at blank
  simp only [blankRuns, List.mem_cons, List.not_mem_nil, or_false, exists_eq_or_imp, exists_eq_left,
    CaseRun.holds_iff]
  omega

/-! ## One character -/

/-- A character is its own lower-case form wherever it stands. -/
def IsLower (c : Char) : Prop := ∀ afterCased ahead, inContext afterCased c ahead = [c]

theorem isLower_of_ofChar {c : Char} (noSigma : c.toNat ≠ 0x3A3) (same : ofChar c = [c]) :
    IsLower c := by
  intro afterCased ahead
  rw [inContext, if_neg noSigma, same]

/-- What the lower-case form of a character is made of: characters that are lower-case forms
themselves, and blanks only for a blank. -/
def Lowers (c d : Char) : Prop := IsLower d ∧ (isBlank d = true → isBlank c = true)

theorem ofChar_small (n : Nat) (small : n < 0x80) :
    ofChar (Char.ofNat n).toLower = [(Char.ofNat n).toLower] ∧
      (Char.ofNat n).toLower.toNat ≠ 0x3A3 ∧
      (isBlank (Char.ofNat n).toLower = true → isBlank (Char.ofNat n) = true) ∧
      (¬(0x41 ≤ n ∧ n ≤ 0x5A) → ofChar (Char.ofNat n) = [Char.ofNat n]) := by
  revert n
  decide +kernel

theorem lowers_of_small {c : Char} (small : c.toNat < 0x80) : Lowers c c.toLower := by
  obtain ⟨same, noSigma, blank, _⟩ := ofChar_small c.toNat small
  rw [Char.ofNat_toNat] at same noSigma blank
  exact ⟨isLower_of_ofChar noSigma same, blank⟩

/-- A character that no run holds is its own form. -/
theorem isLower_of_free {c : Char} (undotted : c.toNat ≠ 0x130)
    (free : ∀ run ∈ caseRuns, run.holds c.toNat = false) : IsLower c := by
  have noSigma : c.toNat ≠ 0x3A3 := by
    intro sigma
    have held : (caseRuns.any fun run => run.holds 0x3A3) = true := rfl
    obtain ⟨run, hrun, held⟩ := List.any_eq_true.mp held
    rw [← sigma, free run hrun] at held
    cases held
  apply isLower_of_ofChar noSigma
  by_cases small : c.toNat < 0x80
  · obtain ⟨_, _, _, same⟩ := ofChar_small c.toNat small
    have capital := free ⟨0x41, 0x5A, 1, 32⟩ List.mem_cons_self
    rw [Bool.eq_false_iff, ne_eq, CaseRun.holds_iff] at capital
    rw [Char.ofNat_toNat] at same
    exact same fun inside => capital ⟨inside.1, inside.2, Nat.mod_one _⟩
  · have noRun : caseRuns.find? (fun run => run.holds c.toNat) = none := by simpa using free
    rw [ofChar, if_neg small, if_neg undotted, noRun]

theorem lowers_of_held {c : Char} {run : CaseRun} (hrun : run ∈ caseRuns)
    (held : run.holds c.toNat = true) : Lowers c (Char.ofNat (c.toNat + run.shift).toNat) := by
  have characters := leadsToCharacters_of_mem hrun
  have number : (Char.ofNat (c.toNat + run.shift).toNat).toNat = (c.toNat + run.shift).toNat := by
    rw [Char.ofNat, dif_pos (CaseRun.isValidChar_of_holds characters held)]
    rfl
  have free (other : CaseRun) (hother : other ∈ dottedRun :: blankRuns ∨ other ∈ caseRuns) :
      other.holds (Char.ofNat (c.toNat + run.shift).toNat).toNat = false := by
    rw [number]
    exact not_holds_of_mem hrun hother held
  constructor
  · apply isLower_of_free
    · intro dotted
      have notDotted := free dottedRun (.inl List.mem_cons_self)
      rw [dotted] at notDotted
      cases notDotted
    · exact fun other hother => free other (.inr hother)
  · intro blank
    obtain ⟨other, hother, heldByOther⟩ := exists_of_isBlank blank
    rw [free other (.inl (List.mem_cons_of_mem _ hother))] at heldByOther
    cases heldByOther

theorem lowers_ofChar (c : Char) : ∀ d ∈ ofChar c, Lowers c d := by
  unfold ofChar
  split
  · rename_i small
    simpa using lowers_of_small small
  · split
    · have first : Lowers c 'i' :=
        ⟨isLower_of_ofChar (by decide) rfl, fun blank => nomatch blank⟩
      have second : Lowers c (Char.ofNat 0x307) :=
        ⟨isLower_of_ofChar (by decide) rfl, fun blank => nomatch blank⟩
      simpa using ⟨first, second⟩
    · rename_i undotted
      split
      · rename_i noRun
        have free : ∀ run ∈ caseRuns, run.holds c.toNat = false := by simpa using noRun
        simpa using ⟨isLower_of_free undotted free, id⟩
      · rename_i run found
        have hrun := List.mem_of_find?_eq_some found
        have held := List.find?_some found
        simpa using lowers_of_held hrun held

theorem lowers_inContext (afterCased : Bool) (c : Char) (ahead : List Char) :
    ∀ d ∈ inContext afterCased c ahead, Lowers c d := by
  unfold inContext
  split
  · have final : Lowers c (Char.ofNat 0x3C2) :=
      ⟨isLower_of_ofChar (by decide) rfl, fun blank => nomatch blank⟩
    have other : Lowers c (Char.ofNat 0x3C3) :=
      ⟨isLower_of_ofChar (by decide) rfl, fun blank => nomatch blank⟩
    split
    · simpa using final
    · simpa using other
  · exact lowers_ofChar c

theorem inContext_ne_nil (afterCased : Bool) (c : Char) (ahead : List Char) :
    inContext afterCased c ahead ≠ [] := by
  unfold inContext ofChar
  repeat' split
  all_goals simp

/-! ## Runs of characters -/

def rest (afterCased : Bool) (cs : List Char) : List Char := (lowerInto [] afterCased cs).reverse

theorem lowerInto_eq (acc : List Char) (afterCased : Bool) (cs : List Char) :
    lowerInto acc afterCased cs = lowerInto [] afterCased cs ++ acc := by
  induction cs generalizing acc afterCased with
  | nil => rfl
  | cons c cs ih =>
      rw [lowerInto, ih, lowerInto, ih (_ ++ [])]
      simp

theorem rest_cons (afterCased : Bool) (c : Char) (cs : List Char) :
    rest afterCased (c :: cs) = inContext afterCased c cs ++
      rest (if isIgnorable c then afterCased else isCased c) cs := by
  rw [rest, lowerInto, lowerInto_eq, rest]
  simp

/-- Every character of the form comes of one of the text. -/
theorem exists_of_mem_rest {afterCased : Bool} {cs : List Char} {d : Char}
    (hd : d ∈ rest afterCased cs) : ∃ c ∈ cs, Lowers c d := by
  induction cs generalizing afterCased with
  | nil => cases hd
  | cons c cs ih =>
      rw [rest_cons, List.mem_append] at hd
      rcases hd with hd | hd
      · exact ⟨c, List.mem_cons_self, lowers_inContext _ _ _ d hd⟩
      · obtain ⟨c', hc', lowers⟩ := ih hd
        exact ⟨c', List.mem_cons_of_mem _ hc', lowers⟩

theorem rest_of_isLower {afterCased : Bool} {cs : List Char} (lower : ∀ c ∈ cs, IsLower c) :
    rest afterCased cs = cs := by
  induction cs generalizing afterCased with
  | nil => rfl
  | cons c cs ih =>
      rw [List.forall_mem_cons] at lower
      rw [rest_cons, lower.1, ih lower.2, List.singleton_append]

theorem ofChars_ofChars (cs : List Char) : ofChars (ofChars cs) = ofChars cs := by
  apply rest_of_isLower
  intro d hd
  obtain ⟨_, _, lower, _⟩ : ∃ c ∈ cs, Lowers c d := exists_of_mem_rest hd
  exact lower

theorem rest_append_one (afterCased : Bool) (cs : List Char) (c : Char) :
    ∃ front cased, rest afterCased (cs ++ [c]) = front ++ inContext cased c [] := by
  induction cs generalizing afterCased with
  | nil => exact ⟨[], afterCased, by simp [rest, lowerInto]⟩
  | cons c' cs ih =>
      obtain ⟨front, cased, is⟩ := ih (if isIgnorable c' then afterCased else isCased c')
      refine ⟨inContext afterCased c' (cs ++ [c]) ++ front, cased, ?_⟩
      rw [List.cons_append, rest_cons, is, List.append_assoc]

end GigBoard.Text.LowerCase

namespace GigBoard

namespace Text

/-- The ends of the form come of the ends of the text. -/
theorem Snug.lower {cs : List Char} (snug : Snug cs) : Snug (LowerCase.ofChars cs) := by
  have stays {c d : Char} (lowers : LowerCase.Lowers c d) (full : isBlank c = false) :
      isBlank d = false := by
    by_contra blank
    rw [lowers.2 (by simpa using blank)] at full
    cases full
  constructor
  · intro d isFirst
    cases cs with
    | nil => cases isFirst
    | cons c cs =>
        rw [LowerCase.ofChars, ← LowerCase.rest, LowerCase.rest_cons,
          List.head?_append_of_ne_nil _ (LowerCase.inContext_ne_nil _ _ _)] at isFirst
        have hd := List.mem_of_head? isFirst
        exact stays (LowerCase.lowers_inContext _ _ _ d hd) (snug.1 c rfl)
  · intro d isLast
    rcases List.eq_nil_or_concat cs with rfl | ⟨front, c, rfl⟩
    · cases isLast
    · rw [List.concat_eq_append] at isLast snug
      obtain ⟨start, cased, is⟩ := LowerCase.rest_append_one false front c
      rw [LowerCase.ofChars, ← LowerCase.rest, is,
        List.getLast?_append_of_ne_nil _ (LowerCase.inContext_ne_nil _ _ _)] at isLast
      have hd := List.mem_of_getLast? isLast
      exact stays (LowerCase.lowers_inContext _ _ _ d hd) (snug.2 c (by simp))

end Text

/-- The form in which a wallet is kept is kept as it is. -/
theorem Account.normalWallet_normalWallet (w : String) :
    normalWallet (normalWallet w) = normalWallet w := by
  have snug := (Text.snug_trimmed w.toList).lower
  simp [normalWallet, Text.trim, Text.LowerCase.ofString, snug.trimmed_eq,
    Text.LowerCase.ofChars_ofChars]

end GigBoard
