import GigBoard.Text.Blank
import Mathlib.Data.List.DropRight

/-!
# Texts without blanks around them

Trimming leaves a run of characters that neither begins nor ends with a blank, and what is such a run
is found again whatever blanks are put around it.
-/

set_option autoImplicit false

namespace GigBoard.Text

variable {cs front back : List Char}

theorem dropWhile_isBlank_eq_self_iff (cs : List Char) :
    cs.dropWhile isBlank = cs ↔ ∀ c, cs.head? = some c → isBlank c = false := by
  cases cs with
  | nil => simp
  | cons c cs => simp [List.dropWhile_eq_self_iff]

theorem dropBlankEnd_eq_self_iff (cs : List Char) :
    dropBlankEnd cs = cs ↔ ∀ c, cs.getLast? = some c → isBlank c = false := by
  rw [dropBlankEnd, List.reverse_eq_iff, dropWhile_isBlank_eq_self_iff, List.head?_reverse]

theorem dropBlankEnd_append (blank : ∀ c ∈ back, isBlank c = true) :
    dropBlankEnd (cs ++ back) = dropBlankEnd cs := by
  have reversed : ∀ c ∈ back.reverse, isBlank c = true := by simpa using blank
  rw [dropBlankEnd, List.reverse_append, List.dropWhile_append_of_pos reversed, dropBlankEnd]

/-- A run of characters without a blank at its ends. -/
def Snug (cs : List Char) : Prop :=
  (∀ c, cs.head? = some c → isBlank c = false) ∧ ∀ c, cs.getLast? = some c → isBlank c = false

theorem snug_of_forall (full : ∀ c ∈ cs, isBlank c = false) : Snug cs :=
  ⟨fun c isFirst => full c (List.mem_of_head? isFirst),
    fun c isLast => full c (List.mem_of_getLast? isLast)⟩

theorem Snug.trimmed_eq (snug : Snug cs) : trimmed cs = cs := by
  rw [trimmed, (dropWhile_isBlank_eq_self_iff cs).mpr snug.1,
    (dropBlankEnd_eq_self_iff cs).mpr snug.2]

/-- Blanks at both ends are left out, and nothing else. -/
theorem Snug.trimmed_around (snug : Snug cs) (blankFront : ∀ c ∈ front, isBlank c = true)
    (blankBack : ∀ c ∈ back, isBlank c = true) : trimmed (front ++ cs ++ back) = cs := by
  rw [trimmed, List.append_assoc, List.dropWhile_append_of_pos blankFront]
  cases cs with
  | nil =>
      rw [List.nil_append, List.dropWhile_eq_nil_iff.mpr blankBack]
      rfl
  | cons c cs =>
      have full : ¬isBlank c = true := by simp [snug.1 c rfl]
      rw [List.cons_append, List.dropWhile_cons_of_neg full, ← List.cons_append,
        dropBlankEnd_append blankBack, (dropBlankEnd_eq_self_iff _).mpr snug.2]

theorem snug_trimmed (cs : List Char) : Snug (trimmed cs) := by
  constructor
  · rw [← dropWhile_isBlank_eq_self_iff, List.dropWhile_eq_self_iff]
    intro nonempty
    -- The first character left is the first one of the text without its blank beginning.
    have isPrefix : trimmed cs <+: cs.dropWhile isBlank := List.rdropWhile_prefix isBlank _
    rw [isPrefix.getElem]
    exact List.dropWhile_eq_self_iff.mp (List.dropWhile_idempotent isBlank cs) _
  · rw [← dropBlankEnd_eq_self_iff]
    exact List.rdropWhile_idempotent isBlank _

theorem trimmed_trimmed (cs : List Char) : trimmed (trimmed cs) = trimmed cs :=
  (snug_trimmed cs).trimmed_eq

theorem trim_trim (s : String) : trim (trim s) = trim s := by
  simp [trim, trimmed_trimmed]

end GigBoard.Text
