import GigBoard.Hiring.Search
import GigBoard.Proofs.Forms
import GigBoard.Proofs.Trimming

/-!
# What a search finds

A text matches the pattern around some characters exactly if it contains them, letters of the ASCII
alphabet in either case: no character of a search is special.  A job passes a filter exactly if it has
the category and the state that were written, blanks left out, and contains the text.
-/

set_option autoImplicit false

namespace GigBoard.Text

/-- A run of characters stands somewhere in a text, up to the case of ASCII letters. -/
def Contains (text part : List Char) : Prop :=
  part.map Char.toLower <:+: text.map Char.toLower

instance (text part : List Char) : Decidable (Contains text part) :=
  inferInstanceAs (Decidable (_ <:+: _))

namespace Pattern

/-- Escaping makes every character literal. -/
theorem parse?_escaped (cs rest : List Char) :
    parse? (escaped cs ++ rest) = (parse? rest).map (cs.map .literal ++ ·) := by
  induction cs with
  | nil => simp [escaped]
  | cons c cs ih =>
      have split : escaped (c :: cs) ++ rest =
          (if c = '\\' ∨ c = '%' ∨ c = '_' then ['\\', c] else [c]) ++ (escaped cs ++ rest) := by
        simp [escaped]
      rw [split]
      by_cases special : c = '\\' ∨ c = '%' ∨ c = '_'
      · simp [special, parse?, ih, Function.comp_def]
      · push Not at special
        obtain ⟨noEscape, noRun, noOne⟩ := special
        simp [noEscape, noRun, noOne, parse?, ih, Function.comp_def]

theorem parse?_around (cs : List Char) :
    parse? (around cs) = some (.anyRun :: (cs.map .literal ++ [.anyRun])) := by
  simp [around, parse?, parse?_escaped]

/-- A run of any characters matches from some place on. -/
theorem accepts_anyRun_iff (ps : List PatternPiece) (text : List Char) :
    accepts (.anyRun :: ps) text = true ↔ ∃ rest, rest <:+ text ∧ accepts ps rest = true := by
  induction text with
  | nil => simp [accepts]
  | cons c cs ih =>
      rw [accepts, Bool.or_eq_true, ih]
      simp only [List.suffix_cons_iff, or_and_right, exists_or, exists_eq_left]

theorem accepts_anyRun (text : List Char) : accepts [.anyRun] text = true := by
  rw [accepts_anyRun_iff]
  exact ⟨[], List.nil_suffix, by simp [accepts]⟩

theorem accepts_literals_iff (cs text : List Char) :
    accepts (cs.map .literal ++ [.anyRun]) text = true ↔
      cs.map Char.toLower <+: text.map Char.toLower := by
  induction cs generalizing text with
  | nil => simp [accepts_anyRun]
  | cons c cs ih =>
      cases text with
      | nil => simp [accepts]
      | cons d ds => simp [accepts, sameLetter, ih]

theorem matchesText_around_iff (part text : List Char) :
    matchesText (around part) text = true ↔ Contains text part := by
  rw [matchesText, parse?_around]
  simp only [accepts_anyRun_iff, accepts_literals_iff, Contains, List.infix_iff_prefix_suffix]
  constructor
  · rintro ⟨rest, isSuffix, isPrefix⟩
    exact ⟨rest.map Char.toLower, isPrefix, isSuffix.map Char.toLower⟩
  · rintro ⟨lowered, isPrefix, isSuffix⟩
    obtain ⟨rest, isRest, rfl⟩ := List.suffix_map_iff.mp isSuffix
    exact ⟨rest, isRest, isPrefix⟩

end Pattern

/-! ## Texts that are not blank -/

theorem nonBlank?_eq_none_iff {s : String} : nonBlank? s = none ↔ trim s = "" := by
  rw [Option.eq_none_iff_forall_ne_some]
  constructor
  · intro nothing
    by_contra filled
    exact nothing _ (nonBlank?_eq_some_iff.mpr ⟨rfl, filled⟩)
  · intro blank t isText
    obtain ⟨rfl, filled⟩ := nonBlank?_eq_some_iff.mp isText
    exact filled blank

/-- A text is not blank if one of its characters is not. -/
theorem isSome_nonBlank?_iff {s : String} :
    (nonBlank? s).isSome = true ↔ ∃ c ∈ s.toList, isBlank c = false := by
  have noneLeft : trimmed s.toList = [] ↔ ∀ c ∈ s.toList, isBlank c = true := by
    constructor
    · intro empty
      have blankRest := List.rdropWhile_eq_nil_iff.mp empty
      rw [← List.dropWhile_eq_nil_iff, List.dropWhile_idempotent] at blankRest
      exact List.dropWhile_eq_nil_iff.mp blankRest
    · intro blank
      rw [trimmed, List.dropWhile_eq_nil_iff.mpr blank]
      rfl
  have isNone : (nonBlank? s).isSome = true ↔ trimmed s.toList ≠ [] := by
    unfold nonBlank?
    cases trimmed s.toList with
    | nil => simp
    | cons c cs => simp
  rw [isNone, Ne, noneLeft]
  simp only [not_forall, exists_prop, Bool.not_eq_true]

/-- A test of a text that counts only if it is not blank. -/
theorem all_nonBlank?_iff {given : Option String} {test : String → Bool} :
    (given.bind nonBlank?).all test = true ↔
      ∀ t, given = some t → trim t ≠ "" → test (trim t) = true := by
  cases given with
  | none => simp
  | some s =>
      cases left : nonBlank? s with
      | none =>
          have blank : trim s = "" := by
            by_contra nonBlank
            rw [nonBlank?_eq_some_iff.mpr ⟨rfl, nonBlank⟩] at left
            cases left
          simp [left, blank]
      | some t =>
          obtain ⟨isTrimmed, nonBlank⟩ := nonBlank?_eq_some_iff.mp left
          simp [left, isTrimmed, nonBlank]

end GigBoard.Text

namespace GigBoard

namespace Named

variable {α : Type} [Named α]

def Distinct (α : Type) [Named α] : Prop := ∀ a : α, ofName? (name a) = some a

theorem Distinct.ofName?_eq_some_iff (distinct : Distinct α) (a : α) (text : String) :
    ofName? text = some a ↔ name a = text := by
  constructor
  · intro found
    simpa using List.find?_some found
  · rintro rfl
    exact distinct a

theorem Distinct.read_eq_ok_iff (distinct : Distinct α) (a : α) (text : String) :
    read text = .ok a ↔ name a = Text.trim text := by
  rw [← distinct.ofName?_eq_some_iff, read]
  cases found : (ofName? (Text.trim text) : Option α) <;> simp

end Named

theorem JobStatus.distinct : Named.Distinct JobStatus := by
  intro status
  cases status <;> rfl

theorem JobStatus.ofName?_eq_some_iff (status : JobStatus) (name : String) :
    Named.ofName? name = some status ↔ Named.name status = name :=
  distinct.ofName?_eq_some_iff status name

theorem JobStatus.read_eq_ok_iff (status : JobStatus) (s : String) :
    Named.read s = .ok status ↔ Named.name status = Text.trim s :=
  distinct.read_eq_ok_iff status s

namespace Hiring

/-- What a search asks of a job; blank parts ask nothing. -/
structure Job.Matches (category status search : Option String) (j : Job) : Prop where
  category : ∀ t, category = some t → Text.trim t ≠ "" → j.category = Text.trim t
  status : ∀ t, status = some t → Text.trim t ≠ "" → Named.name j.status = Text.trim t
  search : ∀ t, search = some t → Text.trim t ≠ "" →
    Text.Contains j.title.toList (Text.trim t).toList ∨
      Text.Contains j.description.toList (Text.trim t).toList

theorem JobQuery.filter_ok {q : JobQuery} {f : Store.JobFilter} (made : q.filter = .ok f) :
    f.category = q.category.bind Text.nonBlank? ∧
      f.pattern = (q.search.bind Text.nonBlank?).map (fun s => Text.Pattern.around s.toList) ∧
      ((q.status.bind Text.nonBlank? = none ∧ f.status = none) ∨
        ∃ s status, q.status.bind Text.nonBlank? = some s ∧ Named.read s = .ok status ∧
          f.status = some status) := by
  unfold filter at made
  cases written : q.status.bind Text.nonBlank? with
  | none =>
      rw [written] at made
      cases made
      exact ⟨rfl, rfl, .inl ⟨rfl, rfl⟩⟩
  | some s =>
      rw [written] at made
      obtain ⟨wanted, isWanted, made⟩ := bind_ok made
      cases made
      cases read : (Named.read s : Except UnknownName JobStatus) with
      | error unknown =>
          rw [read] at isWanted
          cases isWanted
      | ok status =>
          rw [read] at isWanted
          cases isWanted
          exact ⟨rfl, rfl, .inr ⟨s, status, rfl, read, rfl⟩⟩

/-- The state that a filter asks for is the one that was written. -/
theorem JobQuery.filter_status {q : JobQuery} {f : Store.JobFilter} (made : q.filter = .ok f)
    (status : JobStatus) : f.status.all (· = status) = true ↔
      ∀ t, q.status = some t → Text.trim t ≠ "" → Named.name status = Text.trim t := by
  have written : (q.status.bind Text.nonBlank?).all (fun t => decide (Named.name status = t)) =
      true ↔ _ := Text.all_nonBlank?_iff
  simp only [decide_eq_true_eq] at written
  rw [← written]
  obtain ⟨_, _, ⟨blank, noStatus⟩ | ⟨s, wanted, nonBlank, read, isWanted⟩⟩ := filter_ok made
  · rw [blank, noStatus]
    rfl
  · obtain ⟨t, _, left⟩ := Option.bind_eq_some_iff.mp nonBlank
    have trimmedOnce : Text.trim s = s := by
      rw [← (Text.nonBlank?_eq_some_iff.mp left).1, Text.trim_trim]
    have isName := (JobStatus.read_eq_ok_iff wanted s).mp read
    rw [trimmedOnce] at isName
    have sameName := JobStatus.ofName?_eq_some_iff status (Named.name wanted)
    rw [(JobStatus.ofName?_eq_some_iff wanted _).mpr rfl, Option.some.injEq] at sameName
    rw [nonBlank, isWanted, ← isName]
    simpa using sameName

theorem JobQuery.accepts_iff {q : JobQuery} {f : Store.JobFilter} (made : q.filter = .ok f)
    (j : Job) : f.accepts j = true ↔ j.Matches q.category q.status q.search := by
  obtain ⟨category, pattern, _⟩ := filter_ok made
  rw [Store.JobFilter.accepts, Bool.and_eq_true, Bool.and_eq_true, filter_status made, category,
    pattern, Option.all_map, Text.all_nonBlank?_iff, Text.all_nonBlank?_iff]
  simp only [Bool.or_eq_true, Text.Pattern.matchesText_around_iff,
    decide_eq_true_eq]
  constructor
  · rintro ⟨⟨category, status⟩, found⟩
    exact ⟨fun t isT nonBlank => (category t isT nonBlank).symm, status, found⟩
  · rintro ⟨category, status, found⟩
    exact ⟨⟨fun t isT nonBlank => (category t isT nonBlank).symm, status⟩, found⟩

end Hiring

end GigBoard
