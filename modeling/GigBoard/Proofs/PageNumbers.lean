import GigBoard.Page
import GigBoard.Proofs.Integers
import GigBoard.Proofs.Trimming
import Mathlib.Order.MinMax

/-!
# The numbers of a page

The number and the size of a page are given as texts.  A text gives a number of 64 bits exactly if it
is a written form of that number with blanks around it, and a number that is sent is read back from
the text in which it is sent.  Whatever else is given counts as not given.
-/

set_option autoImplicit false

namespace GigBoard

open Text (IsNumeral WritesInteger isBlank trimmed)
open Text.IntegerRange (int64)

/-! ## Written forms with blanks around them -/

namespace Text

variable {c : Char} {cs ds : List Char} {n : Int}

theorem isBlank_of_isDigit (digit : c.isDigit = true) : isBlank c = false := by
  rw [isDigit_iff] at digit
  by_contra blank
  simp [isBlank] at blank
  omega

theorem WritesInteger.snug (writes : WritesInteger cs n) : Snug cs := by
  have full {ds : List Char} (digits : IsNumeral ds) : ∀ d ∈ ds, isBlank d = false :=
    fun d hd => isBlank_of_isDigit (digits.2 d hd)
  apply snug_of_forall
  cases writes with
  | unsigned digits => exact full digits
  | plus digits => exact List.forall_mem_cons.mpr ⟨by decide, full digits⟩
  | minus digits => exact List.forall_mem_cons.mpr ⟨by decide, full digits⟩

end Text

namespace PageQuery

/-- A text gives a number of 64 bits: without the blanks around it, it is a written form of the
number. -/
def Gives (text : Option String) (n : Int) : Prop :=
  ∃ s, text = some s ∧ WritesInteger (trimmed s.toList) n ∧ int64.contains n = true

variable {text : Option String} {n : Int}

theorem number?_eq_some_iff : number? text = some n ↔ Gives text n := by
  rw [number?, Option.bind_eq_some_iff]
  refine exists_congr fun s => and_congr_right fun _ => ?_
  rw [← Text.readInteger_eq_ok_iff (by decide) (by decide), Text.integer?, Text.trim,
    String.toList_ofList]
  cases Text.readInteger int64 (trimmed s.toList) <;> simp [Except.toOption]

theorem number?_eq_none_iff : number? text = none ↔ ∀ n, ¬Gives text n := by
  rw [Option.eq_none_iff_forall_ne_some]
  exact forall_congr' fun n => not_congr number?_eq_some_iff

def padded (front back : List Char) (n : Int) : String :=
  String.ofList (front ++ DecimalStyle.integerText n ++ back)

theorem gives_padded {front back : List Char} (within : int64.contains n = true)
    (blankFront : ∀ c ∈ front, isBlank c = true) (blankBack : ∀ c ∈ back, isBlank c = true) :
    Gives (some (padded front back n)) n := by
  have writes := Text.writesInteger_integerText n
  refine ⟨_, rfl, ?_, within⟩
  rwa [padded, String.toList_ofList, writes.snug.trimmed_around blankFront blankBack]

/-! ## The page that is meant -/

variable {q : PageQuery}

theorem page_of_gives (gives : Gives q.page n) : q.resolve.page = max 1 n := by
  rw [resolve, number?_eq_some_iff.mpr gives, Option.getD_some]

theorem limit_of_gives (gives : Gives q.limit n) : q.resolve.limit = min 100 (max 1 n) := by
  rw [resolve, number?_eq_some_iff.mpr gives, Option.getD_some, max_min_distrib_left]
  rfl

theorem page_of_not_gives (nothing : ∀ n, ¬Gives q.page n) : q.resolve.page = 1 := by
  rw [resolve, number?_eq_none_iff.mpr nothing]
  rfl

theorem limit_of_not_gives (nothing : ∀ n, ¬Gives q.limit n) : q.resolve.limit = 10 := by
  rw [resolve, number?_eq_none_iff.mpr nothing]
  rfl

/-- The number of a page is the number that is given, but at least one; its size is the number that is
given, brought between one and a hundred.  A text that gives no number counts for the first page and
for ten rows.  Each number of 64 bits is read back from its digits with any blanks around them, and a
greater number never asks for an earlier or a smaller page. -/
theorem page_numbers_read (q : PageQuery) :
    (∀ n, Gives q.page n → q.resolve.page = max 1 n) ∧
    ((∀ n, ¬Gives q.page n) → q.resolve.page = 1) ∧
    (∀ n, Gives q.limit n → q.resolve.limit = min 100 (max 1 n)) ∧
    ((∀ n, ¬Gives q.limit n) → q.resolve.limit = 10) ∧
    (∀ n front back, int64.contains n = true → (∀ c ∈ front, isBlank c = true) →
      (∀ c ∈ back, isBlank c = true) → number? (some (padded front back n)) = some n) ∧
    ∀ (q' : PageQuery) (n m : Int), n ≤ m →
      (Gives q.page n → Gives q'.page m → q.resolve.page ≤ q'.resolve.page) ∧
        (Gives q.limit n → Gives q'.limit m → q.resolve.limit ≤ q'.resolve.limit) := by
  refine ⟨fun n => page_of_gives, page_of_not_gives, fun n => limit_of_gives, limit_of_not_gives,
    ?_, ?_⟩
  · intro n front back within blankFront blankBack
    exact number?_eq_some_iff.mpr (gives_padded within blankFront blankBack)
  · intro q' n m le
    constructor
    · intro gives gives'
      rw [page_of_gives gives, page_of_gives gives']
      exact max_le_max_left 1 le
    · intro gives gives'
      rw [limit_of_gives gives, limit_of_gives gives']
      exact min_le_min_left 100 (max_le_max_left 1 le)

/-- A query with a number that has blanks of several kinds around it and zeros in front, and with a
size that is no whole number. -/
def spaced : PageQuery := ⟨some "\u2003+0042\u00a0", some "4.2"⟩

theorem page_numbers_read_spaced :
    Gives spaced.page 42 ∧ (∀ n, ¬Gives spaced.limit n) ∧ spaced.resolve = ⟨42, 10⟩ ∧
      number? (some (padded ['\t'] ['\u3000', '\n'] (-9223372036854775808))) =
        some (-9223372036854775808) ∧
      spaced.resolve.page ≤
        (PageQuery.mk (some (padded [' '] [] 9223372036854775807)) none).resolve.page := by
  have gives : Gives spaced.page 42 := ⟨_, rfl, .plus ⟨by decide, List.all_eq_true.mp rfl⟩, by decide⟩
  have nothing : ∀ n, ¬Gives spaced.limit n := number?_eq_none_iff.mp (by decide)
  obtain ⟨page, _, _, limit, back, grows⟩ := page_numbers_read spaced
  refine ⟨gives, nothing, congrArg₂ Page.mk (page 42 gives) (limit nothing),
    back _ ['\t'] ['\u3000', '\n'] (by decide) (List.all_eq_true.mp rfl)
      (List.all_eq_true.mp rfl), ?_⟩
  have later : Gives (some (padded [' '] [] 9223372036854775807)) 9223372036854775807 :=
    gives_padded (by decide) (List.all_eq_true.mp rfl) nofun
  exact (grows ⟨_, none⟩ 42 _ (by decide)).1 gives later

end PageQuery

end GigBoard
