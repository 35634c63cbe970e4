import GigBoard.Listing
import GigBoard.Proofs.PageNumbers
import GigBoard.Store
import Mathlib.Data.Rat.Floor

/-!
# Pages of rows

What the arithmetic of pages comes to, up to the ends of the numbers of 64 bits: for every page that
can be asked for there is an offset, and for every number of rows that does not come too close to the
greatest number there is a number of pages.  The rows at the offset are those that the number and the
size of the page say, and there are some exactly if the page is none behind the last.  `IsPage` states
this of one page of a list.
-/

set_option autoImplicit false

namespace GigBoard

open Text.IntegerRange (int64)

/-! ## The pages that can be asked for -/

/-- The bounds within which every page lies that is asked for. -/
structure Page.Proper (p : Page) : Prop where
  first : 1 ≤ p.page
  last : p.page ≤ 9223372036854775807
  least : 1 ≤ p.limit
  greatest : p.limit ≤ 100

theorem PageQuery.number?_le {text : Option String} {n : Int} (is : number? text = some n) :
    n ≤ 9223372036854775807 := by
  obtain ⟨s, _, _, within⟩ := number?_eq_some_iff.mp is
  exact ((Text.int64_contains_iff n).mp within).2

theorem PageQuery.resolve_proper (q : PageQuery) : q.resolve.Proper where
  first := Int.le_max_left _ _
  last := by
    apply max_le
    · decide
    · cases given : number? q.page with
      | none => decide
      | some n => exact number?_le given
  least := Int.le_max_left _ _
  greatest := by
    apply max_le
    · decide
    · exact min_le_left _ _

/-- The pages within the bounds are those that are asked for. -/
theorem PageQuery.exists_resolve_iff {p : Page} : (∃ q : PageQuery, q.resolve = p) ↔ p.Proper := by
  constructor
  · rintro ⟨q, rfl⟩
    exact q.resolve_proper
  · rintro ⟨first, last, least, greatest⟩
    have given (n : Int) (low : 1 ≤ n) (high : n ≤ 9223372036854775807) :
        Gives (some (padded [] [] n)) n :=
      gives_padded ((Text.int64_contains_iff n).mpr ⟨by omega, high⟩) nofun nofun
    let q : PageQuery := ⟨some (padded [] [] p.page), some (padded [] [] p.limit)⟩
    have page : q.resolve.page = p.page := by
      rw [page_of_gives (q := q) (given p.page first last), max_eq_right first]
    have limit : q.resolve.limit = p.limit := by
      rw [limit_of_gives (q := q) (given p.limit least (by omega)), max_eq_right least,
        min_eq_right greatest]
    exact ⟨q, congrArg₂ Page.mk page limit⟩

/-! ## Offsets and numbers of pages -/

namespace Page

variable {p : Page} {α β : Type}

/-- Where the rows of a page begin, as far as this is a number of 64 bits. -/
def start (p : Page) : Int := saturate ((p.page - 1) * p.limit)

theorem Proper.offset_ok (proper : p.Proper) : p.offset = .ok p.start := by
  have inRange : Text.IntegerRange.int64.contains (p.page - 1) = true := by
    have first := proper.first
    have last := proper.last
    rw [Text.int64_contains_iff]
    omega
  rw [offset, if_pos inRange, start]

theorem Proper.start_eq (proper : p.Proper) :
    p.start = min ((p.page - 1) * p.limit) int64.high := by
  have first := proper.first
  have least := proper.least
  have nonneg : 0 ≤ (p.page - 1) * p.limit := Int.mul_nonneg (by omega) (by omega)
  have low : int64.low ≤ 0 := by decide
  have high : 0 ≤ int64.high := by decide
  rw [start, saturate, min_comm, max_eq_right (low.trans (le_min nonneg high))]

/-- So many pages have room for all rows exactly if they are no fewer than the rows by the size of a
page. -/
theorem Proper.ceil_le_iff (proper : p.Proper) {n : Nat} {k : Int} :
    ⌈(n : ℚ) / p.limit⌉ ≤ k ↔ n ≤ k * p.limit := by
  have least := proper.least
  have positive : (0 : ℚ) < p.limit := by exact_mod_cast (by omega : 0 < p.limit)
  rw [Int.ceil_le, div_le_iff₀ positive]
  exact_mod_cast Iff.rfl

theorem Proper.isLeast_ceil (proper : p.Proper) (n : Nat) :
    IsLeast {k : Int | n ≤ k * p.limit} ⌈(n : ℚ) / p.limit⌉ :=
  ⟨proper.ceil_le_iff.mp le_rfl, fun _ enough => proper.ceil_le_iff.mpr enough⟩

/-- The number of pages is the number of rows by the size of a page, rounded up. -/
theorem Proper.totalPages_of_inRange (proper : p.Proper) {n : Nat}
    (fits : n = 0 ∨ Text.IntegerRange.int64.contains (n + p.limit) = true) :
    p.totalPages n = .ok ⌈(n : ℚ) / p.limit⌉ := by
  have least := proper.least
  have greatest := proper.greatest
  by_cases none : n = 0
  · subst none
    simp [totalPages]
  · have inRange := fits.resolve_left none
    rw [totalPages, if_neg (by omega), inRange, if_neg (by simp), if_neg (by omega),
      Int.tdiv_eq_ediv_of_nonneg (by omega)]
    congr 1
    symm
    -- The quotient `k` of `n + limit - 1` satisfies `k * limit - limit < n ≤ k * limit`.
    have below := Int.ediv_mul_le ((n : Int) + p.limit - 1) (b := p.limit) (by omega)
    have above := Int.lt_ediv_add_one_mul_self ((n : Int) + p.limit - 1) (b := p.limit) (by omega)
    generalize ((n : Int) + p.limit - 1) / p.limit = k at below above
    apply le_antisymm
    · rw [proper.ceil_le_iff]
      rw [Int.add_mul] at above
      omega
    · by_contra fewer
      have enough : (n : Int) ≤ (k - 1) * p.limit := proper.ceil_le_iff.mp (by omega)
      rw [Int.sub_mul] at enough
      omega

/-- Only so many rows are counted in pages as there are numbers of 64 bits. -/
theorem Proper.of_totalPages (proper : p.Proper) {n : Nat} {k : Int}
    (ok : p.totalPages n = .ok k) :
    k = ⌈(n : ℚ) / p.limit⌉ ∧ n ≤ 9223372036854775807 := by
  have least := proper.least
  have fits : n = 0 ∨ Text.IntegerRange.int64.contains (n + p.limit) = true := by
    by_contra neither
    rw [not_or, Bool.not_eq_true] at neither
    obtain ⟨some, beyond⟩ := neither
    rw [totalPages, if_neg (by omega), beyond] at ok
    cases ok
  rw [proper.totalPages_of_inRange fits] at ok
  refine ⟨(Except.ok.inj ok).symm, ?_⟩
  rcases fits with none | inRange
  · omega
  · rw [Text.int64_contains_iff] at inRange
    omega

theorem Proper.totalPages_of_fits (proper : p.Proper) {n : Nat} (fits : n ≤ int64.high - p.limit) :
    p.totalPages n = .ok ⌈(n : ℚ) / p.limit⌉ := by
  have least := proper.least
  have high : int64.high = 9223372036854775807 := rfl
  apply proper.totalPages_of_inRange
  right
  rw [Text.int64_contains_iff]
  omega

theorem Proper.totalPages_ok (proper : p.Proper) {n : Nat} (few : n < 2 ^ 62) :
    p.totalPages n = .ok ⌈(n : ℚ) / p.limit⌉ := by
  have greatest := proper.greatest
  have high : int64.high = 9223372036854775807 := rfl
  exact proper.totalPages_of_fits (by omega)

theorem Proper.totalPages_overflow_iff (proper : p.Proper) {total : Int} :
    p.totalPages total = .error .addOverflow ↔ int64.high - p.limit < total := by
  have least := proper.least
  have greatest := proper.greatest
  have high : int64.high = 9223372036854775807 := rfl
  have inRange := Text.int64_contains_iff (total + p.limit)
  unfold totalPages
  split
  · simp only [reduceCtorEq, false_iff]
    omega
  · split
    · rename_i beyond
      rw [Bool.not_eq_true', ← Bool.not_eq_true, inRange] at beyond
      simp only [true_iff]
      omega
    · rename_i within
      rw [Bool.not_eq_true', Bool.not_eq_false, inRange] at within
      rw [if_neg (by omega)]
      simp only [reduceCtorEq, false_iff]
      omega

/-- A page begins in front of the end of the rows exactly if it is one of their pages, also where its
offset is no number of 64 bits. -/
theorem Proper.start_lt_iff (proper : p.Proper) {n : Nat} (fits : n ≤ int64.high - p.limit) :
    p.start < n ↔ p.page ≤ ⌈(n : ℚ) / p.limit⌉ := by
  have least := proper.least
  have behind : ⌈(n : ℚ) / p.limit⌉ ≤ p.page - 1 ↔ (n : Int) ≤ (p.page - 1) * p.limit :=
    proper.ceil_le_iff
  rw [proper.start_eq]
  omega

/-- The rows of a page: those from the end of the pages in front of it to its own end. -/
def slice (p : Page) (rows : List α) : List α :=
  (rows.take (p.page * p.limit).toNat).drop ((p.page - 1) * p.limit).toNat

/-- A page is read at its offset; if the offset is no number of 64 bits the page is empty. -/
theorem Proper.window_eq_slice_of_le (proper : p.Proper) {rows : List α}
    (bounded : rows.length ≤ 9223372036854775807) :
    Store.window p.start p.limit rows = p.slice rows := by
  have first := proper.first
  have least := proper.least
  have nonneg : 0 ≤ (p.page - 1) * p.limit := Int.mul_nonneg (by omega) (by omega)
  have size : (p.page * p.limit).toNat - ((p.page - 1) * p.limit).toNat = p.limit.toNat := by
    rw [Int.sub_mul] at nonneg ⊢
    omega
  have same : rows.drop p.start.toNat = rows.drop ((p.page - 1) * p.limit).toNat := by
    have high : int64.high = 9223372036854775807 := rfl
    rw [proper.start_eq]
    by_cases near : (p.page - 1) * p.limit ≤ int64.high
    · rw [min_eq_left near]
    · rw [List.drop_eq_nil_of_le, List.drop_eq_nil_of_le]
      · omega
      · omega
  rw [Store.window, same, slice, List.drop_take, size]

theorem Proper.window_eq_nil_iff (proper : p.Proper) {rows : List α} :
    Store.window p.start p.limit rows = [] ↔ rows.length ≤ p.start := by
  have first := proper.first
  have least := proper.least
  have nonneg : 0 ≤ (p.page - 1) * p.limit := Int.mul_nonneg (by omega) (by omega)
  have high : int64.high = 9223372036854775807 := rfl
  have start := proper.start_eq
  rw [Store.window, List.take_eq_nil_iff, List.drop_eq_nil_iff]
  omega

theorem Proper.slice_eq_nil (proper : p.Proper) {rows : List α}
    (beyond : ⌈(rows.length : ℚ) / p.limit⌉ < p.page) : p.slice rows = [] := by
  have short : (rows.length : Int) ≤ (p.page - 1) * p.limit := proper.ceil_le_iff.mp (by omega)
  rw [slice]
  apply List.drop_eq_nil_of_le
  rw [List.length_take]
  omega

/-- One more page continues the rows of the pages in front of it. -/
theorem take_append_slice (n limit : Nat) (rows : List α) :
    rows.take (n * limit) ++ slice ⟨n + 1, limit⟩ rows = rows.take ((n + 1) * limit) := by
  have begins : (((n : Int) + 1 - 1) * limit).toNat = n * limit := by
    rw [Int.add_sub_cancel]
    omega
  have ends : (((n : Int) + 1) * limit).toNat = (n + 1) * limit := by
    rw [← Nat.cast_succ, ← Nat.cast_mul, Int.toNat_natCast]
  rw [slice, begins, ends]
  have split := List.take_append_drop (n * limit) (rows.take ((n + 1) * limit))
  rw [List.take_take, min_eq_left (Nat.mul_le_mul_right limit (Nat.le_succ n))] at split
  exact split

theorem take_all {n limit : Nat} {rows : List α} (positive : 1 ≤ limit)
    (all : (n : Int) = ⌈(rows.length : ℚ) / limit⌉) : rows.take (n * limit) = rows := by
  have nonzero : (0 : ℚ) < limit := by exact_mod_cast positive
  have enough : (rows.length : ℚ) / limit ≤ ((n : Int) : ℚ) := Int.ceil_le.mp all.ge
  rw [div_le_iff₀ nonzero] at enough
  apply List.take_of_length_le
  exact_mod_cast enough

/-- The pages that can be asked for are those within the bounds, and their arithmetic never goes
wrong.  The offset is the product, or the greatest number of 64 bits if that is less; the number of
pages is zero for no rows and otherwise the least that has room for all of them, and it is missing for
an overflow exactly if the rows and the size of a page together are beyond the greatest number.  For all
other numbers of rows the page begins in front of their end, and there are rows on it, exactly if it is
none behind the last. -/
theorem page_arithmetic (p : Page) : ((∃ q : PageQuery, q.resolve = p) ↔ p.Proper) ∧
    (p.Proper →
      p.offset = .ok (min ((p.page - 1) * p.limit) int64.high) ∧
      (∀ total ≤ 0, p.totalPages total = .ok 0) ∧
      (∀ total, 0 < total → total ≤ int64.high - p.limit → ∃ pages,
        p.totalPages total = .ok pages ∧ IsLeast {k : Int | total ≤ k * p.limit} pages) ∧
      (∀ total, p.totalPages total = .error .addOverflow ↔ int64.high - p.limit < total) ∧
      ∀ total, 0 ≤ total → total ≤ int64.high - p.limit → ∃ offset pages,
        p.offset = .ok offset ∧ p.totalPages total = .ok pages ∧
          (offset < total ↔ p.page ≤ pages) ∧
          ∀ (α : Type) (rows : List α), rows.length = total →
            (Store.window offset p.limit rows = [] ↔ pages < p.page)) := by
  refine ⟨PageQuery.exists_resolve_iff, fun proper => ⟨?_, ?_, ?_, ?_, ?_⟩⟩
  · rw [proper.offset_ok, proper.start_eq]
  · intro total none
    rw [totalPages, if_pos none]
  · intro total positive fits
    obtain ⟨n, rfl⟩ := Int.eq_ofNat_of_zero_le positive.le
    exact ⟨_, proper.totalPages_of_fits fits, proper.isLeast_ceil n⟩
  · intro total
    exact proper.totalPages_overflow_iff
  · intro total nonneg fits
    obtain ⟨n, rfl⟩ := Int.eq_ofNat_of_zero_le nonneg
    have reached := proper.start_lt_iff fits
    refine ⟨_, _, proper.offset_ok, proper.totalPages_of_fits fits, reached, ?_⟩
    intro α rows all
    rw [proper.window_eq_nil_iff, all, ← not_lt, reached, not_le]

/-- The last page of a hundred rows that can be asked for. -/
def farthest : Page := ⟨9223372036854775807, 100⟩

theorem page_arithmetic_farthest : farthest.Proper ∧
    farthest.offset = .ok 9223372036854775807 ∧
    (∃ pages, farthest.totalPages 9223372036854775707 = .ok pages ∧
      IsLeast {k : Int | 9223372036854775707 ≤ k * 100} pages ∧ pages < farthest.page) ∧
    farthest.totalPages 9223372036854775708 = .error .addOverflow ∧
    farthest.totalPages (-1) = .ok 0 := by
  have proper : farthest.Proper := by constructor <;> decide
  obtain ⟨offset, none, some, overflow, reached⟩ := (page_arithmetic farthest).2 proper
  obtain ⟨pages, counted, least⟩ := some 9223372036854775707 (by decide) (by decide)
  obtain ⟨_, pages', begins, counted', holds, _⟩ := reached 9223372036854775707 (by decide) (by decide)
  obtain rfl := Except.ok.inj (counted.symm.trans counted')
  refine ⟨proper, offset, ⟨pages, counted, least, ?_⟩, (overflow _).mpr (by decide),
    none (-1) (by decide)⟩
  rw [← not_le, ← holds, ← Except.ok.inj (offset.symm.trans begins)]
  decide

end Page

/-! ## One page of a list -/

structure Listing.IsPage {α β : Type} (row : β → α) (rows : List α) (p : Page)
    (listing : Listing β) : Prop where
  total : listing.total = rows.length
  page : listing.page = p.page
  totalPages : listing.totalPages = ⌈(rows.length : ℚ) / p.limit⌉
  data : listing.data.map row = p.slice rows

theorem Listing.of_make {β : Type} {p : Page} (proper : p.Proper) {n : Nat} {views : List β}
    {listing : Listing β} (made : Listing.make views n p = .ok listing) :
    listing = ⟨views, n, p.page, ⌈(n : ℚ) / p.limit⌉⟩ ∧ n ≤ 9223372036854775807 := by
  cases counted : p.totalPages n with
  | error fault =>
      rw [make, counted] at made
      cases made
  | ok k =>
      obtain ⟨rfl, bounded⟩ := proper.of_totalPages counted
      rw [make, counted] at made
      cases made
      exact ⟨rfl, bounded⟩

theorem Listing.make_ok {β : Type} {p : Page} (proper : p.Proper) {n : Nat} (few : n < 2 ^ 62)
    (views : List β) :
    Listing.make views n p = .ok ⟨views, n, p.page, ⌈(n : ℚ) / p.limit⌉⟩ := by
  rw [Listing.make, proper.totalPages_ok few]
  rfl

end GigBoard
