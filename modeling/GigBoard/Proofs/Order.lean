import GigBoard.Proofs.Rows
import GigBoard.Store

/-!
# The order of lists

Lists are shown with the newest row first, and rows of one time by their identifiers.  `Newer` is this
order, and `NewestOf` says that a list holds all rows of a table with a property in this order; no two
lists do.  Where identifiers are unique, sorting gives that list, and sorting the other way round gives
it backwards.
-/

set_option autoImplicit false

namespace GigBoard

theorem Timestamp.eq_iff (a b : Timestamp) : a = b ↔ a.micros = b.micros := by
  cases a
  cases b
  simp

theorem Timestamp.lt_iff (a b : Timestamp) : a < b ↔ a.micros < b.micros := Iff.rfl

theorem Uuid.eq_iff (a b : Uuid) : a = b ↔ a.value = b.value := by
  cases a
  cases b
  simp

theorem Uuid.le_iff (a b : Uuid) : a ≤ b ↔ a.value ≤ b.value := Iff.rfl

namespace Store

open Rows (Unique)

variable {α : Type} {time : α → Timestamp} {id : α → Uuid} {table rows : List α}

/-- A row stands in front of another in a list with the newest first. -/
def Newer (time : α → Timestamp) (id : α → Uuid) (a b : α) : Prop :=
  time b < time a ∨ (time a = time b ∧ (id b).value < (id a).value)

theorem newer_iff (a b : α) : Newer time id a b ↔
    (time b).micros < (time a).micros ∨
      ((time a).micros = (time b).micros ∧ (id b).value < (id a).value) := by
  rw [Newer, Timestamp.eq_iff, Timestamp.lt_iff]

theorem Newer.asymm {a b : α} (first : Newer time id a b) : ¬ Newer time id b a := by
  rw [newer_iff] at first ⊢
  omega

theorem Newer.trans {a b c : α} (first : Newer time id a b) (second : Newer time id b c) :
    Newer time id a c := by
  rw [newer_iff] at first second ⊢
  omega

instance (a b : α) : Decidable (Newer time id a b) :=
  inferInstanceAs (Decidable (_ ∨ _))

/-- The first row of a list with the newest first that passes a test is the newest one that does. -/
theorem find?_eq_some_iff_newest (sorted : rows.Pairwise (Newer time id)) {test : α → Bool} {r : α} :
    rows.find? test = some r ↔
      r ∈ rows ∧ test r = true ∧ ∀ q ∈ rows, test q = true → q = r ∨ Newer time id r q := by
  induction rows with
  | nil => simp
  | cons a rows ih =>
      obtain ⟨first, rest⟩ := List.pairwise_cons.mp sorted
      by_cases passes : test a = true
      · rw [List.find?_cons_of_pos passes]
        constructor
        · intro isA
          cases isA
          refine ⟨List.mem_cons_self, passes, fun q hq _ => ?_⟩
          exact (List.mem_cons.mp hq).imp_right (first q)
        · rintro ⟨hr, _, newest⟩
          rcases newest a List.mem_cons_self passes with rfl | newer
          · rfl
          · rcases List.mem_cons.mp hr with rfl | hr
            · rfl
            · exact absurd newer (first r hr).asymm
      · rw [List.find?_cons_of_neg passes, ih rest]
        constructor
        · rintro ⟨hr, isR, newest⟩
          refine ⟨List.mem_cons_of_mem _ hr, isR, fun q hq isQ => ?_⟩
          rcases List.mem_cons.mp hq with rfl | hq
          · exact absurd isQ passes
          · exact newest q hq isQ
        · rintro ⟨hr, isR, newest⟩
          rcases List.mem_cons.mp hr with rfl | hr
          · exact absurd isR passes
          · exact ⟨hr, isR, fun q hq => newest q (List.mem_cons_of_mem _ hq)⟩

theorem nodup_of_newer (sorted : rows.Pairwise (Newer time id)) : rows.Nodup := by
  refine sorted.imp ?_
  rintro a _ first rfl
  exact first.asymm first

/-- Only one list holds given rows with the newest first. -/
theorem eq_of_newer {rows' : List α} (sorted : rows.Pairwise (Newer time id))
    (sorted' : rows'.Pairwise (Newer time id)) (members : ∀ r, r ∈ rows ↔ r ∈ rows') :
    rows = rows' := by
  have sameRows : rows.Perm rows' :=
    (List.perm_ext_iff_of_nodup (nodup_of_newer sorted) (nodup_of_newer sorted')).mpr members
  apply List.Perm.eq_of_pairwise _ sorted sorted' sameRows
  intro a b _ _ first second
  exact absurd second first.asymm

/-- A list of all rows of a table with a property, the newest first. -/
structure NewestOf (time : α → Timestamp) (id : α → Uuid) (table : List α) (has : α → Prop)
    (rows : List α) : Prop where
  sorted : rows.Pairwise (Newer time id)
  members : ∀ r, r ∈ rows ↔ r ∈ table ∧ has r

namespace NewestOf

variable {has : α → Prop}

theorem unique {rows' : List α} (newest : NewestOf time id table has rows)
    (newest' : NewestOf time id table has rows') : rows = rows' := by
  apply eq_of_newer newest.sorted newest'.sorted
  intro r
  rw [newest.members, newest'.members]

end NewestOf

/-! ## Sorting -/

section Key

variable {le : α → α → Bool} {key : α → Int} (byKey : ∀ a b, le a b = true ↔ key a ≤ key b)

include byKey

theorem trans_of_key (a b c : α) : le a b = true → le b c = true → le a c = true := by
  simp only [byKey]
  exact Int.le_trans

theorem total_of_key (a b : α) : (le a b || le b a) = true := by
  simp only [Bool.or_eq_true, byKey]
  exact Int.le_total _ _

theorem mergeSort_by_key (rows : List α) :
    (rows.mergeSort le).Pairwise fun a b => key a ≤ key b := by
  have sorted := List.pairwise_mergeSort (trans_of_key byKey) (total_of_key byKey) rows
  exact sorted.imp fun inOrder => (byKey _ _).mp inOrder

/-- Rows of the same number stay as they are. -/
theorem before_mergeSort_by_key {a b : α} (before : [a, b].Sublist rows) (tied : key a = key b) :
    [a, b].Sublist (rows.mergeSort le) :=
  List.pair_sublist_mergeSort (trans_of_key byKey) (total_of_key byKey)
    ((byKey a b).mpr (Int.le_of_eq tied)) before

end Key

/-- Sorting by two numbers, the second for rows with the same first, brings the rows in order. -/
theorem mergeSort_sorted {le : α → α → Bool} {first second : α → Int}
    (by_ : ∀ a b, le a b = true ↔ first a < first b ∨ (first a = first b ∧ second a ≤ second b))
    (rows : List α) : (rows.mergeSort le).Pairwise fun a b =>
      first a < first b ∨ (first a = first b ∧ second a ≤ second b) := by
  simp only [← by_]
  apply List.pairwise_mergeSort
  · intro a b c
    simp only [by_]
    omega
  · intro a b
    simp only [Bool.or_eq_true, by_]
    omega

theorem perm_newestFirst (rows : List α) : (newestFirst time id rows).Perm rows :=
  List.mergeSort_perm rows _

theorem mem_newestFirst {r : α} : r ∈ newestFirst time id rows ↔ r ∈ rows :=
  (perm_newestFirst rows).mem_iff

theorem perm_oldestFirst (rows : List α) : (oldestFirst time id rows).Perm rows :=
  List.mergeSort_perm rows _

theorem mem_oldestFirst {r : α} : r ∈ oldestFirst time id rows ↔ r ∈ rows :=
  (perm_oldestFirst rows).mem_iff

theorem newestFirst_sorted (unique : Unique id rows) :
    (newestFirst time id rows).Pairwise (Newer time id) := by
  have inOrder : (newestFirst time id rows).Pairwise fun a b =>
      -(time a).micros < -(time b).micros ∨
        (-(time a).micros = -(time b).micros ∧ -((id a).value : Int) ≤ -((id b).value : Int)) := by
    apply mergeSort_sorted
    intro a b
    rw [decide_eq_true_eq, Timestamp.eq_iff, Timestamp.lt_iff, Uuid.le_iff]
    omega
  have distinct : (newestFirst time id rows).Pairwise fun a b => id a ≠ id b := by
    rw [← Rows.unique_iff_pairwise]
    exact ((perm_newestFirst rows).map id).nodup_iff.mpr unique
  refine (inOrder.and distinct).imp ?_
  rintro a b ⟨earlier, ne⟩
  rw [ne_eq, Uuid.eq_iff] at ne
  rw [newer_iff]
  omega

def newestPassing (time : α → Timestamp) (id : α → Uuid) (test : α → Bool) (table : List α) :
    List α :=
  newestFirst time id (table.filter test)

theorem mem_newestPassing {test : α → Bool} {r : α} :
    r ∈ newestPassing time id test table ↔ r ∈ table ∧ test r = true := by
  rw [newestPassing, mem_newestFirst, List.mem_filter]

theorem length_newestPassing (test : α → Bool) (table : List α) :
    (newestPassing time id test table).length = table.countP test := by
  rw [newestPassing, (perm_newestFirst _).length_eq, List.countP_eq_length_filter]

theorem newestPassing_newestOf (unique : Unique id table) {has : α → Prop} {test : α → Bool}
    (tests : ∀ r, test r = true ↔ has r) :
    NewestOf time id table has (newestPassing time id test table) where
  sorted := newestFirst_sorted (unique.filter test)
  members r := by
    rw [mem_newestPassing, tests]

/-- Leaving rows out and sorting may change places. -/
theorem filter_newestFirst (unique : Unique id rows) (test : α → Bool) :
    (newestFirst time id rows).filter test = newestFirst time id (rows.filter test) := by
  have kept : NewestOf time id rows (fun r => test r = true)
      ((newestFirst time id rows).filter test) := by
    refine ⟨(newestFirst_sorted unique).filter _, ?_⟩
    intro r
    rw [List.mem_filter, mem_newestFirst]
  exact kept.unique (newestPassing_newestOf unique fun _ => Iff.rfl)

theorem oldestFirst_eq_reverse (unique : Unique id rows) :
    oldestFirst time id rows = (newestFirst time id rows).reverse := by
  have sorted : (oldestFirst time id rows).Pairwise fun a b =>
      (time a).micros < (time b).micros ∨
        ((time a).micros = (time b).micros ∧ ((id a).value : Int) ≤ ((id b).value : Int)) := by
    apply mergeSort_sorted
    intro a b
    rw [decide_eq_true_eq, Timestamp.eq_iff, Timestamp.lt_iff, Uuid.le_iff]
    omega
  have backwards : (newestFirst time id rows).reverse.Pairwise fun a b =>
      (time a).micros < (time b).micros ∨
        ((time a).micros = (time b).micros ∧ ((id a).value : Int) ≤ ((id b).value : Int)) := by
    rw [List.pairwise_reverse]
    refine (newestFirst_sorted unique).imp ?_
    intro a b first
    rw [newer_iff] at first
    omega
  have sameRows : (oldestFirst time id rows).Perm (newestFirst time id rows).reverse :=
    (perm_oldestFirst rows).trans
      ((perm_newestFirst rows).symm.trans (List.reverse_perm _).symm)
  apply List.Perm.eq_of_pairwise _ sorted backwards sameRows
  -- Rows that may stand either way have the same identifier, so they are one row.
  intro a b ha hb first second
  have memberA : a ∈ rows := mem_oldestFirst.mp ha
  have memberB : b ∈ rows := mem_newestFirst.mp (List.mem_reverse.mp hb)
  apply unique.eq_of_same memberA memberB
  rw [Uuid.eq_iff]
  omega

end Store

end GigBoard
