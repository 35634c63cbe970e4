import GigBoard.Proofs.Order

/-!
# Rows of one time

Lists break ties of time by identifiers.  Sorting by time alone leaves rows of one time in the order of
the table.  Both begin with the same rows exactly if none of these rows stands in the table in front
of a row of its time with a greater identifier.
-/

set_option autoImplicit false

namespace GigBoard

namespace Rows

variable {α : Type} {rows : List α} {a b : α}

theorem before_or_before (ha : a ∈ rows) (hb : b ∈ rows) (differ : a ≠ b) :
    [a, b].Sublist rows ∨ [b, a].Sublist rows :=
  related_of_pairwise (List.pairwise_iff_forall_sublist.mpr id) ha hb differ

theorem not_before (nodup : rows.Nodup) (before : [a, b].Sublist rows) : ¬[b, a].Sublist rows := by
  intro behind
  have differ : a ≠ b := nodup.forall_sublist before
  induction rows with
  | nil => cases before
  | cons first rows ih =>
      obtain ⟨absent, nodup⟩ := List.nodup_cons.mp nodup
      cases before with
      | cons _ before =>
          cases behind with
          | cons _ behind => exact ih nodup before behind
          | cons_cons _ _ => exact absent (before.subset (by simp))
      | cons_cons _ _ =>
          cases behind with
          | cons _ behind => exact absent (behind.subset (by simp))
          | cons_cons _ _ => exact differ rfl

theorem before_append {rows' : List α} (ha : a ∈ rows) (hb : b ∈ rows') :
    [a, b].Sublist (rows ++ rows') :=
  (List.singleton_sublist.mpr ha).append (List.singleton_sublist.mpr hb)

theorem before_filter_iff {test : α → Bool} : [a, b].Sublist (rows.filter test) ↔
    [a, b].Sublist rows ∧ test a = true ∧ test b = true := by
  constructor
  · intro before
    have pass : ∀ c ∈ [a, b], test c = true := fun c hc => (List.mem_filter.mp (before.subset hc)).2
    exact ⟨before.trans List.filter_sublist, pass a (by simp), pass b (by simp)⟩
  · rintro ⟨before, passA, passB⟩
    have kept := before.filter test
    rwa [List.filter_eq_self.mpr (by simp [passA, passB])] at kept

/-- Rows of a table are known by a unique column. -/
theorem Unique.eq_of_column {κ : Type} {column : α → κ} {rows xs ys : List α}
    (unique : Unique column rows) (hxs : xs ⊆ rows) (hys : ys ⊆ rows)
    (same : xs.map column = ys.map column) : xs = ys := by
  induction xs generalizing ys with
  | nil => exact (List.map_eq_nil_iff.mp same.symm).symm
  | cons x xs ih =>
      obtain ⟨y, ys, rfl, first, rest⟩ := List.map_eq_cons_iff.mp same.symm
      rw [List.cons_subset] at hxs hys
      rw [unique.eq_of_same hxs.1 hys.1 first.symm, ih hxs.2 hys.2 rest.symm]

end Rows

namespace Store

open Rows (Unique)

variable {α : Type} {time : α → Timestamp} {id : α → Uuid} {rows : List α} {a b : α}

def latestFirst (time : α → Timestamp) (rows : List α) : List α :=
  rows.mergeSort fun a b => decide (time b ≤ time a)

theorem later_iff (a b : α) :
    decide (time b ≤ time a) = true ↔ -(time a).micros ≤ -(time b).micros := by
  rw [decide_eq_true_eq, Int.neg_le_neg_iff]
  exact Iff.rfl

theorem perm_latestFirst (rows : List α) : (latestFirst time rows).Perm rows :=
  List.mergeSort_perm rows _

theorem nodup_latestFirst (unique : Unique id rows) : (latestFirst time rows).Nodup :=
  (perm_latestFirst rows).nodup_iff.mpr (.of_map id unique)

theorem latestFirst_sorted (rows : List α) :
    (latestFirst time rows).Pairwise fun a b => time b ≤ time a := by
  refine (mergeSort_by_key later_iff rows).imp fun later => ?_
  rw [← later_iff, decide_eq_true_eq] at later
  exact later

/-- Rows of one time stay as they are. -/
theorem before_latestFirst (before : [a, b].Sublist rows) (tied : time a = time b) :
    [a, b].Sublist (latestFirst time rows) :=
  before_mergeSort_by_key later_iff before (by rw [tied])

theorem newer_of_before (unique : Unique id rows) (before : [a, b].Sublist (latestFirst time rows))
    (greater : [a, b].Sublist rows → time a = time b → (id b).value < (id a).value) :
    Newer time id a b := by
  have nodup : (latestFirst time rows).Nodup := nodup_latestFirst unique
  have later : time b ≤ time a :=
    List.pairwise_iff_forall_sublist.mp (latestFirst_sorted rows) before
  rcases Int.lt_or_eq_of_le later with earlier | same
  · exact .inl earlier
  · have tied : time a = time b := (Timestamp.eq_iff _ _).mpr same.symm
    have stored : ∀ c ∈ [a, b], c ∈ rows :=
      fun c hc => (perm_latestFirst rows).mem_iff.mp (before.subset hc)
    rcases Rows.before_or_before (stored a (by simp)) (stored b (by simp))
      (nodup.forall_sublist before) with asStored | behind
    · exact .inr ⟨tied, greater asStored tied⟩
    · exact absurd (before_latestFirst behind tied.symm) (Rows.not_before nodup before)

/-- A shown row that has the lesser identifier would stand behind the other in the list. -/
theorem greater_of_take_eq {n : Nat} (unique : Unique id rows)
    (same : (latestFirst time rows).take n = (newestFirst time id rows).take n)
    (before : [a, b].Sublist rows) (tied : time a = time b)
    (shown : a ∈ (latestFirst time rows).take n) : (id b).value < (id a).value := by
  by_contra notGreater
  have sorted : (newestFirst time id rows).Pairwise (Newer time id) := newestFirst_sorted unique
  have distinct := List.pairwise_iff_forall_sublist.mp
    ((Rows.unique_iff_pairwise id rows).mp unique) before
  have differ : a ≠ b := fun one => distinct (congrArg id one)
  have newer : Newer time id b a := by
    rw [ne_eq, Uuid.eq_iff] at distinct
    exact .inr ⟨tied.symm, by omega⟩
  have shownToo : b ∈ (latestFirst time rows).take n := by
    have listed : b ∈ newestFirst time id rows := mem_newestFirst.mpr (before.subset (by simp))
    rw [← List.take_append_drop n (newestFirst time id rows)] at sorted listed
    rw [same] at shown ⊢
    refine (List.mem_append.mp listed).resolve_right fun dropped => ?_
    exact newer.asymm ((List.pairwise_append.mp sorted).2.2 a shown b dropped)
  rcases Rows.before_or_before shown shownToo differ with asStored | behind
  · rw [same] at asStored
    exact newer.asymm (List.pairwise_iff_forall_sublist.mp sorted.take asStored)
  · exact Rows.not_before (nodup_latestFirst unique) (before_latestFirst before tied)
      (behind.trans (List.take_sublist _ _))

/-- If each of the first rows has a greater identifier than the rows of its time that stand behind it in
the table, then they stand as in the list. -/
theorem take_eq_of_greater {n : Nat} (unique : Unique id rows)
    (greater : ∀ a b, [a, b].Sublist rows → time a = time b → a ∈ (latestFirst time rows).take n →
      (id b).value < (id a).value) :
    (latestFirst time rows).take n = (newestFirst time id rows).take n := by
  have whole := List.take_append_drop n (latestFirst time rows)
  have front {a b : α} (before : [a, b].Sublist (latestFirst time rows))
      (shown : a ∈ (latestFirst time rows).take n) : Newer time id a b :=
    newer_of_before unique before fun asStored tied => greater a b asStored tied shown
  have others : Unique id ((latestFirst time rows).drop n) := by
    have all : Unique id (latestFirst time rows) :=
      ((perm_latestFirst rows).map id).nodup_iff.mpr unique
    exact List.Nodup.sublist ((List.drop_sublist _ _).map id) all
  -- Only the rows behind the first ones are not in the order of the lists yet.
  have isNewest : (latestFirst time rows).take n ++
      newestFirst time id ((latestFirst time rows).drop n) = newestFirst time id rows := by
    refine eq_of_newer (List.pairwise_append.mpr ⟨?_, newestFirst_sorted others, ?_⟩)
      (newestFirst_sorted unique) ?_
    · refine List.pairwise_iff_forall_sublist.mpr fun before => ?_
      exact front (before.trans (List.take_sublist _ _)) (before.subset (by simp))
    · intro a ha b hb
      refine front ?_ ha
      rw [← whole]
      exact Rows.before_append ha (mem_newestFirst.mp hb)
    · intro r
      rw [List.mem_append, mem_newestFirst, ← List.mem_append, whole, mem_newestFirst,
        (perm_latestFirst rows).mem_iff]
  rw [← isNewest]
  by_cases enough : n ≤ (latestFirst time rows).length
  · exact (List.take_left' (List.length_take_of_le enough)).symm
  · rw [List.drop_eq_nil_of_le (by omega)]
    simp [newestFirst, List.take_take]

end Store

end GigBoard
