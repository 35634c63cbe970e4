import Mathlib.Data.List.Forall2
import Mathlib.Data.List.Nodup
import Mathlib.Data.List.Pairwise

/-!
# Rows of a table

A table is a list of rows, and a row is known by the value of a key column.  This module collects what
the store needs to know about such lists: columns without repetition and how they survive a change of
the table, the row that a key finds, and `Differ`, which compares a table before and after a change
row by row: which rows are new, which are changed, and which are gone.
-/

set_option autoImplicit false

namespace GigBoard.Rows

variable {α κ : Type}

/-- No two rows have the same value in a column. -/
def Unique (column : α → κ) (rows : List α) : Prop := (rows.map column).Nodup

theorem unique_iff_pairwise (column : α → κ) (rows : List α) :
    Unique column rows ↔ rows.Pairwise fun a b => column a ≠ column b :=
  List.pairwise_map

theorem Unique.eq_of_same {column : α → κ} {rows : List α} (unique : Unique column rows)
    {a b : α} (ha : a ∈ rows) (hb : b ∈ rows) (same : column a = column b) : a = b :=
  List.inj_on_of_nodup_map unique ha hb same

/-- Of two rows of a list one stands in front of the other. -/
theorem related_of_pairwise {R : α → α → Prop} {rows : List α} (each : rows.Pairwise R) {a b : α}
    (ha : a ∈ rows) (hb : b ∈ rows) (differ : a ≠ b) : R a b ∨ R b a := by
  have symmetric : Std.Symm fun a b => R a b ∨ R b a := ⟨fun _ _ => Or.symm⟩
  have eachWay : rows.Pairwise fun a b => R a b ∨ R b a := each.imp Or.inl
  exact eachWay.forall ha hb differ

theorem Unique.filter {column : α → κ} {rows : List α} (unique : Unique column rows)
    (keep : α → Bool) : Unique column (rows.filter keep) :=
  List.Nodup.sublist (List.filter_sublist.map column) unique

/-- A change of rows that keeps the value of a column in each of them keeps the column. -/
theorem column_map {column : α → κ} {rows : List α} {update : α → α}
    (keeps : ∀ r ∈ rows, column (update r) = column r) :
    (rows.map update).map column = rows.map column := by
  rw [List.map_map]
  exact List.map_congr_left keeps

/-- A column that tells the values of a unique column apart is unique. -/
theorem Unique.named {ι : Type} {column : α → κ} {name : κ → ι} {rows : List α}
    (unique : Unique column rows) (injective : Function.Injective name) :
    Unique (fun r => name (column r)) rows := by
  have named := List.Nodup.map injective unique
  rw [List.map_map] at named
  exact named

theorem Unique.map {column : α → κ} {rows : List α} {update : α → α}
    (unique : Unique column rows) (keeps : ∀ r ∈ rows, column (update r) = column r) :
    Unique column (rows.map update) := by
  unfold Unique
  rw [column_map keeps]
  exact unique

/-- New rows may stand behind the old ones if their values are new and differ among themselves. -/
theorem Unique.append {column : α → κ} {rows added : List α} (unique : Unique column rows)
    (distinct : Unique column added)
    (fresh : ∀ n ∈ added, ∀ q ∈ rows, column q ≠ column n) :
    Unique column (rows ++ added) := by
  rw [unique_iff_pairwise] at unique distinct ⊢
  rw [List.pairwise_append]
  exact ⟨unique, distinct, fun q hq n hn => fresh n hn q hq⟩

theorem Unique.append_one {column : α → κ} {rows : List α} {r : α}
    (unique : Unique column rows) (fresh : ∀ q ∈ rows, column q ≠ column r) :
    Unique column (rows ++ [r]) := by
  apply unique.append
  · simp [Unique]
  · intro n hn q hq
    rw [List.mem_singleton.mp hn]
    exact fresh q hq

theorem forall_mem_append_one {p : α → Prop} {rows : List α} {r : α} (before : ∀ q ∈ rows, p q)
    (new : p r) : ∀ q ∈ rows ++ [r], p q := by
  intro q hq
  rcases List.mem_append.mp hq with hq | hq
  · exact before q hq
  · rw [List.mem_singleton.mp hq]
    exact new

/-- What follows for a changed row from what held of the row holds of all changed rows. -/
theorem forall_mem_update {p q : α → Prop} {rows : List α} {update : α → α}
    (before : ∀ r ∈ rows, p r) (after : ∀ r ∈ rows, p r → q (update r)) :
    ∀ r ∈ rows.map update, q r := by
  intro r hr
  obtain ⟨o, ho, rfl⟩ := List.mem_map.mp hr
  exact after o ho (before o ho)

/-- What holds of all rows, and of those that are changed also after the change, holds of all
afterwards. -/
theorem forall_mem_change {p : α → Prop} {rows : List α} {due : α → Prop} [DecidablePred due]
    {change : α → α} (before : ∀ r ∈ rows, p r) (after : ∀ r ∈ rows, due r → p r → p (change r)) :
    ∀ r ∈ rows.map (fun r => if due r then change r else r), p r := by
  refine forall_mem_update before ?_
  intro r hr holds
  by_cases isDue : due r
  · rw [if_pos isDue]
    exact after r hr isDue holds
  · rw [if_neg isDue]
    exact holds

/-- Replacing the row with a key keeps all keys. -/
theorem key_replace [DecidableEq κ] (key : α → κ) (r q : α) :
    key (if key q = key r then r else q) = key q := by
  by_cases same : key q = key r
  · rw [if_pos same, same]
  · rw [if_neg same]

/-- The row with a key may be replaced by one whose value in another column is nobody else's. -/
theorem Unique.replace [DecidableEq κ] {ι : Type} {key : α → κ} {column : α → ι} {rows : List α}
    {r : α} (unique : Unique column rows) (keys : Unique key rows)
    (fresh : ∀ q ∈ rows, key q ≠ key r → column q ≠ column r) :
    Unique column (rows.map fun q => if key q = key r then r else q) := by
  rw [unique_iff_pairwise] at unique keys ⊢
  rw [List.pairwise_map]
  refine (unique.and keys).imp_of_mem ?_
  rintro a b ha hb ⟨different, otherKey⟩
  by_cases hka : key a = key r
  · have hkb : key b ≠ key r := fun e => otherKey (hka.trans e.symm)
    rw [if_pos hka, if_neg hkb]
    exact (fresh b hb hkb).symm
  · rw [if_neg hka]
    by_cases hkb : key b = key r
    · rw [if_pos hkb]
      exact fresh a ha hka
    · rw [if_neg hkb]
      exact different

/-- If all rows with a property have one value in a column without repetition, there is at most one. -/
theorem Unique.countP_le_one {column : α → κ} {p : α → Bool} : ∀ {rows : List α},
    Unique column rows →
      (∀ a ∈ rows, ∀ b ∈ rows, p a = true → p b = true → column a = column b) →
        rows.countP p ≤ 1 := by
  intro rows
  induction rows with
  | nil =>
      intro _ _
      simp
  | cons r rows ih =>
      intro unique same
      obtain ⟨fresh, rest⟩ := List.pairwise_cons.mp ((unique_iff_pairwise column _).mp unique)
      have later := ih ((unique_iff_pairwise column _).mpr rest) fun a ha b hb =>
        same a (List.mem_cons_of_mem _ ha) b (List.mem_cons_of_mem _ hb)
      by_cases has : p r = true
      · -- Another one would have the value of `r`, which no later row has.
        have noOther : rows.countP p = 0 := by
          rw [List.countP_eq_zero]
          intro q hq hasToo
          exact fresh q hq (same r List.mem_cons_self q (List.mem_cons_of_mem _ hq) has hasToo)
        rw [List.countP_cons_of_pos has]
        omega
      · rw [List.countP_cons_of_neg has]
        exact later

/-! ## The row that a key finds -/

section Find

variable [DecidableEq κ] {key : α → κ} {rows : List α} {k : κ} {r : α}

theorem mem_of_found (found : rows.find? (fun q => decide (key q = k)) = some r) : r ∈ rows :=
  List.mem_of_find?_eq_some found

theorem key_of_found (found : rows.find? (fun q => decide (key q = k)) = some r) : key r = k := by
  simpa using List.find?_some found

theorem Unique.find?_eq (unique : Unique key rows) (member : r ∈ rows) (same : key r = k) :
    rows.find? (fun q => decide (key q = k)) = some r := by
  cases found : rows.find? (fun q => decide (key q = k)) with
  | none =>
      have absent := List.find?_eq_none.mp found r member
      simp [same] at absent
  | some q =>
      have sameKey : key q = key r := (key_of_found found).trans same.symm
      rw [unique.eq_of_same (mem_of_found found) member sameKey]

/-- A row that was put behind all others under a new key is found by its key. -/
theorem find?_append_one (key : α → κ) (fresh : ∀ q ∈ rows, key q ≠ key r) :
    (rows ++ [r]).find? (fun q => decide (key q = key r)) = some r := by
  have absent : rows.find? (fun q => decide (key q = key r)) = none := by
    apply List.find?_eq_none.mpr
    intro q hq
    simp [fresh q hq]
  rw [List.find?_append, absent]
  simp

/-- After the row with a key was changed and kept its key, the key finds the changed row. -/
theorem find?_map_update (key : α → κ) (update : α → α)
    (keeps : ∀ q, key (update q) = key q)
    (found : rows.find? (fun q => decide (key q = k)) = some r) :
    (rows.map update).find? (fun q => decide (key q = k)) = some (update r) := by
  have sameTest : ((fun q => decide (key q = k)) ∘ update) = fun q => decide (key q = k) := by
    funext q
    simp [keeps q]
  rw [List.find?_map, sameTest, found]
  rfl

end Find

/-! ## The change of the row with a key -/

section Change

variable [DecidableEq κ] {key : α → κ} {rows : List α} {k : κ} {r : α} {f g : α → α}

/-- There is but one row to change, so that only what becomes of it matters. -/
theorem Unique.map_change_congr (unique : Unique key rows) (member : r ∈ rows) (own : key r = k)
    (same : f r = g r) :
    (rows.map fun q => if key q = k then f q else q) =
      rows.map fun q => if key q = k then g q else q := by
  apply List.map_congr_left
  intro q hq
  by_cases isIt : key q = k
  · rw [if_pos isIt, if_pos isIt, unique.eq_of_same hq member (isIt.trans own.symm), same]
  · rw [if_neg isIt, if_neg isIt]

/-- Two changes of the row with a key, one after another, are one if the first keeps the key. -/
theorem map_change_twice (rows : List α) (keeps : ∀ q, key (f q) = key q) :
    ((rows.map fun q => if key q = k then f q else q).map fun q => if key q = k then g q else q) =
      rows.map fun q => if key q = k then g (f q) else q := by
  rw [List.map_map]
  apply List.map_congr_left
  intro q _
  by_cases isIt : key q = k
  · rw [Function.comp_apply, if_pos isIt, if_pos ((keeps q).trans isIt), if_pos isIt]
  · rw [Function.comp_apply, if_neg isIt, if_neg isIt, if_neg isIt]

end Change

/-! ## Comparing a table before and after a change -/

/-- How a table differs from what it was: every row with a new key is one that may be `added`, every
row whose key was there is the same or one that the old row may be `changed` into, and every row whose
key is no longer there is one that may be `removed`.  Where no key stands twice, these are all rows. -/
structure Differ (key : α → κ) (before after : List α) (added : α → Prop)
    (changed : α → α → Prop) (removed : α → Prop) : Prop where
  added : ∀ r ∈ after, (∀ q ∈ before, key q ≠ key r) → added r
  changed : ∀ r ∈ before, ∀ r' ∈ after, key r' = key r → r' = r ∨ changed r r'
  removed : ∀ r ∈ before, (∀ q ∈ after, key q ≠ key r) → removed r

section Differ

variable {key : α → κ} {rows : List α} {added : α → Prop} {changed : α → α → Prop}
  {removed : α → Prop}

theorem Differ.same (unique : Unique key rows) : Differ key rows rows added changed removed where
  added r hr fresh := absurd rfl (fresh r hr)
  changed _ hr _ hr' same := .inl (unique.eq_of_same hr' hr same)
  removed r hr gone := absurd rfl (gone r hr)

theorem Differ.append {new : List α} (unique : Unique key rows)
    (fresh : ∀ n ∈ new, ∀ q ∈ rows, key q ≠ key n) (mayAdd : ∀ n ∈ new, added n) :
    Differ key rows (rows ++ new) added changed removed where
  added r hr isNew := by
    rcases List.mem_append.mp hr with hr | hr
    · exact absurd rfl (isNew r hr)
    · exact mayAdd r hr
  changed r hr r' hr' same := by
    rcases List.mem_append.mp hr' with hr' | hr'
    · exact .inl (unique.eq_of_same hr' hr same)
    · exact absurd same.symm (fresh r' hr' r hr)
  removed r hr gone := absurd rfl (gone r (List.mem_append_left _ hr))

theorem Differ.append_one {new : α} (unique : Unique key rows)
    (fresh : ∀ q ∈ rows, key q ≠ key new) (mayAdd : added new) :
    Differ key rows (rows ++ [new]) added changed removed := by
  apply Differ.append unique
  · intro n hn q hq
    rw [List.mem_singleton.mp hn]
    exact fresh q hq
  · intro n hn
    rw [List.mem_singleton.mp hn]
    exact mayAdd

theorem Differ.map {update : α → α} (unique : Unique key rows)
    (keeps : ∀ r ∈ rows, key (update r) = key r)
    (mayChange : ∀ r ∈ rows, update r = r ∨ changed r (update r)) :
    Differ key rows (rows.map update) added changed removed where
  added r hr isNew := by
    obtain ⟨q, hq, rfl⟩ := List.mem_map.mp hr
    exact absurd (keeps q hq).symm (isNew q hq)
  changed r hr r' hr' same := by
    obtain ⟨q, hq, rfl⟩ := List.mem_map.mp hr'
    have sameRow : q = r := unique.eq_of_same hq hr ((keeps q hq).symm.trans same)
    subst sameRow
    exact mayChange q hq
  removed r hr gone := absurd (keeps r hr) (gone (update r) (List.mem_map_of_mem hr))

/-- Changing the row with a key changes no other. -/
theorem Differ.update [DecidableEq κ] {update : α → α} {r : α} (unique : Unique key rows)
    (member : r ∈ rows) (keeps : ∀ q ∈ rows, key (update q) = key q)
    (others : ∀ q ∈ rows, key q ≠ key r → update q = q) (mayChange : changed r (update r)) :
    Differ key rows (rows.map update) added changed removed := by
  apply Differ.map unique keeps
  intro q hq
  by_cases same : key q = key r
  · rw [unique.eq_of_same hq member same]
    exact .inr mayChange
  · exact .inl (others q hq same)

theorem Differ.replace [DecidableEq κ] {r r' : α} (unique : Unique key rows) (member : r ∈ rows)
    (same : key r' = key r) (mayChange : changed r r') :
    Differ key rows (rows.map fun q => if key q = key r' then r' else q) added changed removed := by
  apply Differ.update unique member
  · intro q _
    exact key_replace key r' q
  · intro q _ other
    rw [same]
    exact if_neg other
  · rw [if_pos same.symm]
    exact mayChange

theorem Differ.filter {keep : α → Bool} (unique : Unique key rows)
    (mayRemove : ∀ r ∈ rows, keep r = false → removed r) :
    Differ key rows (rows.filter keep) added changed removed where
  added r hr isNew := absurd rfl (isNew r (List.mem_filter.mp hr).1)
  changed _ hr _ hr' same := .inl (unique.eq_of_same (List.mem_filter.mp hr').1 hr same)
  removed r hr gone := by
    apply mayRemove r hr
    by_contra kept
    have stays : r ∈ rows.filter keep := List.mem_filter.mpr ⟨hr, by simpa using kept⟩
    exact gone r stays rfl

end Differ

/-! ## Rows that are made one by one -/

section Forall₂

variable {β γ : Type} {R : α → β → Prop} {xs : List α} {ys : List β}

theorem forall_mem_iff_of_forall₂ {p : α → Prop} {q : β → Prop} (pairs : List.Forall₂ R xs ys)
    (same : ∀ x y, R x y → (p x ↔ q y)) : (∀ x ∈ xs, p x) ↔ ∀ y ∈ ys, q y := by
  induction pairs with
  | nil => exact iff_of_true nofun nofun
  | cons first _ ih => rw [List.forall_mem_cons, List.forall_mem_cons, same _ _ first, ih]

theorem forall_mem_of_forall₂ {q : β → Prop} (pairs : List.Forall₂ R xs ys)
    (holds : ∀ x y, R x y → q y) : ∀ y ∈ ys, q y :=
  (forall_mem_iff_of_forall₂ pairs fun x y made => iff_of_true trivial (holds x y made)).mp
    fun _ _ => trivial

theorem map_eq_of_forall₂ {f : α → γ} {g : β → γ} (pairs : List.Forall₂ R xs ys)
    (same : ∀ x y, R x y → f x = g y) : xs.map f = ys.map g := by
  rw [← List.forall₂_eq_eq_eq, List.forall₂_map_left_iff, List.forall₂_map_right_iff]
  exact pairs.imp same

theorem exists_forall₂ (each : ∀ x ∈ xs, ∃ y, R x y) : ∃ ys, List.Forall₂ R xs ys := by
  induction xs with
  | nil => exact ⟨[], .nil⟩
  | cons x xs ih =>
      obtain ⟨⟨y, made⟩, rest⟩ := List.forall_mem_cons.mp each
      obtain ⟨ys, all⟩ := ih rest
      exact ⟨y :: ys, .cons made all⟩

end Forall₂

end GigBoard.Rows
