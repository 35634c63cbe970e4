import GigBoard.Text.Split

/-!
# Texts cut at a mark

What the pieces of a text are, said of texts that are put together of parts and marks; and that no
character but the mark is lost where a text is cut.
-/

set_option autoImplicit false

namespace GigBoard.Text

/-! ## Cutting at every mark -/

variable {mark : Char}

theorem splitAt_ne_nil (mark : Char) (cs : List Char) : splitAt mark cs ≠ [] := by
  induction cs with
  | nil => simp [splitAt]
  | cons c cs ih =>
      unfold splitAt
      split
      · contradiction
      · split <;> simp

theorem splitAt_mark (mark : Char) (cs : List Char) :
    splitAt mark (mark :: cs) = [] :: splitAt mark cs := by
  cases pieces : splitAt mark cs with
  | nil => exact absurd pieces (splitAt_ne_nil mark cs)
  | cons piece rest => simp [splitAt, pieces]

theorem splitAt_of_ne {c : Char} {cs piece : List Char} {pieces : List (List Char)}
    (other : c ≠ mark) (rest : splitAt mark cs = piece :: pieces) :
    splitAt mark (c :: cs) = (c :: piece) :: pieces := by
  simp [splitAt, rest, other]

/-- The marks in front of the segments of a path are the places where it is cut. -/
theorem splitAt_append_segments {segments : List (List Char)}
    (unmarked : ∀ segment ∈ segments, mark ∉ segment) (front : List Char) (free : mark ∉ front) :
    splitAt mark (front ++ segments.flatMap (mark :: ·)) = front :: segments := by
  induction segments generalizing front with
  | nil =>
      induction front with
      | nil => rfl
      | cons c cs ih =>
          simp only [List.mem_cons, not_or] at free
          exact splitAt_of_ne (Ne.symm free.1) (ih free.2)
  | cons segment segments ih =>
      obtain ⟨unmarkedFirst, unmarkedRest⟩ := List.forall_mem_cons.mp unmarked
      have later := ih unmarkedRest segment unmarkedFirst
      induction front with
      | nil => simp only [List.flatMap_cons, List.nil_append, List.cons_append, splitAt_mark, later]
      | cons c cs ihFront =>
          simp only [List.mem_cons, not_or] at free
          exact splitAt_of_ne (Ne.symm free.1) (ihFront free.2)

/-- Putting the marks back in front of the pieces gives the run again. -/
theorem eq_of_splitAt {cs front : List Char} {segments : List (List Char)}
    (cut : splitAt mark cs = front :: segments) : cs = front ++ segments.flatMap (mark :: ·) := by
  induction cs generalizing front segments with
  | nil =>
      cases cut
      rfl
  | cons c cs ih =>
      cases pieces : splitAt mark cs with
      | nil => exact absurd pieces (splitAt_ne_nil mark cs)
      | cons piece rest =>
          have before := ih pieces
          by_cases marked : c = mark
          · subst marked
            rw [splitAt_mark, pieces] at cut
            cases cut
            simp [before]
          · rw [splitAt_of_ne marked pieces] at cut
            cases cut
            simp [before]

/-- A character other than the mark stands in one of the pieces. -/
theorem exists_mem_splitAt {c : Char} {cs : List Char} (hc : c ∈ cs) (other : c ≠ mark) :
    ∃ piece ∈ splitAt mark cs, c ∈ piece := by
  cases cut : splitAt mark cs with
  | nil => exact absurd cut (splitAt_ne_nil mark cs)
  | cons front segments =>
      rw [eq_of_splitAt cut, List.mem_append, List.mem_flatMap] at hc
      rcases hc with hc | ⟨segment, hsegment, hc⟩
      · exact ⟨front, List.mem_cons_self, hc⟩
      · exact ⟨segment, List.mem_cons_of_mem front hsegment, List.mem_of_ne_of_mem other hc⟩

/-- The pieces of a run are those of the library's function. -/
theorem splitAt_eq_splitOn (mark : Char) (cs : List Char) :
    splitAt mark cs = cs.splitOn mark := by
  induction cs with
  | nil => rfl
  | cons c cs ih =>
      cases pieces : splitAt mark cs with
      | nil => exact absurd pieces (splitAt_ne_nil mark cs)
      | cons piece rest =>
          rw [List.splitOn, List.splitOnP_cons_eq_if_modifyHead, ← List.splitOn, ← ih, pieces]
          by_cases marked : c = mark
          · rw [marked, splitAt_mark, pieces]
            simp
          · rw [splitAt_of_ne marked pieces]
            simp [marked]

/-! ## Cutting at the first mark and at the last -/

theorem cutFirst_append {front : List Char} (free : mark ∉ front) (back : List Char) :
    cutFirst mark (front ++ mark :: back) = (front, some back) := by
  have others : ∀ c ∈ front, (c != mark) = true := by
    intro c hc
    rw [bne_iff_ne]
    rintro rfl
    exact free hc
  rw [cutFirst, List.dropWhile_append_of_pos others, List.takeWhile_append_of_pos others]
  simp

/-- Putting the mark back between the parts gives the run again. -/
theorem eq_append_of_cutFirst {cs front back : List Char}
    (cut : cutFirst mark cs = (front, some back)) : cs = front ++ mark :: back := by
  have whole := List.takeWhile_append_dropWhile (p := (· != mark)) (l := cs)
  have stopped := List.head?_dropWhile_not (· != mark) cs
  unfold cutFirst at cut
  cases found : cs.dropWhile (· != mark) with
  | nil => simp [found] at cut
  | cons c rest =>
      rw [found] at cut whole stopped
      cases cut
      have isMark : c = mark := by simpa using stopped
      rw [isMark] at whole
      exact whole.symm

theorem cutLast_append {mark : Char} {back : List Char} (free : mark ∉ back) (front : List Char) :
    cutLast mark (front ++ mark :: back) = some (front, back) := by
  have others : ∀ c ∈ back.reverse, (c != mark) = true := by
    intro c hc
    rw [List.mem_reverse] at hc
    rw [bne_iff_ne]
    rintro rfl
    exact free hc
  have reversed : (front ++ mark :: back).reverse = back.reverse ++ mark :: front.reverse := by simp
  rw [cutLast, reversed, List.dropWhile_append_of_pos others, List.takeWhile_append_of_pos others]
  simp

/-- A run with the mark in it has a last one. -/
theorem exists_last_mark {cs : List Char} (marked : mark ∈ cs) :
    ∃ front back, cs = front ++ mark :: back ∧ mark ∉ back := by
  obtain ⟨back, front, reversed, free⟩ := List.eq_append_cons_of_mem (List.mem_reverse.mpr marked)
  refine ⟨front.reverse, back.reverse, ?_, by simpa using free⟩
  rw [← List.reverse_reverse cs, reversed]
  simp

end GigBoard.Text
