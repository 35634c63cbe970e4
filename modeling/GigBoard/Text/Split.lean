/-!
# Cutting texts at a mark

Runs of characters cut at every occurrence of a mark, at its first, or at its last.
-/

set_option autoImplicit false

namespace GigBoard.Text

/-- The pieces of a run between the occurrences of a mark; there is always one. -/
def splitAt (mark : Char) : List Char → List (List Char)
  | [] => [[]]
  | c :: cs =>
    match splitAt mark cs with
    | [] => [[c]]
    | piece :: pieces => if c = mark then [] :: piece :: pieces else (c :: piece) :: pieces

def cutFirst (mark : Char) (cs : List Char) : List Char × Option (List Char) :=
  match cs.dropWhile (· != mark) with
  | [] => (cs, none)
  | _ :: rest => (cs.takeWhile (· != mark), some rest)

/-- The parts of a run in front of and after the last occurrence of a mark, if there is one. -/
def cutLast (mark : Char) (cs : List Char) : Option (List Char × List Char) :=
  match cs.reverse.dropWhile (· != mark) with
  | [] => none
  | _ :: front => some (front.reverse, (cs.reverse.takeWhile (· != mark)).reverse)

/-- Putting the mark back between the parts gives the run again. -/
theorem eq_append_of_cutLast {mark : Char} {cs front back : List Char}
    (h : cutLast mark cs = some (front, back)) : cs = front ++ mark :: back := by
  unfold cutLast at h
  have whole := List.takeWhile_append_dropWhile (p := (· != mark)) (l := cs.reverse)
  have stopped := List.head?_dropWhile_not (· != mark) cs.reverse
  cases hd : cs.reverse.dropWhile (· != mark) with
  | nil => simp [hd] at h
  | cons m rest =>
    rw [hd] at h whole stopped
    have hm : m = mark := by simpa using stopped
    have unreversed := congrArg List.reverse whole
    simp only [List.reverse_append, List.reverse_cons, List.reverse_reverse] at unreversed
    simp only [Option.some.injEq, Prod.mk.injEq] at h
    rw [hm] at unreversed
    rw [← h.1, ← h.2]
    simpa using unreversed.symm

end GigBoard.Text
