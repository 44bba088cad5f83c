import Mathlib.Data.List.DropRight
import StoreSoak.Text.Basic

/-!
Where lists are cut.

A list is cut at an element of another kind or at a separator, whatever stands behind it.

* `takeWhile_append_stop`, `dropWhile_append_stop`, `rdropWhile_append_stop`: the beginning or the end
  is taken or dropped up to the stop at most.
* `splitOn_append_cons`: the parts before a separator and those behind it are the parts of the whole.
* `splitOn_flatMap`: lines that are put together with their ends are cut apart again.
-/

namespace StoreSoak.Text

variable {α : Type} {p : α → Bool} {x : α}

lemma takeWhile_append_stop (hx : p x = false) (s t : List α) :
    (s ++ x :: t).takeWhile p = s.takeWhile p := by
  rw [List.takeWhile_append, List.takeWhile_cons_of_neg (by simp [hx]), List.append_nil]
  split
  · rename_i hall
    exact ((List.takeWhile_prefix p).eq_of_length hall).symm
  · rfl

lemma dropWhile_append_stop (hx : p x = false) (s t : List α) :
    (s ++ x :: t).dropWhile p = s.dropWhile p ++ x :: t := by
  rw [List.dropWhile_append, List.dropWhile_cons_of_neg (by simp [hx])]
  split
  · rename_i hall
    rw [List.isEmpty_iff.mp hall, List.nil_append]
  · rfl

lemma rdropWhile_append_stop (hx : p x = false) (s t : List α) :
    (s ++ x :: t).rdropWhile p = s ++ x :: t.rdropWhile p := by
  have hreverse : (s ++ x :: t).reverse = t.reverse ++ x :: s.reverse := by simp
  rw [List.rdropWhile, hreverse, dropWhile_append_stop hx, List.rdropWhile]
  simp

variable [DecidableEq α]

/-- The parts before and after a separator. -/
lemma splitOn_append_cons (s t : List α) : splitOn x (s ++ x :: t) = splitOn x s ++ splitOn x t := by
  induction s with
  | nil => exact if_pos rfl
  | cons c s ih =>
      rw [List.cons_append, splitOn, splitOn, ih]
      split
      · rfl
      · cases hs : splitOn x s with
        | nil => exact absurd hs (splitOn_ne_nil x s)
        | cons part parts => rfl

/-- A text without a separator is one part. -/
lemma splitOn_of_notMem {s : List α} (hs : x ∉ s) : splitOn x s = [s] := by
  induction s with
  | nil => rfl
  | cons c s ih =>
      rw [List.mem_cons, not_or] at hs
      rw [splitOn, if_neg (Ne.symm hs.1), ih hs.2]

/-- Ended lines are cut where they end. -/
lemma splitOn_flatMap {ls : List (List α)} (h : ∀ l ∈ ls, x ∉ l) :
    splitOn x (ls.flatMap fun l => l ++ [x]) = ls ++ [[]] := by
  induction ls with
  | nil => rfl
  | cons l ls ih =>
      rw [List.forall_mem_cons] at h
      rw [List.flatMap_cons, List.append_assoc, List.singleton_append, splitOn_append_cons,
        splitOn_of_notMem h.1, ih h.2]
      rfl

end StoreSoak.Text
