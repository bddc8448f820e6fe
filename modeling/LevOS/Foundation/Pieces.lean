import Mathlib.Data.List.TakeWhile

/-!
# Splitting a list at separators

The pieces of a list are its maximal runs without a separator. Separators in
front, at the end or in a row leave no empty pieces behind, so a scanner that
skips separators and then copies up to the next one reads the pieces in order.

## Main definitions

* `pieces`

## Main results

* `pieces_dropWhile`: leading separators do not matter
* `pieces_cons_of_not`: the first piece and the rest
-/

namespace LevOS.Foundation

variable {α : Type*} (p : α → Bool)

/-- The non-empty runs between separators. -/
def pieces (xs : List α) : List (List α) := (xs.splitOnP p).filter fun piece => !piece.isEmpty

@[simp]
theorem pieces_nil : pieces p [] = [] := by simp [pieces]

variable {p}

theorem pieces_cons {x : α} (hx : p x = true) (xs : List α) : pieces p (x :: xs) = pieces p xs := by
  simp [pieces, List.splitOnP_cons_eq_if_modifyHead, hx]

/-- Leading separators do not matter. -/
theorem pieces_dropWhile (xs : List α) : pieces p (xs.dropWhile p) = pieces p xs := by
  induction xs with
  | nil => rfl
  | cons x xs ih =>
    by_cases hx : p x = true
    · rw [List.dropWhile_cons_of_pos hx, pieces_cons hx, ih]
    · rw [List.dropWhile_cons_of_neg hx]

/-- A list that does not start with a separator starts with its first piece. -/
theorem pieces_cons_of_not {x : α} (hx : p x = false) (xs : List α) :
    pieces p (x :: xs) =
      (x :: xs).takeWhile (fun y => !p y) :: pieces p ((x :: xs).dropWhile fun y => !p y) := by
  have hrun : ∀ y ∈ (x :: xs).takeWhile (fun y => !p y), p y = false := by
    intro y hy
    simpa using List.mem_takeWhile_imp hy
  conv => lhs; rw [← List.takeWhile_append_dropWhile (p := fun y => !p y) (l := x :: xs)]
  cases hrest : (x :: xs).dropWhile fun y => !p y with
  | nil =>
    rw [List.append_nil, pieces_nil, pieces, List.splitOnP_eq_singleton hrun]
    simp [hx]
  | cons separator rest =>
    have hseparator : p separator = true := by
      have := List.head_dropWhile_not (fun y => !p y) (l := x :: xs) (by simp [hrest])
      simpa [hrest] using this
    rw [pieces_cons hseparator, pieces,
      List.splitOnP_append_cons_of_forall_mem hrun separator hseparator,
      List.filter_cons_of_pos (by simp [hx]), pieces]

/-- A separator splits the pieces before it from those after it. -/
theorem pieces_append_cons {x : α} (hx : p x = true) (xs ys : List α) :
    pieces p (xs ++ x :: ys) = pieces p xs ++ pieces p ys := by
  rw [pieces, List.splitOnP_append_cons _ _ hx, List.filter_append, pieces, pieces]

/-- A list without separators is one piece. -/
theorem pieces_of_not_mem {xs : List α} (hne : xs ≠ []) (h : ∀ x ∈ xs, p x = false) :
    pieces p xs = [xs] := by
  rw [pieces, List.splitOnP_eq_singleton h]
  simp [hne]

private theorem subset_of_mem_splitOnP {xs piece : List α} (h : piece ∈ xs.splitOnP p) :
    piece ⊆ xs := by
  induction xs generalizing piece with
  | nil =>
    rw [List.splitOnP_nil, List.mem_singleton] at h
    exact h ▸ List.nil_subset []
  | cons x xs ih =>
    rw [List.splitOnP_cons_eq_if_modifyHead] at h
    split_ifs at h with hx
    · rcases List.mem_cons.mp h with rfl | hmem
      · exact List.nil_subset _
      · exact List.Subset.trans (ih hmem) (List.subset_cons_self x xs)
    · obtain ⟨first, rest, hsplit⟩ := List.exists_cons_of_ne_nil (List.splitOnP_ne_nil p xs)
      rw [hsplit, List.modifyHead_cons] at h
      rw [hsplit] at ih
      rcases List.mem_cons.mp h with rfl | hmem
      · exact List.cons_subset_cons x (ih List.mem_cons_self)
      · exact List.Subset.trans (ih (List.mem_cons_of_mem _ hmem)) (List.subset_cons_self x xs)

/-- The elements of a piece come from the list. -/
theorem mem_of_mem_pieces {xs piece : List α} (h : piece ∈ pieces p xs) {x : α} (hx : x ∈ piece) :
    x ∈ xs :=
  subset_of_mem_splitOnP (List.mem_filter.mp h).1 hx

end LevOS.Foundation
