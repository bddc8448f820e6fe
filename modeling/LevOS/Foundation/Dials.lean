import Mathlib.Data.List.GetD
import Mathlib.Logic.Function.Iterate
import Mathlib.Tactic.SplitIfs

/-!
# Dials

A row of dials counts like an odometer. Each count moves the first dial on; a dial in its
last position goes back to its first one and moves the next dial. The last position may
depend on the dials behind, as the last day does on the month.

## Main definitions

* `Dial`, `Stand`, the positions a row of dials can be in
* `advance`, one count, and `moved`, the number of dials it moves

## Main results

* `getD_advance_iff`, the dials that keep their position
* `iterate_advance`, the row after fewer counts than the first dial has positions
-/

namespace LevOS.Foundation

/-- A dial with at least two positions. The last one depends on the dials behind. -/
structure Dial where
  first : Nat
  last : List Nat → Nat
  first_lt_last : ∀ rest, first < last rest

/-- Move a row of dials on by one count. -/
def advance : List Dial → List Nat → List Nat
  | dial :: dials, p :: rest =>
    if p < dial.last rest then (p + 1) :: rest else dial.first :: advance dials rest
  | _ :: _, [] => []
  | [], positions => positions

/-- The number of dials that the next count moves. -/
def moved : List Dial → List Nat → Nat
  | dial :: dials, p :: rest => if p < dial.last rest then 1 else moved dials rest + 1
  | _ :: _, [] => 0
  | [], _ => 0

/-- Every dial is in one of its positions. -/
def Stand : List Dial → List Nat → Prop
  | [], [] => True
  | dial :: dials, p :: rest => dial.first ≤ p ∧ p ≤ dial.last rest ∧ Stand dials rest
  | _, _ => False

variable {dial : Dial} {dials : List Dial} {positions rest : List Nat} {p : Nat}

theorem stand_advance (h : Stand dials positions) : Stand dials (advance dials positions) := by
  fun_induction advance dials positions with
  | case1 dial dials p rest hroom => exact ⟨Nat.le_succ_of_le h.1, hroom, h.2.2⟩
  | case2 dial dials p rest hlast ih =>
    exact ⟨Nat.le_refl _, Nat.le_of_lt (dial.first_lt_last _), ih h.2.2⟩
  | case3 dial dials => exact h
  | case4 positions => exact h

/-- A count changes the positions of the dials it moves, and of no others. -/
theorem getD_advance_iff (h : Stand dials positions) (k : Nat) :
    (advance dials positions).getD k 0 = positions.getD k 0 ↔ moved dials positions ≤ k := by
  fun_induction advance dials positions generalizing k with
  | case1 dial dials p rest hroom =>
    rw [moved, if_pos hroom]
    cases k with
    | zero => exact iff_of_false (Nat.succ_ne_self p) (by decide)
    | succ k => exact iff_of_true rfl (Nat.succ_le_succ (Nat.zero_le k))
  | case2 dial dials p rest hlast ih =>
    rw [moved, if_neg hlast]
    cases k with
    | zero =>
      -- the first position is in front of the last one
      have hback : dial.first ≠ p := by
        have := dial.first_lt_last rest
        omega
      exact iff_of_false hback (Nat.not_succ_le_zero _)
    | succ k => exact (ih h.2.2 k).trans Nat.succ_le_succ_iff.symm
  | case3 dial dials => exact iff_of_true rfl (Nat.zero_le k)
  | case4 positions =>
    rw [moved]
    exact iff_of_true rfl (Nat.zero_le k)

theorem moved_le (dials : List Dial) (positions : List Nat) :
    moved dials positions ≤ dials.length := by
  fun_induction moved dials positions with
  | case1 dial dials p rest hroom => exact Nat.succ_le_succ (Nat.zero_le _)
  | case2 dial dials p rest hlast ih => exact Nat.succ_le_succ ih
  | case3 dial dials => exact Nat.zero_le _
  | case4 positions => exact Nat.zero_le _

theorem Stand.getD_le (h : Stand dials positions) {bound : Nat}
    (hbound : ∀ dial ∈ dials, ∀ rest, dial.last rest ≤ bound) (k : Nat) :
    positions.getD k 0 ≤ bound := by
  fun_induction Stand dials positions generalizing k with
  | case1 => exact Nat.zero_le _
  | case2 dial dials p rest ih =>
    cases k with
    | zero => exact Nat.le_trans h.2.1 (hbound dial List.mem_cons_self rest)
    | succ k => exact ih h.2.2 (fun d hd => hbound d (List.mem_cons_of_mem _ hd)) k
  | case3 => exact h.elim

/-- As long as the first dial has room, only it moves. -/
theorem iterate_advance_of_le {n : Nat} (hroom : p + n ≤ dial.last rest) :
    (advance (dial :: dials))^[n] (p :: rest) = (p + n) :: rest := by
  induction n with
  | zero => rfl
  | succ n ih =>
    have hnext : p + n < dial.last rest := hroom
    rw [Function.iterate_succ_apply', ih (Nat.le_of_lt hnext), advance, if_pos hnext]
    rfl

/-- Fewer counts than the first dial has positions carry at most once. -/
theorem iterate_advance (dial : Dial) {n size : Nat}
    (hsize : ∀ rest, dial.last rest + 1 = dial.first + size)
    (hp : p ≤ dial.last rest) (hn : n < size) :
    (advance (dial :: dials))^[n] (p :: rest) =
      if p + n ≤ dial.last rest then (p + n) :: rest
      else (p + n - size) :: advance dials rest := by
  split_ifs with hroom
  · exact iterate_advance_of_le hroom
  · obtain ⟨k, hk⟩ : ∃ k, n = k + (1 + (dial.last rest - p)) :=
      ⟨n - 1 - (dial.last rest - p), by omega⟩
    have hrest := hsize rest
    have hnext := hsize (advance dials rest)
    rw [hk, Function.iterate_add_apply, Function.iterate_add_apply,
      iterate_advance_of_le (by omega), Function.iterate_one, advance, if_neg (by omega),
      iterate_advance_of_le (by omega)]
    exact congrArg (· :: _) (by omega)

end LevOS.Foundation
