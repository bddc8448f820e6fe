import Mathlib.Order.Monotone.Basic
import Mathlib.Data.Nat.Find
import Mathlib.Data.List.Range

/-!
# Rows of checks

A row of checks is run in order up to the first one that is not passed. A check may
also fail to return, and then the row does not return either. Checking the places of a
group one by one comes to the same as checking the groups.

## Main results

* `allM_range_true_iff`, `allM_range_none_iff`, when a row passes and when it does not
  return
* `allM_range_group`, a row in which neighbours have one check in common
-/

namespace LevOS.Foundation

variable {check check' : Nat → Option Bool} {n : Nat}

theorem allM_map {α β : Type} {f : α → β} {test : β → Option Bool} (l : List α) :
    (l.map f).allM test = l.allM fun a => test (f a) := by
  induction l with
  | nil => rfl
  | cons a l ih => rw [List.map_cons, List.allM_cons, List.allM_cons, ih]

theorem allM_range_succ :
    (List.range (n + 1)).allM check = do
      if ← check 0 then (List.range n).allM fun i => check (i + 1)
      else return false := by
  rw [List.range_succ_eq_map, List.allM_cons, allM_map]

/-- A row passes if every check of it does. -/
theorem allM_range_true_iff :
    (List.range n).allM check = some true ↔ ∀ i < n, check i = some true := by
  induction n generalizing check with
  | zero => simp
  | succ n ih =>
    rw [allM_range_succ, Nat.forall_lt_succ_left]
    -- the rest of the row is run only behind a check that is passed
    cases hfirst : check 0 with
    | none => simp
    | some passed =>
      cases passed with
      | false => simp
      | true => simpa using ih

/-- A row does not return if a check of it does not, behind checks that are all
passed. -/
theorem allM_range_none_iff :
    (List.range n).allM check = none ↔
      ∃ i < n, check i = none ∧ ∀ j < i, check j = some true := by
  induction n generalizing check with
  | zero => simp
  | succ n ih =>
    rw [allM_range_succ, Nat.exists_lt_succ_left]
    cases hfirst : check 0 with
    | none => simp
    | some passed =>
      cases passed with
      | false =>
        suffices ¬ ∃ i < n, check (i + 1) = none ∧ ∀ j < i + 1, check j = some true by simpa [hfirst]
        rintro ⟨i, -, -, hbefore⟩
        have := hbefore 0 (Nat.succ_pos i)
        rw [hfirst] at this
        exact absurd this (by simp)
      | true =>
        have hrest (i : Nat) : (∀ j < i + 1, check j = some true) ↔
            ∀ j < i, check (j + 1) = some true := by
          rw [Nat.forall_lt_succ_left]
          exact and_iff_right hfirst
        simp only [hrest]
        simpa using ih

/-- What a row comes to is known from when it passes and when it does not return. -/
theorem optionBool_ext {a b : Option Bool} (htrue : a = some true ↔ b = some true)
    (hnone : a = none ↔ b = none) : a = b := by
  match a, b with
  | none, _ => exact (hnone.mp rfl).symm
  | some true, _ => exact (htrue.mp rfl).symm
  | some false, none => exact hnone.mpr rfl
  | some false, some true => exact htrue.mpr rfl
  | some false, some false => rfl

/-- Rows that agree as long as they pass come to the same. -/
theorem allM_range_congr
    (h : ∀ i < n, (∀ j < i, check j = some true) → check i = check' i) :
    (List.range n).allM check = (List.range n).allM check' := by
  induction n generalizing check check' with
  | zero => rfl
  | succ n ih =>
    have hfirst : check 0 = check' 0 :=
      h 0 (Nat.succ_pos n) fun j hj => absurd hj (Nat.not_lt_zero j)
    rw [allM_range_succ, allM_range_succ, ← hfirst]
    cases hpassed : check 0 with
    | none => rfl
    | some passed =>
      cases passed with
      | false => rfl
      | true =>
        refine ih fun i hi hbefore => h (i + 1) (Nat.succ_lt_succ hi) fun j hj => ?_
        cases j with
        | zero => exact hpassed
        | succ j => exact hbefore j (Nat.lt_of_succ_lt_succ hj)

/-- Places in a row whose checks are those of their groups: the groups follow one another,
none of the first `k` is empty, and there are no others. -/
theorem allM_range_group {group : Nat → Nat} {k : Nat} (hmono : Monotone group)
    (honto : ∀ g < k, ∃ i < n, group i = g) (hlt : ∀ i < n, group i < k) :
    (List.range n).allM (fun i => check (group i)) = (List.range k).allM check := by
  apply optionBool_ext
  · rw [allM_range_true_iff, allM_range_true_iff]
    constructor
    · intro hall g hg
      obtain ⟨i, hi, rfl⟩ := honto g hg
      exact hall i hi
    · intro hall i hi
      exact hall _ (hlt i hi)
  · rw [allM_range_none_iff, allM_range_none_iff]
    constructor
    · rintro ⟨i, hi, hnone, hbefore⟩
      refine ⟨group i, hlt i hi, hnone, fun g hg => ?_⟩
      obtain ⟨j, -, rfl⟩ := honto g (hg.trans (hlt i hi))
      exact hbefore j (hmono.reflect_lt hg)
    · rintro ⟨g, hg, hnone, hbefore⟩
      -- the first place of the group
      have hexists : ∃ i, i < n ∧ group i = g := honto g hg
      obtain ⟨hi, hgroup⟩ := Nat.find_spec hexists
      refine ⟨Nat.find hexists, hi, by rw [hgroup]; exact hnone, fun j hj => hbefore _ ?_⟩
      have hle : group j ≤ g := hgroup ▸ hmono hj.le
      refine lt_of_le_of_ne hle fun heq => ?_
      exact Nat.find_min hexists hj ⟨hj.trans hi, heq⟩

end LevOS.Foundation
