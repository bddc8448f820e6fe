import Mathlib.Data.List.GetD
import Mathlib.Tactic.Linarith

/-!
# Writing a list into a buffer

A buffer is a function of its index. Overlaying a list at an offset replaces
the bytes it covers and keeps all others. Overlays at adjacent offsets compose
to the overlay of the concatenation, which is what a copy loop needs.

## Main definitions

* `overlay`

## Main results

* `overlay_append`, `overlay_of_le`, `map_overlay_range`
-/

namespace LevOS.Foundation

variable {α : Type*}

/-- The buffer with a list written from an offset on. -/
def overlay (buffer : Nat → α) (offset : Nat) (data : List α) : Nat → α := fun j =>
  if offset ≤ j then data.getD (j - offset) (buffer j) else buffer j

@[simp]
theorem overlay_nil (buffer : Nat → α) (offset : Nat) : overlay buffer offset [] = buffer := by
  funext j
  simp [overlay]

/-- Outside the written range the buffer is unchanged. -/
theorem overlay_of_le (buffer : Nat → α) (offset : Nat) (data : List α) {j : Nat}
    (h : offset + data.length ≤ j) : overlay buffer offset data j = buffer j := by
  unfold overlay
  rw [if_pos (by omega), List.getD_eq_default _ _ (by omega)]

/-- Writing two lists one after the other writes their concatenation. -/
theorem overlay_append (buffer : Nat → α) (offset : Nat) (first second : List α) :
    overlay (overlay buffer offset first) (offset + first.length) second =
      overlay buffer offset (first ++ second) := by
  funext j
  unfold overlay
  by_cases hlow : offset ≤ j
  · by_cases hfirst : j - offset < first.length
    · rw [if_neg (by omega), if_pos hlow, if_pos hlow, List.getD_append _ _ _ _ hfirst]
    · rw [if_pos (by omega), if_pos hlow, if_pos hlow,
        List.getD_append_right _ _ _ _ (by omega), List.getD_eq_default first _ (by omega),
        show j - (offset + first.length) = j - offset - first.length by omega]
  · rw [if_neg (by omega), if_neg hlow, if_neg hlow]

/-- Writing one element is a function update. -/
theorem overlay_singleton (buffer : Nat → α) (offset : Nat) (a : α) :
    overlay buffer offset [a] = Function.update buffer offset a := by
  funext j
  unfold overlay
  rcases Nat.lt_trichotomy j offset with h | h | h
  · rw [if_neg (by omega), Function.update_of_ne (by omega)]
  · subst h
    simp
  · rw [if_pos (by omega), List.getD_eq_default _ _ (by simp; omega),
      Function.update_of_ne (by omega)]

/-- Read back what was written at the start of a buffer. -/
theorem map_overlay_range (buffer : Nat → α) (data : List α) :
    (List.range data.length).map (overlay buffer 0 data) = data := by
  apply List.ext_getElem
  · simp
  · intro i hi hi'
    simp [overlay, hi']

end LevOS.Foundation
