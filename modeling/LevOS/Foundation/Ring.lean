import Mathlib.Data.List.Induction
import Mathlib.Data.Nat.ModEq
import Mathlib.Logic.Function.Basic

/-!
# Ring buffers and bounded queues

A ring buffer keeps a queue in an array with two wrapping indices: elements enter
at the head and leave at the tail. Equal indices mean an empty queue, so one cell
always stays unused. The queue it stands for is bounded and first-in first-out;
an element leaves in two moves, first looked at and later removed.

## Main definitions

* `Holds`, the queue that an array and two indices stand for
* `Fifo`, a bounded queue, and `Fifo.Step`, its moves with what they do

## Main results

* `Holds.put`, `Holds.pop`, `Holds.front`, `Holds.empty_iff`, `Holds.full_iff`
* `Fifo.Run.conserves`, what entered is what left followed by what is still there
-/

namespace LevOS.Foundation

variable {α : Type*}

/-! ## The array -/

/-- An array of `size` cells whose elements from `tail` up to `head`, wrapping at
the end, are `queue`. -/
structure Holds (size : Nat) (cells : Nat → α) (head tail : Nat) (queue : List α) : Prop where
  tail_lt : tail < size
  length_lt : queue.length < size
  head_eq : head = (tail + queue.length) % size
  cell : ∀ (i : Nat) (hi : i < queue.length), cells ((tail + i) % size) = queue[i]

namespace Holds

variable {size head tail : Nat} {cells : Nat → α} {queue : List α}

theorem nil (htail : tail < size) : Holds size cells tail tail [] :=
  ⟨htail, Nat.zero_lt_of_lt htail, (Nat.mod_eq_of_lt htail).symm,
    fun i hi => absurd hi (Nat.not_lt_zero i)⟩

/-- Two offsets below the size lead to one cell only if they are equal. -/
theorem offset_inj (tail : Nat) {i j : Nat} (hi : i < size) (hj : j < size)
    (h : (tail + i) % size = (tail + j) % size) : i = j := by
  have hmod : Nat.ModEq size i j := Nat.ModEq.add_left_cancel' tail h
  exact Nat.ModEq.eq_of_lt_of_lt hmod hi hj

variable (h : Holds size cells head tail queue)

include h

theorem empty_iff : head = tail ↔ queue = [] := by
  rw [h.head_eq, ← List.length_eq_zero_iff]
  constructor
  · intro hwrap
    refine offset_inj tail h.length_lt (Nat.zero_lt_of_lt h.tail_lt) ?_
    rw [hwrap, Nat.add_zero, Nat.mod_eq_of_lt h.tail_lt]
  · intro hzero
    rw [hzero, Nat.add_zero, Nat.mod_eq_of_lt h.tail_lt]

theorem full_iff : (head + 1) % size = tail ↔ queue.length + 1 = size := by
  have hhead : (head + 1) % size = (tail + (queue.length + 1)) % size := by
    rw [h.head_eq, Nat.mod_add_mod, Nat.add_assoc]
  rw [hhead]
  constructor
  · intro hwrap
    -- one more element would come round to the tail
    by_contra hroom
    have hlt : queue.length + 1 < size := Nat.lt_of_le_of_ne h.length_lt hroom
    refine absurd (offset_inj tail hlt (Nat.zero_lt_of_lt h.tail_lt) ?_) (by simp)
    rw [hwrap, Nat.add_zero, Nat.mod_eq_of_lt h.tail_lt]
  · intro hfull
    rw [hfull, Nat.add_mod_right, Nat.mod_eq_of_lt h.tail_lt]

theorem put (hroom : queue.length + 1 < size) (a : α) :
    Holds size (Function.update cells head a) ((head + 1) % size) tail (queue ++ [a]) := by
  refine ⟨h.tail_lt, by simpa using hroom, ?_, ?_⟩
  · rw [h.head_eq, Nat.mod_add_mod, List.length_append, List.length_singleton, Nat.add_assoc]
  · intro i hi
    rw [List.length_append, List.length_singleton] at hi
    -- the new element goes to a cell that holds none of the others
    rcases Nat.lt_succ_iff_lt_or_eq.mp hi with hold | rfl
    · have hne : (tail + i) % size ≠ head := by
        intro hwrap
        exact absurd (offset_inj tail (by omega) h.length_lt (hwrap.trans h.head_eq)) (by omega)
      rw [Function.update_of_ne hne, List.getElem_append_left hold]
      exact h.cell i hold
    · rw [← h.head_eq, Function.update_self]
      simp

end Holds

theorem Holds.front {size head tail : Nat} {cells : Nat → α} {a : α} {queue : List α}
    (h : Holds size cells head tail (a :: queue)) : cells tail = a := by
  have hfirst := h.cell 0 (Nat.succ_pos _)
  rwa [Nat.add_zero, Nat.mod_eq_of_lt h.tail_lt] at hfirst

theorem Holds.pop {size head tail : Nat} {cells : Nat → α} {a : α} {queue : List α}
    (h : Holds size cells head tail (a :: queue)) :
    Holds size cells head ((tail + 1) % size) queue := by
  have hlength := h.length_lt
  rw [List.length_cons] at hlength
  refine ⟨Nat.mod_lt _ (by omega), by omega, ?_, ?_⟩
  · rw [h.head_eq, Nat.mod_add_mod, List.length_cons, Nat.add_right_comm, Nat.add_assoc]
  · intro i hi
    have hnext := h.cell (i + 1) (Nat.succ_lt_succ hi)
    rw [Nat.mod_add_mod, Nat.add_right_comm, Nat.add_assoc]
    simpa using hnext

/-! ## The queue -/

/-- A move of a bounded queue, seen from outside. -/
inductive Move (α : Type*)
  | accepted (a : α)
  | dropped (a : α)
  | idle
  | empty
  | looked
  | returned (a : α)
  deriving DecidableEq

/-- A bounded queue. Its first element may have been looked at by a reader that has
not removed it yet. -/
structure Fifo (α : Type*) where
  queue : List α
  looking : Bool

namespace Fifo

/-- The moves of a queue with room for `capacity` elements. An element looked at
keeps its room until it is removed. -/
inductive Step (capacity : Nat) : Fifo α → Move α → Fifo α → Prop
  | accepted {queue looking} (a : α) (hroom : queue.length < capacity) :
      Step capacity ⟨queue, looking⟩ (.accepted a) ⟨queue ++ [a], looking⟩
  | dropped {queue looking} (a : α) (hfull : queue.length = capacity) :
      Step capacity ⟨queue, looking⟩ (.dropped a) ⟨queue, looking⟩
  | idle {f} : Step capacity f .idle f
  | empty : Step capacity ⟨[], false⟩ .empty ⟨[], false⟩
  | looked {a queue} : Step capacity ⟨a :: queue, false⟩ .looked ⟨a :: queue, true⟩
  | returned {a queue} : Step capacity ⟨a :: queue, true⟩ (.returned a) ⟨queue, false⟩

/-- A sequence of moves. -/
inductive Run (capacity : Nat) : Fifo α → List (Move α) → Fifo α → Prop
  | nil {f} : Run capacity f [] f
  | snoc {f g h moves move} : Run capacity f moves g → Step capacity g move h →
      Run capacity f (moves ++ [move]) h

/-- The elements a sequence of moves took in. -/
def accepts (moves : List (Move α)) : List α :=
  moves.filterMap fun | .accepted a => some a | _ => none

/-- The elements a sequence of moves gave back. -/
def returns (moves : List (Move α)) : List α :=
  moves.filterMap fun | .returned a => some a | _ => none

variable {capacity : Nat}

/-- One move keeps the elements in order and in number. -/
theorem Step.conserves {f g : Fifo α} {move : Move α} (h : Step capacity f move g) :
    f.queue ++ accepts [move] = returns [move] ++ g.queue := by
  cases h <;> simp [accepts, returns]

/-- Nothing is lost, duplicated or reordered: what was accepted is what was returned
followed by what is still in the queue. -/
theorem Run.conserves {f : Fifo α} {moves : List (Move α)} (h : Run capacity ⟨[], false⟩ moves f) :
    accepts moves = returns moves ++ f.queue := by
  generalize hstart : (⟨[], false⟩ : Fifo α) = start at h
  induction h with
  | nil => rw [← hstart]; rfl
  | snoc hrun hstep ih =>
    have happend : ∀ xs ys : List (Move α), accepts (xs ++ ys) = accepts xs ++ accepts ys ∧
        returns (xs ++ ys) = returns xs ++ returns ys := fun xs ys =>
      ⟨List.filterMap_append, List.filterMap_append⟩
    rw [(happend _ _).1, (happend _ _).2, ih, List.append_assoc, hstep.conserves,
      List.append_assoc]

/-- The run up to any of its moves. -/
theorem Run.split {f g : Fifo α} {before after : List (Move α)} {move : Move α}
    (h : Run capacity f (before ++ move :: after) g) :
    ∃ g₁ g₂, Run capacity f before g₁ ∧ Step capacity g₁ move g₂ := by
  generalize hmoves : before ++ move :: after = moves at h
  induction h generalizing after with
  | nil => exact absurd hmoves (by simp)
  | snoc hrun hstep ih =>
    -- the move is the last one, or the last one comes later
    rcases List.eq_nil_or_concat after with rfl | ⟨middle, last, rfl⟩
    · obtain ⟨rfl, hlast⟩ := List.append_inj' hmoves rfl
      obtain rfl := List.singleton_inj.mp hlast
      exact ⟨_, _, hrun, hstep⟩
    · rw [List.concat_eq_append, ← List.cons_append, ← List.append_assoc] at hmoves
      exact ih (List.append_inj' hmoves rfl).1

end Fifo

end LevOS.Foundation
