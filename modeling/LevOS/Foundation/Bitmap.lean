import Mathlib.Data.Finset.Card
import Mathlib.Data.Finset.Range
import Mathlib.Data.Nat.Bitwise
import Mathlib.Logic.Function.Basic

/-!
# Bitmaps

A bitmap stores one bit for each index, eight to a byte. Setting and clearing a
bit are one `or` and one `and` on its byte; seen through membership they are
insertion and removal of the index.

## Main definitions

* `bitMask`, `getBit`, `setBit`, `clearBit`
* `clearBits`, the indices below a bound whose bit is clear

## Main results

* `getBit_setBit`, `getBit_clearBit`, `ext_getBit`
* `clearBits_setBit`, `clearBits_clearBit`
-/

namespace LevOS.Foundation

/-- The byte whose only bit is the one of an index. -/
def bitMask (index : Nat) : UInt8 := 1 <<< UInt8.ofNat (index % 8)

theorem bitMask_mod (index : Nat) : bitMask index = bitMask (index % 8) := by
  rw [bitMask, bitMask, Nat.mod_mod]

/-- The bit of an index. -/
def getBit (bits : Nat → UInt8) (index : Nat) : Bool := bits (index / 8) &&& bitMask index != 0

/-- Set the bit of an index. -/
def setBit (bits : Nat → UInt8) (index : Nat) : Nat → UInt8 :=
  Function.update bits (index / 8) (bits (index / 8) ||| bitMask index)

/-- Clear the bit of an index. -/
def clearBit (bits : Nat → UInt8) (index : Nat) : Nat → UInt8 :=
  Function.update bits (index / 8) (bits (index / 8) &&& ~~~bitMask index)

/-! ## One byte -/

private theorem bitMask_toNat (index : Nat) : (bitMask index).toNat = 2 ^ (index % 8) := by
  have hall : ∀ k < 8, ((1 : UInt8) <<< UInt8.ofNat k).toNat = 2 ^ k := by decide
  exact hall (index % 8) (Nat.mod_lt _ (by decide))

/-- The test of the source is a test of one binary digit. -/
private theorem and_bitMask (b : UInt8) (index : Nat) :
    (b &&& bitMask index != 0) = b.toNat.testBit (index % 8) := by
  rw [Bool.eq_iff_iff, bne_iff_ne, ne_eq, ← UInt8.toNat_inj, UInt8.toNat_and, bitMask_toNat,
    Nat.and_two_pow]
  cases b.toNat.testBit (index % 8) <;> simp

private theorem or_bitMask_testBit (b : UInt8) (index k : Nat) :
    (b ||| bitMask index).toNat.testBit k = (b.toNat.testBit k || decide (index % 8 = k)) := by
  rw [UInt8.toNat_or, bitMask_toNat, Nat.testBit_or, Nat.testBit_two_pow]

private theorem and_not_bitMask_testBit (b : UInt8) {index k : Nat} (hk : k < 8) :
    (b &&& ~~~bitMask index).toNat.testBit k = (b.toNat.testBit k && !decide (index % 8 = k)) := by
  have hnot : (~~~bitMask index).toNat = 2 ^ 8 - (2 ^ (index % 8) + 1) := by
    rw [UInt8.toNat_not, bitMask_toNat, show UInt8.size = 2 ^ 8 from rfl]
    omega
  have hmask : 2 ^ (index % 8) < 2 ^ 8 :=
    Nat.pow_lt_pow_right (by decide) (Nat.mod_lt _ (by decide))
  rw [UInt8.toNat_and, hnot, Nat.testBit_and, Nat.testBit_two_pow_sub_succ hmask,
    Nat.testBit_two_pow]
  simp [hk]

/-! ## The whole bitmap -/

private theorem index_eq_iff {i j : Nat} : i / 8 = j / 8 ∧ i % 8 = j % 8 ↔ i = j := by
  constructor
  · rintro ⟨hdiv, hmod⟩
    omega
  · rintro rfl
    exact ⟨rfl, rfl⟩

/-- Setting a bit adds its index. -/
theorem getBit_setBit (bits : Nat → UInt8) (i j : Nat) :
    getBit (setBit bits i) j = (getBit bits j || decide (i = j)) := by
  simp only [getBit, setBit, and_bitMask]
  by_cases hbyte : j / 8 = i / 8
  · rw [hbyte, Function.update_self, or_bitMask_testBit]
    simp only [← index_eq_iff (i := i), hbyte, true_and]
  · have hne : i ≠ j := by
      rintro rfl
      exact hbyte rfl
    rw [Function.update_of_ne hbyte, decide_eq_false hne, Bool.or_false]

/-- Clearing a bit removes its index. -/
theorem getBit_clearBit (bits : Nat → UInt8) (i j : Nat) :
    getBit (clearBit bits i) j = (getBit bits j && !decide (i = j)) := by
  simp only [getBit, clearBit, and_bitMask]
  by_cases hbyte : j / 8 = i / 8
  · rw [hbyte, Function.update_self, and_not_bitMask_testBit _ (Nat.mod_lt _ (by decide))]
    simp only [← index_eq_iff (i := i), hbyte, true_and]
  · have hne : i ≠ j := by
      rintro rfl
      exact hbyte rfl
    rw [Function.update_of_ne hbyte, decide_eq_false hne, Bool.not_false, Bool.and_true]

/-- A bitmap is determined by its bits. -/
theorem ext_getBit {bits bits' : Nat → UInt8} (h : ∀ i, getBit bits i = getBit bits' i) :
    bits = bits' := by
  funext byte
  apply UInt8.toNat_inj.mp
  apply Nat.eq_of_testBit_eq
  intro k
  by_cases hk : k < 8
  · have hbit := h (8 * byte + k)
    simp only [getBit, and_bitMask] at hbit
    rwa [show (8 * byte + k) / 8 = byte by omega, show (8 * byte + k) % 8 = k by omega] at hbit
  · have hpow : 2 ^ 8 ≤ 2 ^ k := Nat.pow_le_pow_right (by decide) (Nat.not_lt.mp hk)
    rw [Nat.testBit_lt_two_pow ((bits byte).toNat_lt.trans_le hpow),
      Nat.testBit_lt_two_pow ((bits' byte).toNat_lt.trans_le hpow)]

/-- The indices below a bound whose bit is clear. -/
def clearBits (bits : Nat → UInt8) (bound : Nat) : Finset Nat :=
  (Finset.range bound).filter fun i => getBit bits i = false

theorem mem_clearBits {bits : Nat → UInt8} {bound i : Nat} :
    i ∈ clearBits bits bound ↔ i < bound ∧ getBit bits i = false := by
  simp [clearBits]

theorem clearBits_setBit (bits : Nat → UInt8) (bound i : Nat) :
    clearBits (setBit bits i) bound = (clearBits bits bound).erase i := by
  ext j
  rw [Finset.mem_erase, mem_clearBits, mem_clearBits, getBit_setBit]
  simp [eq_comm (a := i)]
  tauto

theorem clearBits_clearBit (bits : Nat → UInt8) {bound i : Nat} (hi : i < bound) :
    clearBits (clearBit bits i) bound = insert i (clearBits bits bound) := by
  ext j
  rw [Finset.mem_insert, mem_clearBits, mem_clearBits, getBit_clearBit]
  by_cases hj : i = j
  · subst hj
    simp [hi]
  · simp [hj, Ne.symm hj]

theorem card_clearBits_le (bits : Nat → UInt8) (bound : Nat) :
    (clearBits bits bound).card ≤ bound :=
  (Finset.card_filter_le _ _).trans_eq (Finset.card_range bound)

end LevOS.Foundation
