import LevOS.Foundation.Words

/-!
# Blocks of memory

Loops that fill, clear or copy a block of memory, from low addresses to high
ones. Each changes the bytes of its target block and no others; a copy finds its
source unchanged when the two blocks are apart, and repeats the start of its source
when the target begins inside of it.

## Main definitions

* `copyWords`, `clearWords`, `copyBytes`
* `copyOrigin`, where a byte of a copy comes from
* `Outside`, an address that is not in a block
* `Meets`, a page that has a byte of a range

## Main results

* `copyWords_outside`, `clearWords_outside`, `store32_outside`
* `copyWords_apply`, `copyWords_inside`, `clearWords_inside`
-/

namespace LevOS.Foundation

/-- The memory after words are copied one after the other. -/
def copyWords (m : Memory) (source target : UInt32) : Nat → Memory
  | 0 => m
  | n + 1 =>
    let m' := copyWords m source target n
    store32 m' (target + UInt32.ofNat (4 * n)) (load32 m' (source + UInt32.ofNat (4 * n)))

/-- The byte of the source that a copy leaves in a byte of its target, when the target
begins `shift` bytes above the source: the loop also reads words that it has written. -/
def copyOrigin (shift j : Nat) : Nat :=
  if shift ≤ j ∧ j - shift < 4 * (j / 4) then copyOrigin shift (j - shift) else j
termination_by j
decreasing_by omega

/-- The memory after words are cleared. -/
def clearWords (m : Memory) (target : UInt32) : Nat → Memory
  | 0 => m
  | n + 1 => store32 (clearWords m target n) (target + UInt32.ofNat (4 * n)) 0

/-- The memory after bytes are copied one after the other. -/
def copyBytes (m : Memory) (source target : UInt32) : Nat → Memory
  | 0 => m
  | n + 1 =>
    let m' := copyBytes m source target n
    Function.update m' (target + UInt32.ofNat n) (m' (source + UInt32.ofNat n))

/-- The address is not among the `n` bytes from `target` on. -/
def Outside (a target : UInt32) (n : Nat) : Prop :=
  a.toNat < target.toNat ∨ target.toNat + n ≤ a.toNat

/-- The page, of 4096 bytes, has a byte of the range of `length` bytes from `start` on. -/
def Meets (page start length : Nat) : Prop :=
  ∃ a, start ≤ a ∧ a < start + length ∧ a / 4096 = page

theorem meets_iff {page start length : Nat} :
    Meets page start length ↔
      0 < length ∧ page * 4096 < start + length ∧ start < (page + 1) * 4096 := by
  constructor
  · rintro ⟨a, hstart, hend, rfl⟩
    omega
  · rintro ⟨hpositive, hbelow, habove⟩
    -- the first byte of the page, or the first byte of the range
    exact ⟨max start (page * 4096), by omega, by omega, by omega⟩

variable {m : Memory} {a source target : UInt32} {n : Nat}

theorem Outside.mono {n' : Nat} (h : Outside a target n) (hle : n' ≤ n) : Outside a target n' := by
  unfold Outside at *
  omega

/-- Distances to an address outside of a block are large. -/
theorem Outside.le (h : Outside a target n) (hfit : target.toNat + n ≤ 2 ^ 32) :
    n ≤ (a - target).toNat := by
  have ha := a.toNat_lt
  have ht := target.toNat_lt
  rw [UInt32.toNat_sub]
  unfold Outside at h
  omega

theorem toNat_add_ofNat (hfit : target.toNat + n < 2 ^ 32) :
    (target + UInt32.ofNat n).toNat = target.toNat + n := by
  rw [UInt32.toNat_add, UInt32.toNat_ofNat']
  omega

theorem store32_outside {value : UInt32} (h : Outside a target 4)
    (hfit : target.toNat + 4 ≤ 2 ^ 32) : store32 m target value a = m a :=
  store32_of_le (h.le hfit)

/-- A store inside a block does not show outside of it. -/
private theorem store32_block {value : UInt32} (h : Outside a target (4 * (n + 1)))
    (hfit : target.toNat + 4 * (n + 1) ≤ 2 ^ 32) :
    store32 m (target + UInt32.ofNat (4 * n)) value a = m a := by
  have haddress : (target + UInt32.ofNat (4 * n)).toNat = target.toNat + 4 * n :=
    toNat_add_ofNat (by omega)
  apply store32_outside
  · unfold Outside at *
    omega
  · omega

/-- Bytes at a distance from the target block stay. -/
theorem copyWords_of_le (hsize : 4 * n ≤ 2 ^ 32) (h : 4 * n ≤ (a - target).toNat) :
    copyWords m source target n a = m a := by
  induction n with
  | zero => rfl
  | succ n ih =>
    rw [copyWords, store32_of_le, ih (by omega) (by omega)]
    have ha := a.toNat_lt
    have ht := target.toNat_lt
    rw [UInt32.toNat_sub] at h
    rw [UInt32.toNat_sub, UInt32.toNat_add, UInt32.toNat_ofNat']
    omega

theorem copyWords_outside (h : Outside a target (4 * n)) (hfit : target.toNat + 4 * n ≤ 2 ^ 32) :
    copyWords m source target n a = m a :=
  copyWords_of_le (by omega) (h.le hfit)

theorem clearWords_outside (h : Outside a target (4 * n)) (hfit : target.toNat + 4 * n ≤ 2 ^ 32) :
    clearWords m target n a = m a := by
  induction n with
  | zero => rfl
  | succ n ih =>
    rw [clearWords]
    exact (store32_block h hfit).trans (ih (h.mono (by omega)) (by omega))

/-- A word apart from the block that changed is still there. -/
theorem load32_of_outside {m' : Memory} {b : UInt32}
    (h : ∀ a, Outside a target n → m' a = m a)
    (hb : b.toNat + 4 ≤ target.toNat ∨ target.toNat + n ≤ b.toNat) (hfit : b.toNat + 4 ≤ 2 ^ 32) :
    load32 m' b = load32 m b := by
  apply load32_congr
  intro i hi
  have haddress : (b + UInt32.ofNat i).toNat = b.toNat + i := toNat_add_ofNat (by omega)
  apply h
  unfold Outside
  omega

theorem load32_store32_apart {b value : UInt32}
    (h : b.toNat + 4 ≤ target.toNat ∨ target.toNat + 4 ≤ b.toNat) (hb : b.toNat + 4 ≤ 2 ^ 32)
    (htarget : target.toNat + 4 ≤ 2 ^ 32) :
    load32 (store32 m target value) b = load32 m b :=
  load32_of_outside (fun _ ha => store32_outside ha htarget) h hb

theorem copyOrigin_of_lt {shift j : Nat} (h : j < shift) : copyOrigin shift j = j := by
  rw [copyOrigin, if_neg (by omega)]

theorem copyOrigin_zero (j : Nat) : copyOrigin 0 j = j := by
  rw [copyOrigin, if_neg (by omega)]

theorem copyOrigin_le (shift j : Nat) : copyOrigin shift j ≤ j := by
  fun_induction copyOrigin shift j with
  | case1 j h ih => omega
  | case2 j h => exact le_rfl

/-- A copy finds each byte at its origin. -/
theorem copyWords_apply (hsize : 4 * n ≤ 2 ^ 32) {j : Nat} (hj : j < 4 * n) :
    copyWords m source target n (target + UInt32.ofNat j) =
      m (source + UInt32.ofNat (copyOrigin (target - source).toNat j)) := by
  induction n generalizing j with
  | zero => exact absurd hj (Nat.not_lt_zero j)
  | succ n ih =>
    have hs := source.toNat_lt
    have ht := target.toNat_lt
    rw [copyWords]
    by_cases hword : j < 4 * n
    · rw [store32_of_le, ih (by omega) hword]
      rw [UInt32.toNat_sub, UInt32.toNat_add, UInt32.toNat_add, UInt32.toNat_ofNat',
        UInt32.toNat_ofNat']
      omega
    · -- the last word, as the loop finds it
      obtain ⟨b, rfl⟩ : ∃ b, j = 4 * n + b := ⟨j - 4 * n, by omega⟩
      have hdistance : (target + UInt32.ofNat (4 * n + b) -
          (target + UInt32.ofNat (4 * n))).toNat = b := by
        rw [UInt32.toNat_sub, UInt32.toNat_add, UInt32.toNat_add, UInt32.toNat_ofNat',
          UInt32.toNat_ofNat']
        omega
      rw [store32, hdistance, if_pos (by omega), wordByte_load32 _ _ (by omega), UInt32.add_assoc,
        ← UInt32.ofNat_add, copyOrigin]
      set shift := (target - source).toNat with hshift
      rw [UInt32.toNat_sub] at hshift
      split_ifs with hwritten
      · have hback : source + UInt32.ofNat (4 * n + b) =
            target + UInt32.ofNat (4 * n + b - shift) := by
          apply UInt32.toNat_inj.mp
          rw [UInt32.toNat_add, UInt32.toNat_add, UInt32.toNat_ofNat', UInt32.toNat_ofNat']
          omega
        rw [hback]
        exact ih (by omega) (by omega)
      · apply copyWords_of_le (by omega)
        rw [UInt32.toNat_sub, UInt32.toNat_add, UInt32.toNat_ofNat']
        omega

/-- A copy between blocks that are apart carries over every byte. -/
theorem copyWords_inside (hapart : source.toNat + 4 * n ≤ target.toNat ∨
    target.toNat + 4 * n ≤ source.toNat) (hsource : source.toNat + 4 * n ≤ 2 ^ 32)
    (htarget : target.toNat + 4 * n ≤ 2 ^ 32) {i : Nat} (hi : i < 4 * n) :
    copyWords m source target n (target + UInt32.ofNat i) = m (source + UInt32.ofNat i) := by
  have hs := source.toNat_lt
  have ht := target.toNat_lt
  have hshift : i < (target - source).toNat := by
    rw [UInt32.toNat_sub]
    omega
  rw [copyWords_apply (by omega) hi, copyOrigin_of_lt hshift]

theorem clearWords_inside (hfit : target.toNat + 4 * n ≤ 2 ^ 32) {i : Nat} (hi : i < 4 * n) :
    clearWords m target n (target + UInt32.ofNat i) = 0 := by
  induction n with
  | zero => exact absurd hi (Nat.not_lt_zero i)
  | succ n ih =>
    have hiaddress : (target + UInt32.ofNat i).toNat = target.toNat + i :=
      toNat_add_ofNat (by omega)
    have hlast : (target + UInt32.ofNat (4 * n)).toNat = target.toNat + 4 * n :=
      toNat_add_ofNat (by omega)
    rw [clearWords]
    by_cases hword : i < 4 * n
    · refine Eq.trans ?_ (ih (by omega) hword)
      apply store32_outside
      · unfold Outside
        omega
      · omega
    · have hdistance : (target + UInt32.ofNat i - (target + UInt32.ofNat (4 * n))).toNat < 4 := by
        rw [UInt32.toNat_sub, hiaddress, hlast]
        omega
      rw [store32, if_pos hdistance, wordByte, UInt32.toNat_zero, Nat.zero_div]
      rfl

theorem load32_clearWords (hfit : target.toNat + 4 * n ≤ 2 ^ 32) {i : Nat} (hi : i < n) :
    load32 (clearWords m target n) (target + UInt32.ofNat (4 * i)) = 0 := by
  have hzero : load32 (fun _ => 0) (target + UInt32.ofNat (4 * i)) = 0 := rfl
  rw [← hzero]
  apply load32_congr
  intro k hk
  rw [UInt32.add_assoc, ← UInt32.ofNat_add]
  exact clearWords_inside hfit (by omega)

theorem load32_copyWords (hapart : source.toNat + 4 * n ≤ target.toNat ∨
    target.toNat + 4 * n ≤ source.toNat) (hsource : source.toNat + 4 * n ≤ 2 ^ 32)
    (htarget : target.toNat + 4 * n ≤ 2 ^ 32) {i : Nat} (hi : i < n) :
    load32 (copyWords m source target n) (target + UInt32.ofNat (4 * i)) =
      load32 m (source + UInt32.ofNat (4 * i)) := by
  apply load32_eq_of_bytes
  intro k hk
  rw [UInt32.add_assoc, ← UInt32.ofNat_add, UInt32.add_assoc, ← UInt32.ofNat_add]
  exact copyWords_inside hapart hsource htarget (by omega)

end LevOS.Foundation
