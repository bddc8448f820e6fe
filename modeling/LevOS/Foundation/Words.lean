import Mathlib.Logic.Function.Basic
import Mathlib.Data.List.GetD
import Mathlib.Tactic.IntervalCases

/-!
# Words in byte memory

A 32-bit machine addresses bytes and stores words with the low byte first.
Addresses wrap around at the end of the address space, so distances between
addresses are taken in the same arithmetic. A stack grows downwards; pushing
words changes the bytes just below the stack pointer and no others.

## Main definitions

* `Memory`, `load32`, `load64`, `store32`
* `pushWords`, words pushed below an address

## Main results

* `load32_store32_self`, `load32_store32_of_apart`
* `load32_pushWords`, `pushWords_of_le`
-/

namespace LevOS.Foundation

/-- The bytes of a 32-bit address space. -/
abbrev Memory := UInt32 → UInt8

/-- The word at an address. -/
def load32 (m : Memory) (address : UInt32) : UInt32 :=
  UInt32.ofNat ((m address).toNat + 256 * (m (address + 1)).toNat +
    65536 * (m (address + 2)).toNat + 16777216 * (m (address + 3)).toNat)

/-- The double word at an address. -/
def load64 (m : Memory) (address : UInt32) : UInt64 :=
  UInt64.ofNat ((load32 m address).toNat + 4294967296 * (load32 m (address + 4)).toNat)

/-- A byte of a word, counted from the low end. -/
def wordByte (value : UInt32) (k : Nat) : UInt8 := UInt8.ofNat (value.toNat / 256 ^ k)

/-- Store a word: its four bytes go to the address and the three after it. -/
def store32 (m : Memory) (address value : UInt32) : Memory := fun a =>
  if (a - address).toNat < 4 then wordByte value (a - address).toNat else m a

variable {m m' : Memory} {a b : UInt32}

/-! ## Loads and stores -/

/-- A word is made of its four bytes, wherever it lies. -/
theorem load32_eq_of_bytes (h : ∀ k < 4, m (a + UInt32.ofNat k) = m' (b + UInt32.ofNat k)) :
    load32 m a = load32 m' b := by
  have h0 := h 0 (by decide)
  have h1 := h 1 (by decide)
  have h2 := h 2 (by decide)
  have h3 := h 3 (by decide)
  have hzero (x : UInt32) : x + UInt32.ofNat 0 = x := UInt32.add_zero x
  rw [hzero, hzero] at h0
  unfold load32
  rw [h0, show m (a + 1) = m' (b + 1) from h1, show m (a + 2) = m' (b + 2) from h2,
    show m (a + 3) = m' (b + 3) from h3]

theorem load32_congr (h : ∀ k < 4, m (a + UInt32.ofNat k) = m' (a + UInt32.ofNat k)) :
    load32 m a = load32 m' a :=
  load32_eq_of_bytes h

/-- The distance from an address to one a few bytes after another. -/
theorem toNat_add_ofNat_sub (a b : UInt32) (k : Nat) :
    (b + UInt32.ofNat k - a).toNat = ((b - a).toNat + k) % 2 ^ 32 := by
  rw [UInt32.toNat_sub, UInt32.toNat_add, UInt32.toNat_ofNat', UInt32.toNat_sub]
  omega

theorem store32_of_le {value : UInt32} (h : 4 ≤ (b - a).toNat) : store32 m a value b = m b :=
  if_neg (Nat.not_lt.mpr h)

theorem load32_store32_self (m : Memory) (a value : UInt32) :
    load32 (store32 m a value) a = value := by
  have hbyte (k : Nat) (hk : k < 4) :
      (store32 m a value (a + UInt32.ofNat k)).toNat = value.toNat / 256 ^ k % 256 := by
    have hdistance : (a + UInt32.ofNat k - a).toNat = k := by
      rw [toNat_add_ofNat_sub, UInt32.sub_self, UInt32.toNat_zero, Nat.zero_add,
        Nat.mod_eq_of_lt (by omega)]
    rw [store32, hdistance, if_pos hk, wordByte, UInt8.toNat_ofNat']
  have h0 := hbyte 0 (by decide)
  rw [show a + UInt32.ofNat 0 = a from UInt32.add_zero a] at h0
  have h1 : (store32 m a value (a + 1)).toNat = _ := hbyte 1 (by decide)
  have h2 : (store32 m a value (a + 2)).toNat = _ := hbyte 2 (by decide)
  have h3 : (store32 m a value (a + 3)).toNat = _ := hbyte 3 (by decide)
  have hvalue := value.toNat_lt
  apply UInt32.toNat_inj.mp
  rw [load32, h0, h1, h2, h3, UInt32.toNat_ofNat']
  omega

/-- A word whose bytes are in memory is there. -/
theorem load32_of_wordByte {value : UInt32}
    (h : ∀ k < 4, m (a + UInt32.ofNat k) = wordByte value k) : load32 m a = value := by
  rw [← load32_store32_self m a value]
  apply load32_congr
  intro k hk
  have hdistance : (a + UInt32.ofNat k - a).toNat = k := by
    rw [toNat_add_ofNat_sub, UInt32.sub_self, UInt32.toNat_zero, Nat.zero_add,
      Nat.mod_eq_of_lt (by omega)]
  rw [h k hk, store32, hdistance, if_pos hk]

/-- A store four bytes away in both directions does not show. -/
theorem load32_store32_of_apart {value : UInt32} (h : 4 ≤ (b - a).toNat) (h' : 4 ≤ (a - b).toNat) :
    load32 (store32 m a value) b = load32 m b := by
  apply load32_congr
  intro k hk
  apply store32_of_le
  have ha := a.toNat_lt
  have hb := b.toNat_lt
  rw [toNat_add_ofNat_sub]
  rw [UInt32.toNat_sub] at h h' ⊢
  omega

theorem load32_toNat (m : Memory) (a : UInt32) :
    (load32 m a).toNat = (m a).toNat + 256 * (m (a + 1)).toNat + 65536 * (m (a + 2)).toNat +
      16777216 * (m (a + 3)).toNat := by
  have h0 := (m a).toNat_lt
  have h1 := (m (a + 1)).toNat_lt
  have h2 := (m (a + 2)).toNat_lt
  have h3 := (m (a + 3)).toNat_lt
  rw [load32, UInt32.toNat_ofNat', Nat.mod_eq_of_lt (by omega)]

/-- The bytes of a word in memory are the bytes it was loaded from. -/
theorem wordByte_load32 (m : Memory) (a : UInt32) {k : Nat} (hk : k < 4) :
    wordByte (load32 m a) k = m (a + UInt32.ofNat k) := by
  have h0 := (m a).toNat_lt
  have h1 := (m (a + 1)).toNat_lt
  have h2 := (m (a + 2)).toNat_lt
  have hzero : a + UInt32.ofNat 0 = a := UInt32.add_zero a
  apply UInt8.toNat_inj.mp
  rw [wordByte, UInt8.toNat_ofNat', load32_toNat]
  interval_cases k
  · rw [hzero]
    omega
  · change _ = (m (a + 1)).toNat
    omega
  · change _ = (m (a + 2)).toNat
    omega
  · change _ = (m (a + 3)).toNat
    have h3 := (m (a + 3)).toNat_lt
    omega

/-- Storing the word that is there changes nothing. -/
theorem store32_load32 (m : Memory) (a : UInt32) : store32 m a (load32 m a) = m := by
  funext b
  by_cases h : (b - a).toNat < 4
  · rw [store32, if_pos h, wordByte_load32 m a h, UInt32.ofNat_toNat]
    congr 1
    grind
  · exact store32_of_le (Nat.not_lt.mp h)

/-! ## The stack -/

/-- The memory after words are pushed below an address, the first one highest. -/
def pushWords (m : Memory) (top : UInt32) : List UInt32 → Memory
  | [] => m
  | word :: words => pushWords (store32 m (top - 4) word) (top - 4) words

theorem bottom_cons (top : UInt32) (n : Nat) :
    top - UInt32.ofNat (4 * (n + 1)) = top - 4 - UInt32.ofNat (4 * n) := by
  rw [Nat.mul_succ, UInt32.ofNat_add]
  grind

/-- Bytes outside the pushed words stay. -/
theorem pushWords_of_le {m : Memory} {top : UInt32} {words : List UInt32} {a : UInt32}
    (hlength : 4 * words.length < 2 ^ 32)
    (h : 4 * words.length ≤ (a - (top - UInt32.ofNat (4 * words.length))).toNat) :
    pushWords m top words a = m a := by
  induction words generalizing m top with
  | nil => rfl
  | cons word words ih =>
    rw [List.length_cons] at h hlength
    rw [bottom_cons] at h
    rw [pushWords, ih (by omega) (by omega), store32_of_le]
    have ha := a.toNat_lt
    have htop := (top - 4).toNat_lt
    rw [UInt32.toNat_sub, UInt32.toNat_sub, UInt32.toNat_ofNat'] at h
    rw [UInt32.toNat_sub]
    omega

/-- A pushed word is found at its place. -/
theorem load32_pushWords {m : Memory} {top : UInt32} {words : List UInt32}
    (hlength : 4 * words.length < 2 ^ 32) {k : Nat} (hk : k < words.length) :
    load32 (pushWords m top words) (top - UInt32.ofNat (4 * (k + 1))) = words.getD k 0 := by
  induction words generalizing m top k with
  | nil => exact absurd hk (Nat.not_lt_zero k)
  | cons word words ih =>
    rw [List.length_cons] at hk hlength
    cases k with
    | zero =>
      -- the words pushed later lie below the first one
      have hlater : load32 (pushWords (store32 m (top - 4) word) (top - 4) words) (top - 4) =
          load32 (store32 m (top - 4) word) (top - 4) := by
        apply load32_congr
        intro j hj
        apply pushWords_of_le (by omega)
        have htop := (top - 4).toNat_lt
        rw [toNat_add_ofNat_sub, UInt32.toNat_sub, UInt32.toNat_sub, UInt32.toNat_ofNat']
        omega
      rw [pushWords, List.getD_cons_zero]
      exact hlater.trans (load32_store32_self m (top - 4) word)
    | succ k =>
      rw [pushWords, List.getD_cons_succ, bottom_cons]
      exact ih (by omega) (by omega)

theorem pushWords_append (m : Memory) (top : UInt32) (first second : List UInt32) :
    pushWords m top (first ++ second) =
      pushWords (pushWords m top first) (top - UInt32.ofNat (4 * first.length)) second := by
  induction first generalizing m top with
  | nil => exact congrArg (pushWords m · second) (UInt32.sub_zero top).symm
  | cons word words ih =>
    rw [List.cons_append, pushWords, ih, List.length_cons, bottom_cons, pushWords]

/-- Seen from the bottom, pushed words are found in reverse order. -/
theorem load32_pushWords_bottom {m : Memory} {top : UInt32} {words : List UInt32}
    (hlength : 4 * words.length < 2 ^ 32) {k : Nat} (hk : k < words.length) :
    load32 (pushWords m top words)
        (top - UInt32.ofNat (4 * words.length) + UInt32.ofNat (4 * k)) =
      words.reverse.getD k 0 := by
  have haddress : top - UInt32.ofNat (4 * words.length) + UInt32.ofNat (4 * k) =
      top - UInt32.ofNat (4 * (words.length - 1 - k + 1)) := by
    rw [show 4 * words.length = 4 * (words.length - 1 - k + 1) + 4 * k by omega, UInt32.ofNat_add]
    grind
  rw [haddress, load32_pushWords hlength (by omega)]
  rw [List.getD_eq_getElem _ _ (by omega), List.getD_eq_getElem _ _ (by simpa using hk),
    List.getElem_reverse]

end LevOS.Foundation
