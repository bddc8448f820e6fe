import LevOS.Foundation.Blocks

/-!
# Records in byte memory

A record of fixed size occupies consecutive bytes, and a table is a row of such
records. What is stored is loaded again, and a record does not show outside of
its bytes.

## Main definitions

* `half`, `halfBytes`: two bytes of a half word, the low one first
* `RecordFormat`, how a record is made of bytes
* `RecordFormat.load`, `RecordFormat.store`, `RecordFormat.storeTable`

## Main results

* `RecordFormat.load_store_self`
* `RecordFormat.load_storeTable`, `RecordFormat.storeTable_outside`
-/

namespace LevOS.Foundation

/-! ## Half words -/

/-- A half word of two bytes. -/
def half (low high : UInt8) : UInt16 := low.toUInt16 ||| high.toUInt16 <<< 8

/-- The bytes of a half word. -/
def halfBytes (value : UInt16) : List UInt8 := [value.toUInt8, (value >>> 8).toUInt8]

theorem half_eq (value : UInt16) : half value.toUInt8 (value >>> 8).toUInt8 = value := by
  have hvalue := value.toNat_lt
  have hhigh : (value >>> 8).toUInt8.toUInt16.toNat = value.toNat / 256 := by
    rw [UInt8.toNat_toUInt16, UInt16.toNat_toUInt8, UInt16.toNat_shiftRight,
      show (8 : UInt16).toNat % 16 = 8 from rfl, Nat.shiftRight_eq_div_pow]
    omega
  apply UInt16.toNat_inj.mp
  rw [half, UInt16.toNat_or, UInt16.toNat_shiftLeft, hhigh, UInt8.toNat_toUInt16,
    UInt16.toNat_toUInt8, show (8 : UInt16).toNat % 16 = 8 from rfl, Nat.shiftLeft_eq,
    Nat.mod_eq_of_lt (show value.toNat / 256 * 2 ^ 8 < 2 ^ 16 by omega), ← Nat.shiftLeft_eq,
    Nat.or_comm, ← Nat.shiftLeft_add_eq_or_of_lt (show value.toNat % 2 ^ 8 < 2 ^ 8 by omega),
    Nat.shiftLeft_eq]
  omega

/-- Parts of a word that do not overlap add up. -/
theorem toNat_or_shiftLeft {x y k : UInt32} (hk : k.toNat < 32) (hx : x.toNat < 2 ^ k.toNat)
    (hy : y.toNat * 2 ^ k.toNat < 2 ^ 32) :
    (x ||| y <<< k).toNat = x.toNat + y.toNat * 2 ^ k.toNat := by
  rw [UInt32.toNat_or, UInt32.toNat_shiftLeft, Nat.mod_eq_of_lt hk, Nat.shiftLeft_eq,
    Nat.mod_eq_of_lt hy, ← Nat.shiftLeft_eq, Nat.or_comm, ← Nat.shiftLeft_add_eq_or_of_lt hx,
    Nat.shiftLeft_eq, Nat.add_comm]

/-! ## Records -/

/-- How a record is made of bytes. -/
structure RecordFormat (α : Type*) where
  size : Nat
  encode : α → List UInt8
  decode : List UInt8 → α
  encode_length : ∀ record, (encode record).length = size
  decode_encode : ∀ record, decode (encode record) = record

namespace RecordFormat

variable {α : Type*} (F : RecordFormat α)

/-- The record at an address. -/
def load (m : Memory) (address : UInt32) : α :=
  F.decode ((List.range F.size).map fun k => m (address + UInt32.ofNat k))

/-- The memory after a record is stored. -/
def store (m : Memory) (address : UInt32) (record : α) : Memory := fun a =>
  if (a - address).toNat < F.size then (F.encode record).getD (a - address).toNat 0 else m a

/-- The memory after records are stored one behind the other. -/
def storeTable (m : Memory) (base : UInt32) (record : Nat → α) : Nat → Memory
  | 0 => m
  | n + 1 => F.store (storeTable m base record n) (base + UInt32.ofNat (F.size * n)) (record n)

variable {F} {m m' : Memory} {address base a : UInt32} {record : α} {records : Nat → α} {n : Nat}

theorem store_outside (h : Outside a address F.size) (hfit : address.toNat + F.size ≤ 2 ^ 32) :
    F.store m address record a = m a :=
  if_neg (Nat.not_lt.mpr (h.le hfit))

theorem load_congr
    (h : ∀ k < F.size, m (address + UInt32.ofNat k) = m' (address + UInt32.ofNat k)) :
    F.load m address = F.load m' address := by
  rw [load, load]
  congr 1
  exact List.map_congr_left fun k hk => h k (List.mem_range.mp hk)

/-- A record apart from a block that changed is still there. -/
theorem load_of_outside {target : UInt32} {size : Nat}
    (h : ∀ a, Outside a target size → m' a = m a)
    (hapart : address.toNat + F.size ≤ target.toNat ∨ target.toNat + size ≤ address.toNat)
    (hfit : address.toNat + F.size ≤ 2 ^ 32) : F.load m' address = F.load m address := by
  apply load_congr
  intro k hk
  have haddress : (address + UInt32.ofNat k).toNat = address.toNat + k :=
    toNat_add_ofNat (by omega)
  apply h
  unfold Outside
  omega

theorem load_store_self (hfit : address.toNat + F.size ≤ 2 ^ 32) :
    F.load (F.store m address record) address = record := by
  have hbytes : (List.range F.size).map
      (fun k => F.store m address record (address + UInt32.ofNat k)) = F.encode record := by
    apply List.ext_getElem (by simp [F.encode_length])
    intro k hk hk'
    rw [F.encode_length] at hk'
    have hdistance : (address + UInt32.ofNat k - address).toNat = k := by
      rw [toNat_add_ofNat_sub, UInt32.sub_self, UInt32.toNat_zero, Nat.zero_add,
        Nat.mod_eq_of_lt (by omega)]
    rw [List.getElem_map, List.getElem_range, store, hdistance, if_pos hk',
      List.getD_eq_getElem _ _ (by rwa [F.encode_length])]
  rw [load, hbytes, F.decode_encode]

theorem toNat_entry (hfit : base.toNat + F.size * (n + 1) ≤ 2 ^ 32) (hsize : 0 < F.size) :
    (base + UInt32.ofNat (F.size * n)).toNat = base.toNat + F.size * n := by
  rw [Nat.mul_succ] at hfit
  exact toNat_add_ofNat (by omega)

/-- A table does not show outside of its bytes. -/
theorem storeTable_outside (h : Outside a base (F.size * n))
    (hfit : base.toNat + F.size * n ≤ 2 ^ 32) (hsize : 0 < F.size) :
    F.storeTable m base records n a = m a := by
  induction n with
  | zero => rfl
  | succ n ih =>
    have hentry := toNat_entry hfit hsize
    rw [Nat.mul_succ] at h hfit
    rw [storeTable, store_outside, ih (h.mono (by omega)) (by omega)]
    · unfold Outside at *
      omega
    · omega

/-- A table holds the records that were stored. -/
theorem load_storeTable (hfit : base.toNat + F.size * n ≤ 2 ^ 32) (hsize : 0 < F.size) {i : Nat}
    (hi : i < n) :
    F.load (F.storeTable m base records n) (base + UInt32.ofNat (F.size * i)) = records i := by
  induction n with
  | zero => exact absurd hi (Nat.not_lt_zero i)
  | succ n ih =>
    have hentry := toNat_entry hfit hsize
    have hsum : F.size * (n + 1) = F.size * n + F.size := Nat.mul_succ F.size n
    rw [storeTable]
    rcases Nat.lt_succ_iff_lt_or_eq.mp hi with hbefore | rfl
    · -- the last record does not reach back to an earlier one
      have hnext : F.size * (i + 1) ≤ F.size * n := Nat.mul_le_mul_left _ hbefore
      have hfirst : (base + UInt32.ofNat (F.size * i)).toNat = base.toNat + F.size * i :=
        toNat_entry (by omega) hsize
      rw [Nat.mul_succ] at hnext
      rw [← ih (by omega) hbefore]
      exact load_of_outside (fun a ha => store_outside ha (by omega)) (by omega) (by omega)
    · exact load_store_self (by omega)

end RecordFormat

end LevOS.Foundation
