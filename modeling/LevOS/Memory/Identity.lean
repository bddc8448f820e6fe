import LevOS.Memory.Plain

/-!
# The identity mapping

What `init_paging` leaves in memory: four tables that map the first 16 MiB onto
themselves, and a directory that points to them. Every directory made later is a
copy of this one, so all of them lead to the same four tables.

## Main definitions

* `identityEntry`, `pageEntry`, the entries of the directory and the tables

## Main results

* `initPaging_directory`, `initPaging_table`, `initPaging_absent`, `initPaging_recursive`
-/

namespace LevOS.Memory

open LevOS.Foundation

/-! ## Entries -/

theorem frameOf_toNat (x : UInt32) : (frameOf x).toNat = x.toNat / 4096 * 4096 := by
  rw [frameOf, UInt32.toNat_and]
  apply Nat.eq_of_testBit_eq
  intro i
  rw [Nat.testBit_and, show (0xFFFFF000 : UInt32).toNat = (2 ^ 20 - 1) * 2 ^ 12 from rfl,
    Nat.testBit_mul_two_pow, Nat.testBit_two_pow_sub_one, show 4096 = 2 ^ 12 from rfl,
    Nat.testBit_mul_two_pow, Nat.testBit_div_two_pow]
  by_cases hi : 12 ≤ i
  · have hshift : i - 12 + 12 = i := by omega
    by_cases hlt : i - 12 < 20
    · simp [hi, hlt]
    · have hhigh : x.toNat.testBit i = false :=
        Nat.testBit_lt_two_pow (x.toNat_lt.trans_le (Nat.pow_le_pow_right (by decide) (by omega)))
      simp [hshift, hhigh]
  · simp [hi]

/-- Flags fill the low bits of an aligned address. -/
theorem or_flags_toNat {x flags : UInt32} (hx : x.toNat % 4096 = 0) (hflags : flags.toNat < 4096) :
    (x ||| flags).toNat = x.toNat + flags.toNat := by
  obtain ⟨q, hq⟩ : ∃ q, x.toNat = 2 ^ 12 * q := ⟨x.toNat / 4096, by omega⟩
  rw [UInt32.toNat_or, hq, ← Nat.two_pow_add_eq_or_of_lt hflags]

theorem frameOf_or_flags {x flags : UInt32} (hx : x.toNat % 4096 = 0)
    (hflags : flags.toNat < 4096) : frameOf (x ||| flags) = x := by
  apply UInt32.toNat_inj.mp
  rw [frameOf_toNat, or_flags_toNat hx hflags]
  omega

/-- An aligned address has none of the flags. -/
theorem or_flags_and {x flags mask : UInt32} (hx : x.toNat % 4096 = 0)
    (hmask : mask.toNat < 4096) : (x ||| flags) &&& mask = flags &&& mask := by
  apply UInt32.toNat_inj.mp
  rw [UInt32.toNat_and, UInt32.toNat_or, UInt32.toNat_and]
  apply Nat.eq_of_testBit_eq
  intro i
  rw [Nat.testBit_and, Nat.testBit_or, Nat.testBit_and]
  by_cases hi : i < 12
  · obtain ⟨q, hq⟩ : ∃ q, x.toNat = q * 2 ^ 12 := ⟨x.toNat / 4096, by omega⟩
    have hzero : x.toNat.testBit i = false := by
      rw [hq, Nat.testBit_mul_two_pow, decide_eq_false (Nat.not_le.mpr hi), Bool.false_and]
    rw [hzero, Bool.false_or]
  · have hzero : mask.toNat.testBit i = false :=
      Nat.testBit_lt_two_pow (hmask.trans_le (Nat.pow_le_pow_right (by decide)
        (Nat.not_lt.mp hi) : 2 ^ 12 ≤ 2 ^ i))
    rw [hzero, Bool.and_false, Bool.and_false]

theorem frameOf_of_aligned {x : UInt32} (hx : x.toNat % 4096 = 0) : frameOf x = x := by
  apply UInt32.toNat_inj.mp
  rw [frameOf_toNat]
  omega

/-! ## The tables -/

variable (layout : Layout)

/-- The address of an identity table. -/
def tableAddress (t : Nat) : UInt32 := layout.identityTables + UInt32.ofNat (4096 * t)

/-- The directory entry of an identity table. -/
def identityEntry (t : Nat) : UInt32 := tableAddress layout t ||| presentFlag ||| writableFlag

/-- The entry for a page in its identity table. -/
def pageEntry (t e : Nat) : UInt32 :=
  (UInt32.ofNat t * 1024 + UInt32.ofNat e) * 0x1000 ||| presentFlag ||| writableFlag

variable {layout}

theorem tableAddress_toNat {t : Nat} (ht : t ≤ 4) :
    (tableAddress layout t).toNat = layout.identityTables.toNat + 4096 * t := by
  have hmem := layout.identityTables_mem
  have himage := layout.image_le
  exact toNat_add_ofNat (by omega)

theorem tableAddress_aligned (layout : Layout) {t : Nat} (ht : t ≤ 4) :
    (tableAddress layout t).toNat % 4096 = 0 := by
  have haligned := layout.identityTables_aligned
  rw [tableAddress_toNat ht]
  omega

theorem frameOf_identityEntry {t : Nat} (ht : t ≤ 4) :
    frameOf (identityEntry layout t) = tableAddress layout t := by
  rw [identityEntry, UInt32.or_assoc]
  exact frameOf_or_flags (tableAddress_aligned layout ht) (by decide)

/-- The entry of a table that user code may use too. -/
theorem userEntry_eq (t : Nat) :
    identityEntry layout t ||| userFlag = tableAddress layout t ||| flagsFor 0x55 := by
  rw [identityEntry, UInt32.or_assoc, UInt32.or_assoc]
  rfl

theorem frameOf_userEntry {t : Nat} (ht : t ≤ 4) :
    frameOf (identityEntry layout t ||| userFlag) = tableAddress layout t := by
  rw [userEntry_eq]
  exact frameOf_or_flags (tableAddress_aligned layout ht) (by decide)

theorem identityEntry_present {t : Nat} (ht : t ≤ 4) :
    identityEntry layout t &&& presentFlag ≠ 0 := by
  rw [identityEntry, UInt32.or_assoc, or_flags_and (tableAddress_aligned layout ht) (by decide)]
  decide

theorem userEntry_present {t : Nat} (ht : t ≤ 4) :
    (identityEntry layout t ||| userFlag) &&& presentFlag ≠ 0 := by
  rw [userEntry_eq, or_flags_and (tableAddress_aligned layout ht) (by decide)]
  decide

theorem kernelFlags (x : UInt32) : x ||| presentFlag ||| writableFlag = x ||| flagsFor 0 :=
  UInt32.or_assoc x presentFlag writableFlag

theorem identityEntry_flags (layout : Layout) {t : Nat} (ht : t ≤ 4) :
    identityEntry layout t &&& presentFlag ≠ 0 ∧ identityEntry layout t &&& writableFlag ≠ 0 ∧
      identityEntry layout t &&& userFlag = 0 := by
  have haligned := tableAddress_aligned layout ht
  rw [identityEntry, kernelFlags, or_flags_and haligned (by decide),
    or_flags_and haligned (by decide), or_flags_and haligned (by decide)]
  decide

section Loops

variable {m : Memory}

theorem identityTable_outside {table number a : UInt32} {n : Nat} (h : Outside a table (4 * n))
    (hfit : table.toNat + 4 * n ≤ 2 ^ 32) : identityTable m table number n a = m a := by
  induction n with
  | zero => rfl
  | succ n ih =>
    have haddress : (table + UInt32.ofNat (4 * n)).toNat = table.toNat + 4 * n :=
      toNat_add_ofNat (by omega)
    rw [identityTable, store32_outside _ (by omega)]
    · exact ih (h.mono (by omega)) (by omega)
    · unfold Outside at *
      omega

theorem load32_identityTable {table number : UInt32} {n e : Nat} (he : e < n)
    (hfit : table.toNat + 4 * n ≤ 2 ^ 32) :
    load32 (identityTable m table number n) (table + UInt32.ofNat (4 * e)) =
      ((number * 1024 + UInt32.ofNat e) * 0x1000 ||| presentFlag ||| writableFlag) := by
  induction n with
  | zero => exact absurd he (Nat.not_lt_zero e)
  | succ n ih =>
    have hlast : (table + UInt32.ofNat (4 * n)).toNat = table.toNat + 4 * n :=
      toNat_add_ofNat (by omega)
    have hentry : (table + UInt32.ofNat (4 * e)).toNat = table.toNat + 4 * e :=
      toNat_add_ofNat (by omega)
    rw [identityTable]
    rcases Nat.lt_succ_iff_lt_or_eq.mp he with hlt | rfl
    · rw [load32_store32_apart (by omega) (by omega) (by omega)]
      exact ih hlt (by omega)
    · exact load32_store32_self _ _ _

theorem load32_identityTables_directory {n t : Nat} (ht : t < n) (hn : n ≤ 4) :
    load32 (identityTables layout m n) (layout.pageDirectory + UInt32.ofNat (4 * t)) =
      identityEntry layout t := by
  have htmem := layout.identityTables_mem
  have hdmem := layout.pageDirectory_mem
  have hapart := layout.directory_tables
  have himage := layout.image_le
  induction n with
  | zero => exact absurd ht (Nat.not_lt_zero t)
  | succ n ih =>
    have htable : (tableAddress layout n).toNat = layout.identityTables.toNat + 4096 * n :=
      tableAddress_toNat (by omega)
    have hlast : (layout.pageDirectory + UInt32.ofNat (4 * n)).toNat =
        layout.pageDirectory.toNat + 4 * n := toNat_add_ofNat (by omega)
    have hslot : (layout.pageDirectory + UInt32.ofNat (4 * t)).toNat =
        layout.pageDirectory.toNat + 4 * t := toNat_add_ofNat (by omega)
    rw [identityTables]
    change load32 (store32 (identityTable _ (tableAddress layout n) _ 1024) _ _) _ = _
    rcases Nat.lt_succ_iff_lt_or_eq.mp ht with hlt | rfl
    · rw [load32_store32_apart (by omega) (by omega) (by omega),
        load32_of_outside (fun a ha => identityTable_outside ha (by omega)) (by omega) (by omega)]
      exact ih hlt (by omega)
    · exact load32_store32_self _ _ _

theorem load32_identityTables_table {n t e : Nat} (ht : t < n) (hn : n ≤ 4) (he : e < 1024) :
    load32 (identityTables layout m n) (tableAddress layout t + UInt32.ofNat (4 * e)) =
      pageEntry t e := by
  have htmem := layout.identityTables_mem
  have hdmem := layout.pageDirectory_mem
  have hapart := layout.directory_tables
  have himage := layout.image_le
  induction n with
  | zero => exact absurd ht (Nat.not_lt_zero t)
  | succ n ih =>
    have htable : (tableAddress layout n).toNat = layout.identityTables.toNat + 4096 * n :=
      tableAddress_toNat (by omega)
    have hbase : (tableAddress layout t).toNat = layout.identityTables.toNat + 4096 * t :=
      tableAddress_toNat (by omega)
    have hlast : (layout.pageDirectory + UInt32.ofNat (4 * n)).toNat =
        layout.pageDirectory.toNat + 4 * n := toNat_add_ofNat (by omega)
    have hentry : (tableAddress layout t + UInt32.ofNat (4 * e)).toNat =
        layout.identityTables.toNat + 4096 * t + 4 * e := by
      rw [toNat_add_ofNat (by omega), hbase]
    rw [identityTables]
    change load32 (store32 (identityTable _ (tableAddress layout n) _ 1024) _ _) _ = _
    rw [load32_store32_apart (by omega) (by omega) (by omega)]
    rcases Nat.lt_succ_iff_lt_or_eq.mp ht with hlt | rfl
    · rw [load32_of_outside (fun a ha => identityTable_outside ha (by omega)) (by omega) (by omega)]
      exact ih hlt (by omega)
    · exact load32_identityTable he (by omega)

theorem clearDirectory_eq (m : Memory) (directory : UInt32) (n : Nat) :
    clearDirectory m directory n = clearWords m directory n := by
  induction n with
  | zero => rfl
  | succ n ih => rw [clearDirectory, clearWords, ih]

/-- The loops leave the other directory entries alone. -/
theorem load32_identityTables_other {n i : Nat} (hn : n ≤ 4) (hi : 4 ≤ i) (hlt : i < 1024) :
    load32 (identityTables layout m n) (layout.pageDirectory + UInt32.ofNat (4 * i)) =
      load32 m (layout.pageDirectory + UInt32.ofNat (4 * i)) := by
  have htmem := layout.identityTables_mem
  have hdmem := layout.pageDirectory_mem
  have hapart := layout.directory_tables
  have himage := layout.image_le
  induction n with
  | zero => rfl
  | succ n ih =>
    have htable : (tableAddress layout n).toNat = layout.identityTables.toNat + 4096 * n :=
      tableAddress_toNat (by omega)
    have hlast : (layout.pageDirectory + UInt32.ofNat (4 * n)).toNat =
        layout.pageDirectory.toNat + 4 * n := toNat_add_ofNat (by omega)
    have hslot : (layout.pageDirectory + UInt32.ofNat (4 * i)).toNat =
        layout.pageDirectory.toNat + 4 * i := toNat_add_ofNat (by omega)
    rw [identityTables]
    change load32 (store32 (identityTable _ (tableAddress layout n) _ 1024) _ _) _ = _
    rw [load32_store32_apart (by omega) (by omega) (by omega),
      load32_of_outside (fun a ha => identityTable_outside ha (by omega)) (by omega) (by omega)]
    exact ih (by omega)

end Loops

/-- After `init_paging` the directory leads to the four identity tables. -/
theorem initPaging_directory (s : Space) {t : Nat} (ht : t < 4) :
    load32 (initPaging layout s).memory (layout.pageDirectory + UInt32.ofNat (4 * t)) =
      identityEntry layout t := by
  have hdmem := layout.pageDirectory_mem
  have himage := layout.image_le
  have hslot : (layout.pageDirectory + UInt32.ofNat (4 * t)).toNat =
      layout.pageDirectory.toNat + 4 * t := toNat_add_ofNat (by omega)
  have hlast : (layout.pageDirectory + 4 * 1023).toNat = layout.pageDirectory.toNat + 4092 :=
    toNat_add_ofNat (n := 4092) (by omega)
  rw [initPaging]
  exact (load32_store32_apart (by omega) (by omega) (by omega)).trans
    (load32_identityTables_directory ht (Nat.le_refl 4))

/-- After `init_paging` the entries from 16 MiB on are absent, up to the last one. -/
theorem initPaging_absent (s : Space) {i : Nat} (hi : 4 ≤ i) (hlt : i < 1023) :
    load32 (initPaging layout s).memory (layout.pageDirectory + UInt32.ofNat (4 * i)) = 0 := by
  have hdmem := layout.pageDirectory_mem
  have himage := layout.image_le
  have hslot : (layout.pageDirectory + UInt32.ofNat (4 * i)).toNat =
      layout.pageDirectory.toNat + 4 * i := toNat_add_ofNat (by omega)
  have hlast : (layout.pageDirectory + 4 * 1023).toNat = layout.pageDirectory.toNat + 4092 :=
    toNat_add_ofNat (n := 4092) (by omega)
  rw [initPaging]
  refine (load32_store32_apart (by omega) (by omega) (by omega)).trans ?_
  rw [load32_identityTables_other (Nat.le_refl 4) hi (by omega), clearDirectory_eq]
  exact load32_clearWords (by omega) (by omega)

/-- The last entry leads back to the directory. -/
theorem initPaging_recursive (layout : Layout) (s : Space) :
    load32 (initPaging layout s).memory (layout.pageDirectory + UInt32.ofNat (4 * 1023)) =
      (layout.pageDirectory ||| presentFlag ||| writableFlag) :=
  load32_store32_self _ _ _

/-- After `init_paging` the identity tables map each page onto itself. -/
theorem initPaging_table (s : Space) {t e : Nat} (ht : t < 4) (he : e < 1024) :
    load32 (initPaging layout s).memory (tableAddress layout t + UInt32.ofNat (4 * e)) =
      pageEntry t e := by
  have htmem := layout.identityTables_mem
  have hdmem := layout.pageDirectory_mem
  have hapart := layout.directory_tables
  have himage := layout.image_le
  have hbase : (tableAddress layout t).toNat = layout.identityTables.toNat + 4096 * t :=
    tableAddress_toNat (by omega)
  have hentry : (tableAddress layout t + UInt32.ofNat (4 * e)).toNat =
      layout.identityTables.toNat + 4096 * t + 4 * e := by
    rw [toNat_add_ofNat (by omega), hbase]
  have hlast : (layout.pageDirectory + 4 * 1023).toNat = layout.pageDirectory.toNat + 4092 :=
    toNat_add_ofNat (n := 4092) (by omega)
  rw [initPaging]
  exact (load32_store32_apart (by omega) (by omega) (by omega)).trans
    (load32_identityTables_table ht (Nat.le_refl 4) he)

end LevOS.Memory
