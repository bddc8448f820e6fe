import LevOS.Memory.Pmm
import Mathlib.Order.Bounds.Basic

/-!
# The set of free pages

The bitmap of the page allocator stands for a set of free pages. Every function
of `pmm.c` changes that set in a simple way, keeps the free count equal to its
size, and keeps every free page below the upper bound at which allocation stops
looking.

## Main definitions

* `Pmm.free`, the pages whose bit is clear
* `Pmm.Bounded`, `Pmm.Sound`, what holds during and after initialisation

## Main results

* `free_freeRange`, `free_reserveRange`: the ranges as unions and differences
* `pmmInit_sound`: initialisation ends in a sound state
* `allocatePage_eq`, `freePage_eq`: one spec for each call
-/

namespace LevOS.Memory

open LevOS.Foundation

namespace Pmm

/-- The free pages: those whose bit is clear. -/
def free (p : Pmm) : Finset Nat := clearBits p.bitmap maxPages

/-! ## Bits -/

private theorem shift_toNat (page : UInt32) : (page >>> 3).toNat = page.toNat / 8 := by
  rw [UInt32.toNat_shiftRight]
  exact Nat.shiftRight_eq_div_pow page.toNat 3

private theorem mask_eq (page : UInt32) : mask page = bitMask page.toNat := by
  have hall : ∀ k < 8, ((1 : UInt32) <<< UInt32.ofNat k).toUInt8 = 1 <<< UInt8.ofNat k := by
    decide
  have hlow : page &&& 7 = UInt32.ofNat (page.toNat % 8) := by
    apply UInt32.toNat_inj.mp
    rw [UInt32.toNat_and, UInt32.toNat_ofNat', Nat.mod_eq_of_lt (by omega)]
    exact Nat.and_two_pow_sub_one_eq_mod page.toNat 3
  rw [mask, hlow, bitMask]
  exact hall _ (Nat.mod_lt _ (by decide))

theorem isUsed_eq (p : Pmm) (page : UInt32) : p.isUsed page = getBit p.bitmap page.toNat := by
  rw [isUsed, getBit, shift_toNat, mask_eq]

theorem setUsed_bitmap (p : Pmm) (page : UInt32) :
    (p.setUsed page).bitmap = setBit p.bitmap page.toNat := by
  rw [setUsed, setBit, shift_toNat, mask_eq]

theorem setFree_bitmap (p : Pmm) (page : UInt32) :
    (p.setFree page).bitmap = clearBit p.bitmap page.toNat := by
  rw [setFree, clearBit, shift_toNat, mask_eq]

theorem free_setUsed (p : Pmm) (page : UInt32) :
    (p.setUsed page).free = p.free.erase page.toNat := by
  rw [free, setUsed_bitmap, clearBits_setBit, free]

theorem free_setFree (p : Pmm) {page : UInt32} (hpage : page.toNat < maxPages) :
    (p.setFree page).free = insert page.toNat p.free := by
  rw [free, setFree_bitmap, clearBits_clearBit _ hpage, free]

theorem mem_free_iff (p : Pmm) {page : UInt32} (hpage : page.toNat < maxPages) :
    page.toNat ∈ p.free ↔ p.isUsed page = false := by
  rw [free, mem_clearBits, isUsed_eq]
  exact and_iff_right hpage

theorem lt_of_mem_free {p : Pmm} {page : Nat} (h : page ∈ p.free) : page < maxPages :=
  (mem_clearBits.mp h).1

theorem card_free_le (p : Pmm) : p.free.card ≤ maxPages := card_clearBits_le _ _

/-! ## Counting -/

/-- The free count is the number of free pages. -/
def Counted (p : Pmm) : Prop := p.freeCount.toNat = p.free.card

/-- Taking a free page keeps the count right. -/
theorem Counted.take {p : Pmm} (h : p.Counted) {page : UInt32} (hpage : page.toNat ∈ p.free) :
    ({ p.setUsed page with freeCount := p.freeCount - 1 } : Pmm).Counted := by
  have hpos : 0 < p.free.card := Finset.card_pos.mpr ⟨_, hpage⟩
  have hone : (1 : UInt32) ≤ p.freeCount := by
    rw [UInt32.le_iff_toNat_le, h]
    exact hpos
  change (p.freeCount - 1).toNat = (p.setUsed page).free.card
  rw [UInt32.toNat_sub_of_le _ _ hone, h, free_setUsed, Finset.card_erase_of_mem hpage]
  rfl

/-- Giving back a page that is not free keeps the count right. -/
theorem Counted.give {p : Pmm} (h : p.Counted) {page : UInt32} (hlt : page.toNat < maxPages)
    (hpage : page.toNat ∉ p.free) :
    ({ p.setFree page with freeCount := p.freeCount + 1 } : Pmm).Counted := by
  have hcard := card_free_le p
  have hmax : maxPages < 2 ^ 32 - 1 := by decide
  change (p.freeCount + 1).toNat = (p.setFree page).free.card
  rw [UInt32.toNat_add, h, free_setFree _ hlt, Finset.card_insert_of_notMem hpage]
  exact Nat.mod_eq_of_lt (by change _ + 1 < 2 ^ 32; omega)

/-! ## Ranges -/

section Loops

variable {p : Pmm} {page : Nat}

private theorem ofNat_toNat (h : page < maxPages) : (UInt32.ofNat page).toNat = page := by
  have hmax : maxPages < 2 ^ 32 := by decide
  rw [UInt32.toNat_ofNat', Nat.mod_eq_of_lt (by omega)]

private theorem mem_free_ofNat (p : Pmm) (h : page < maxPages) :
    page ∈ p.free ↔ p.isUsed (UInt32.ofNat page) = false := by
  have hmem := p.mem_free_iff (show (UInt32.ofNat page).toNat < maxPages by rwa [ofNat_toNat h])
  rwa [ofNat_toNat h] at hmem

theorem releasePage_spec (hcount : p.Counted) (hpage : page < maxPages) :
    (p.releasePage page).Counted ∧ (p.releasePage page).free = insert page p.free ∧
      (p.releasePage page).highestPage = p.highestPage := by
  have hnat := ofNat_toNat hpage
  have hmem := p.mem_free_ofNat hpage
  rw [releasePage]
  split_ifs with hused
  · have hnot : (UInt32.ofNat page).toNat ∉ p.free := by
      rw [hnat, hmem, hused]
      decide
    refine ⟨hcount.give (by rwa [hnat]) hnot, ?_, rfl⟩
    change (p.setFree (UInt32.ofNat page)).free = _
    rw [free_setFree _ (by rwa [hnat]), hnat]
  · -- a page that is free already is left alone
    have hfree : page ∈ p.free := hmem.mpr (Bool.eq_false_iff.mpr hused)
    exact ⟨hcount, (Finset.insert_eq_of_mem hfree).symm, rfl⟩

theorem claimPage_spec (hcount : p.Counted) (hpage : page < maxPages) :
    (p.claimPage page).Counted ∧ (p.claimPage page).free = p.free.erase page ∧
      (p.claimPage page).highestPage = p.highestPage := by
  have hnat := ofNat_toNat hpage
  have hmem := p.mem_free_ofNat hpage
  rw [claimPage]
  split_ifs with hused
  · have hnot : page ∉ p.free := by
      rw [hmem, hused]
      decide
    exact ⟨hcount, (Finset.erase_eq_of_notMem hnot).symm, rfl⟩
  · have hfree : (UInt32.ofNat page).toNat ∈ p.free := by
      rw [hnat, hmem]
      exact Bool.eq_false_iff.mpr hused
    refine ⟨hcount.take hfree, ?_, rfl⟩
    change (p.setUsed (UInt32.ofNat page)).free = _
    rw [free_setUsed, hnat]

theorem foldl_releasePage_spec {pages : List Nat} (hcount : p.Counted)
    (hpages : ∀ page ∈ pages, page < maxPages) :
    (pages.foldl releasePage p).Counted ∧
      (pages.foldl releasePage p).free = p.free ∪ pages.toFinset ∧
      (pages.foldl releasePage p).highestPage = p.highestPage := by
  induction pages generalizing p with
  | nil => exact ⟨hcount, by simp, rfl⟩
  | cons page pages ih =>
    obtain ⟨hcount', hfree, hhighest⟩ := releasePage_spec hcount (hpages page List.mem_cons_self)
    obtain ⟨hcount'', hfree', hhighest'⟩ :=
      ih hcount' fun q hq => hpages q (List.mem_cons_of_mem _ hq)
    refine ⟨hcount'', ?_, hhighest'.trans hhighest⟩
    rw [List.foldl_cons, hfree', hfree, List.toFinset_cons, Finset.insert_union,
      Finset.union_insert]

theorem foldl_claimPage_spec {pages : List Nat} (hcount : p.Counted)
    (hpages : ∀ page ∈ pages, page < maxPages) :
    (pages.foldl claimPage p).Counted ∧
      (pages.foldl claimPage p).free = p.free \ pages.toFinset ∧
      (pages.foldl claimPage p).highestPage = p.highestPage := by
  induction pages generalizing p with
  | nil => exact ⟨hcount, by simp, rfl⟩
  | cons page pages ih =>
    obtain ⟨hcount', hfree, hhighest⟩ := claimPage_spec hcount (hpages page List.mem_cons_self)
    obtain ⟨hcount'', hfree', hhighest'⟩ :=
      ih hcount' fun q hq => hpages q (List.mem_cons_of_mem _ hq)
    refine ⟨hcount'', ?_, hhighest'.trans hhighest⟩
    rw [List.foldl_cons, hfree', hfree, List.toFinset_cons, Finset.sdiff_insert,
      Finset.erase_sdiff_comm]

end Loops

/-! ## Initialisation -/

/-- What holds throughout initialisation: the count is right and the free pages
lie below the bound. -/
structure Bounded (p : Pmm) : Prop where
  counted : p.Counted
  below : ∀ page ∈ p.free, page < p.highestPage.toNat
  highest_le : p.highestPage.toNat ≤ maxPages

theorem mem_pageRange {first last : UInt64} {page : Nat} :
    page ∈ pageRange first last ↔ first.toNat ≤ page ∧ page < last.toNat := by
  rw [pageRange, List.mem_range'_1]
  omega

private theorem clamp_toNat (last : UInt64) :
    (if UInt64.ofNat maxPages < last then UInt64.ofNat maxPages else last).toNat =
      min maxPages last.toNat := by
  have hmax : (UInt64.ofNat maxPages).toNat = maxPages := by decide
  split_ifs with h <;> rw [UInt64.lt_iff_toNat_lt, hmax] at h <;> omega

/-- Freeing a range adds its whole pages. -/
theorem mem_freeRange {p : Pmm} (h : p.Counted) (start stop : UInt64) {page : Nat}
    (hpage : page < maxPages) :
    page ∈ (p.freeRange start stop).free ↔
      page ∈ p.free ∨
        ((start + 4096 - 1) / 4096).toNat ≤ page ∧ page < (stop / 4096).toNat := by
  have hclamp := clamp_toNat (stop / 4096)
  unfold Pmm.freeRange
  simp only
  generalize (if UInt64.ofNat maxPages < stop / 4096 then UInt64.ofNat maxPages
    else stop / 4096) = last at hclamp
  generalize (start + 4096 - 1) / 4096 = first
  obtain ⟨-, hfree, -⟩ := foldl_releasePage_spec h
    (fun page (hpage : page ∈ pageRange first last) =>
      (mem_pageRange.mp hpage).2.trans_le (by omega : last.toNat ≤ maxPages))
  have hin : page ∈ ((pageRange first last).foldl releasePage p).free ↔
      page ∈ p.free ∨ first.toNat ≤ page ∧ page < (stop / 4096).toNat := by
    rw [hfree, Finset.mem_union, List.mem_toFinset, mem_pageRange]
    refine or_congr_right (and_congr_right fun _ => ?_)
    omega
  split_ifs
  · exact hin
  · exact hin

/-- Freeing a range adds pages and raises the bound above them. -/
theorem Bounded.freeRange {p : Pmm} (h : p.Bounded) (start stop : UInt64) :
    (p.freeRange start stop).Bounded := by
  have hclamp := clamp_toNat (stop / 4096)
  unfold Pmm.freeRange
  simp only
  generalize (if UInt64.ofNat maxPages < stop / 4096 then UInt64.ofNat maxPages
    else stop / 4096) = last at hclamp
  generalize (start + 4096 - 1) / 4096 = first
  have hlast : last.toNat ≤ maxPages := by omega
  obtain ⟨hcount, hfree, hhighest⟩ := foldl_releasePage_spec h.counted
    (fun page (hpage : page ∈ pageRange first last) => (mem_pageRange.mp hpage).2.trans_le hlast)
  have hin (page : Nat) (hpage : page ∈ ((pageRange first last).foldl releasePage p).free) :
      page < p.highestPage.toNat ∨ page < last.toNat := by
    rw [hfree, Finset.mem_union, List.mem_toFinset] at hpage
    exact hpage.imp (h.below page) fun hmem => (mem_pageRange.mp hmem).2
  split_ifs with hraise
  · rw [UInt64.lt_iff_toNat_lt, UInt32.toNat_toUInt64, hhighest] at hraise
    have hmax : maxPages < 2 ^ 32 := by decide
    have hword : last.toUInt32.toNat = last.toNat := by
      rw [UInt64.toNat_toUInt32]
      exact Nat.mod_eq_of_lt (by omega)
    refine ⟨hcount, fun page hpage => ?_, hword.trans_le hlast⟩
    have := hin page hpage
    change page < last.toUInt32.toNat
    omega
  · rw [UInt64.lt_iff_toNat_lt, UInt32.toNat_toUInt64] at hraise
    refine ⟨hcount, fun page hpage => ?_, hhighest ▸ h.highest_le⟩
    have := hin page hpage
    rw [hhighest] at hraise ⊢
    omega

/-- Freeing a range leaves the bound at zero exactly if the range ends in the first page. -/
theorem highestPage_freeRange {p : Pmm} (h : p.Counted) (start stop : UInt64) :
    (p.freeRange start stop).highestPage = 0 ↔ p.highestPage = 0 ∧ stop.toNat < 4096 := by
  have hclamp := clamp_toNat (stop / 4096)
  have hmax : maxPages = 1048576 := rfl
  have hdiv : (stop / 4096).toNat = stop.toNat / 4096 := UInt64.toNat_div stop 4096
  unfold Pmm.freeRange
  simp only
  generalize (if UInt64.ofNat maxPages < stop / 4096 then UInt64.ofNat maxPages
    else stop / 4096) = last at hclamp
  generalize (start + 4096 - 1) / 4096 = first
  obtain ⟨-, -, hhighest⟩ := foldl_releasePage_spec h
    (fun page (hpage : page ∈ pageRange first last) =>
      (mem_pageRange.mp hpage).2.trans_le (by omega : last.toNat ≤ maxPages))
  rw [hhighest]
  simp only [← UInt32.toNat_inj, UInt32.toNat_zero]
  split_ifs with hraise
  · rw [UInt64.lt_iff_toNat_lt, UInt32.toNat_toUInt64] at hraise
    change last.toUInt32.toNat = 0 ↔ _
    rw [UInt64.toNat_toUInt32, Nat.mod_eq_of_lt (by omega)]
    omega
  · rw [UInt64.lt_iff_toNat_lt, UInt32.toNat_toUInt64] at hraise
    rw [hhighest]
    omega

/-- Rounding up to whole pages, for an address that leaves room for it. -/
theorem pagesUp_toNat {x : UInt64} (h : x.toNat + 4095 < 2 ^ 64) :
    ((x + 4096 - 1) / 4096).toNat = (x.toNat + 4095) / 4096 := by
  rw [UInt64.toNat_div, UInt64.toNat_sub, UInt64.toNat_add]
  simp only [UInt64.reduceToNat]
  omega

/-- Reserving a range removes its pages, whole or in part, and no others. -/
theorem mem_reserveRange {p : Pmm} (h : p.Counted) (start stop : UInt64) {page : Nat} :
    page ∈ (p.reserveRange start stop).free ↔
      page ∈ p.free ∧
        ¬ ((start / 4096).toNat ≤ page ∧ page < ((stop + 4096 - 1) / 4096).toNat) := by
  have hclamp := clamp_toNat ((stop + 4096 - 1) / 4096)
  have hmax : (UInt64.ofNat maxPages).toNat = maxPages := by decide
  unfold reserveRange
  simp only
  generalize (if UInt64.ofNat maxPages < (stop + 4096 - 1) / 4096 then UInt64.ofNat maxPages
    else (stop + 4096 - 1) / 4096) = last at hclamp
  generalize start / 4096 = first
  split_ifs with houtside
  · rw [UInt64.le_iff_toNat_le, hmax] at houtside
    refine ⟨fun hmem => ⟨hmem, fun hin => ?_⟩, fun hmem => hmem.1⟩
    have hlt := lt_of_mem_free hmem
    omega
  · obtain ⟨-, hfree, -⟩ := foldl_claimPage_spec h
      (fun page (hpage : page ∈ pageRange first last) =>
        (mem_pageRange.mp hpage).2.trans_le (by omega : last.toNat ≤ maxPages))
    rw [hfree, Finset.mem_sdiff, List.mem_toFinset, mem_pageRange]
    refine and_congr_right fun hmem => not_congr (and_congr_right fun _ => ?_)
    have hlt := lt_of_mem_free hmem
    omega

theorem reserveRange_spec {p : Pmm} (h : p.Counted) (start stop : UInt64) :
    (p.reserveRange start stop).Counted ∧ (p.reserveRange start stop).free ⊆ p.free ∧
      (p.reserveRange start stop).highestPage = p.highestPage ∧
      ∀ page, (start / 4096).toNat ≤ page → page < ((stop + 4096 - 1) / 4096).toNat →
        page ∉ (p.reserveRange start stop).free := by
  have hmem (page : Nat) := @mem_reserveRange p h start stop page
  have hkept : (p.reserveRange start stop).Counted ∧
      (p.reserveRange start stop).highestPage = p.highestPage := by
    have hclamp := clamp_toNat ((stop + 4096 - 1) / 4096)
    unfold reserveRange
    simp only
    generalize (if UInt64.ofNat maxPages < (stop + 4096 - 1) / 4096 then UInt64.ofNat maxPages
      else (stop + 4096 - 1) / 4096) = last at hclamp
    split_ifs with houtside
    · exact ⟨h, rfl⟩
    · obtain ⟨hcount, -, hhighest⟩ := foldl_claimPage_spec h
        (fun page (hpage : page ∈ pageRange (start / 4096) last) =>
          (mem_pageRange.mp hpage).2.trans_le (by omega : last.toNat ≤ maxPages))
      exact ⟨hcount, hhighest⟩
  exact ⟨hkept.1, fun page hpage => ((hmem page).mp hpage).1, hkept.2,
    fun page hfirst hlast hpage => ((hmem page).mp hpage).2 ⟨hfirst, hlast⟩⟩

theorem Bounded.reserveRange {p : Pmm} (h : p.Bounded) (start stop : UInt64) :
    (p.reserveRange start stop).Bounded := by
  obtain ⟨hcount, hsubset, hhighest, -⟩ := reserveRange_spec h.counted start stop
  refine ⟨hcount, fun page hpage => ?_, hhighest ▸ h.highest_le⟩
  rw [hhighest]
  exact h.below page (hsubset hpage)

theorem Bounded.walkEntries {p : Pmm} (h : p.Bounded) (memory : Pmm → Memory) (entrySize : UInt32)
    (entries : Nat) (entry : UInt32) : (walkEntries memory entrySize entries entry p).Bounded := by
  induction entries generalizing entry p with
  | zero => exact h
  | succ entries ih =>
    rw [Pmm.walkEntries]
    apply ih
    split_ifs
    · exact h.freeRange _ _
    · exact h

theorem Bounded.walkTags {p p' : Pmm} (h : p.Bounded) {memory : Pmm → Memory}
    {info totalSize : UInt32} {fuel : Nat} {offset : UInt32}
    (hwalk : walkTags memory info totalSize fuel offset p = some p') : p'.Bounded := by
  -- induction on the tags the walk may still visit
  induction fuel generalizing offset p with
  | zero => cases hwalk
  | succ fuel ih =>
    rw [Pmm.walkTags] at hwalk
    simp only at hwalk
    split_ifs at hwalk
    · exact Option.some.inj hwalk ▸ h
    · exact ih (h.walkEntries _ _ _ _) hwalk
    · exact ih h hwalk
    · exact Option.some.inj hwalk ▸ h

theorem bounded_cleared : cleared.Bounded := by
  have hbyte : ∀ k < 8, (0xFF : UInt8) &&& bitMask k ≠ 0 := by decide
  have hfree : cleared.free = ∅ := by
    apply Finset.eq_empty_of_forall_notMem
    intro page hpage
    have hclear := (mem_clearBits.mp hpage).2
    rw [getBit, bitMask_mod, bne_eq_false_iff_eq] at hclear
    exact hbyte (page % 8) (Nat.mod_lt _ (by decide)) hclear
  refine ⟨?_, fun page hpage => ?_, by decide⟩
  · rw [Counted, hfree]
    rfl
  · rw [hfree] at hpage
    exact absurd hpage (Finset.notMem_empty page)

/-- A state in which pages can be handed out: moreover page zero is not free. -/
structure Sound (p : Pmm) : Prop extends Bounded p where
  zero_used : 0 ∉ p.free

/-- `pmm_init` ends with the reservation of the first page and of the kernel. -/
theorem pmmInit_eq {memory : Pmm → Memory} {kernelEnd info : UInt32} {fuel : Nat} {p : Pmm}
    (h : pmmInit memory kernelEnd info fuel = some p) :
    ∃ p₂ : Pmm, p₂.Bounded ∧
      p = (p₂.reserveRange 0 0x1000).reserveRange 0 kernelEnd.toUInt64 := by
  obtain ⟨p₁, hmap, rfl⟩ := Option.map_eq_some_iff.mp h
  have hread : p₁.Bounded := by
    unfold readMap at hmap
    split_ifs at hmap
    · obtain ⟨p₂, hwalk, rfl⟩ := Option.map_eq_some_iff.mp hmap
      exact (bounded_cleared.walkTags hwalk).reserveRange _ _
    · exact Option.some.inj hmap ▸ bounded_cleared
  -- without a usable map a fixed range is made available
  refine ⟨if p₁.highestPage = 0 then p₁.freeRange 0x00100000 0x01000000 else p₁, ?_, rfl⟩
  split_ifs
  · exact hread.freeRange _ _
  · exact hread

theorem pmmInit_sound {memory : Pmm → Memory} {kernelEnd info : UInt32} {fuel : Nat} {p : Pmm}
    (h : pmmInit memory kernelEnd info fuel = some p) : p.Sound := by
  obtain ⟨p₂, hbounded, rfl⟩ := pmmInit_eq h
  have hlow := hbounded.reserveRange 0 0x1000
  refine ⟨hlow.reserveRange _ _, fun hzero => ?_⟩
  obtain ⟨-, hsubset, -⟩ := reserveRange_spec hlow.counted 0 kernelEnd.toUInt64
  obtain ⟨-, -, -, hreserved⟩ := reserveRange_spec hbounded.counted 0 0x1000
  exact hreserved 0 (by decide) (by decide) (hsubset hzero)

/-- No page of the kernel image is free. -/
theorem pmmInit_above_kernel {memory : Pmm → Memory} {kernelEnd info : UInt32} {fuel : Nat}
    {p : Pmm} (h : pmmInit memory kernelEnd info fuel = some p) {page : Nat}
    (hpage : page ∈ p.free) : kernelEnd.toNat ≤ page * 4096 := by
  obtain ⟨p₂, hbounded, rfl⟩ := pmmInit_eq h
  obtain ⟨-, -, -, hreserved⟩ := reserveRange_spec (hbounded.reserveRange 0 0x1000).counted 0
    kernelEnd.toUInt64
  by_contra hbelow
  refine hreserved page (Nat.zero_le _) ?_ hpage
  have hend := kernelEnd.toNat_lt
  have hlast : ((kernelEnd.toUInt64 + 4096 - 1) / 4096).toNat = (kernelEnd.toNat + 4095) / 4096 := by
    rw [pagesUp_toNat, UInt32.toNat_toUInt64]
    rw [UInt32.toNat_toUInt64]
    omega
  omega

/-- Without a memory map the pages between the kernel image and 16 MiB are free. -/
theorem pmmInit_noMap_free {memory : Pmm → Memory} {kernelEnd : UInt32} {fuel : Nat} {p : Pmm}
    (h : pmmInit memory kernelEnd 0 fuel = some p) {page : Nat} (hlow : 0x100 ≤ page)
    (himage : kernelEnd.toNat ≤ page * 4096) (hhigh : page < 0x1000) : page ∈ p.free := by
  have hread : readMap memory 0 fuel = some cleared := if_neg (not_not_intro rfl)
  rw [pmmInit, hread, Option.map_some] at h
  obtain rfl := Option.some.inj h
  simp only [if_pos (show cleared.highestPage = 0 from rfl)]
  have hfree := bounded_cleared.freeRange 0x00100000 0x01000000
  have hend := kernelEnd.toNat_lt
  have hlast : ((kernelEnd.toUInt64 + 4096 - 1) / 4096).toNat = (kernelEnd.toNat + 4095) / 4096 := by
    rw [pagesUp_toNat, UInt32.toNat_toUInt64]
    rw [UInt32.toNat_toUInt64]
    omega
  rw [mem_reserveRange (hfree.reserveRange 0 0x1000).counted, mem_reserveRange hfree.counted, hlast]
  refine ⟨⟨?_, fun hin => ?_⟩, fun hin => by omega⟩
  · -- the range that is made available
    rw [mem_freeRange bounded_cleared.counted _ _ (by simp only [maxPages]; omega)]
    exact .inr ⟨hlow, hhigh⟩
  · have hpage : page < 1 := hin.2
    omega

/-! ## Calls -/

/-- The loop of `allocate_page` takes the first free page it looks at. -/
theorem allocateFrom_eq {p : Pmm} {pages : Nat} {page : UInt32}
    (hend : page.toNat + pages ≤ maxPages)
    (hnone : ∀ q ∈ p.free, page.toNat ≤ q) (hbelow : ∀ q ∈ p.free, q < page.toNat + pages) :
    (p.free = ∅ ∧ p.allocateFrom pages page = (0, p)) ∨
      ∃ least : UInt32, IsLeast (p.free : Set Nat) least.toNat ∧
        p.allocateFrom pages page =
          (least * pageSize, { p.setUsed least with freeCount := p.freeCount - 1 }) := by
  induction pages generalizing page with
  | zero =>
    left
    refine ⟨Finset.eq_empty_of_forall_notMem fun q hq => ?_, rfl⟩
    have := hnone q hq
    have := hbelow q hq
    omega
  | succ pages ih =>
    have hlt : page.toNat < maxPages := by omega
    have hmem := p.mem_free_iff hlt
    have hmax : maxPages < 2 ^ 32 - 1 := by decide
    rw [allocateFrom]
    -- a page in use is passed over; the first free one is the least
    split_ifs with hused
    · have hnext : (page + 1).toNat = page.toNat + 1 := by
        rw [UInt32.toNat_add]
        exact Nat.mod_eq_of_lt (by change _ + 1 < 2 ^ 32; omega)
      apply ih
      · omega
      · intro q hq
        have := hnone q hq
        have hne : q ≠ page.toNat := by
          rintro rfl
          rw [hmem.mp hq] at hused
          cases hused
        omega
      · intro q hq
        have := hbelow q hq
        omega
    · right
      exact ⟨page, ⟨hmem.mpr (Bool.eq_false_iff.mpr hused), hnone⟩, rfl⟩

/-- `allocate_page` takes the lowest free page, or returns zero when no page is
free. -/
theorem Sound.allocatePage_eq {p : Pmm} (h : p.Sound) :
    (p.free = ∅ ∧ p.allocatePage = (0, p)) ∨
      ∃ least : UInt32, IsLeast (p.free : Set Nat) least.toNat ∧
        p.allocatePage =
          (least * pageSize, { p.setUsed least with freeCount := p.freeCount - 1 }) := by
  have hpos (q : Nat) (hq : q ∈ p.free) : 1 ≤ q := by
    apply Nat.pos_of_ne_zero
    rintro rfl
    exact h.zero_used hq
  by_cases hhighest : p.highestPage.toNat = 0
  · left
    refine ⟨Finset.eq_empty_of_forall_notMem fun q hq => ?_, ?_⟩
    · have := h.below q hq
      omega
    · rw [allocatePage, hhighest]
      rfl
  · have hle := h.highest_le
    have hone : (1 : UInt32).toNat = 1 := rfl
    apply allocateFrom_eq
    · omega
    · exact hpos
    · intro q hq
      have := h.below q hq
      omega

theorem least_toNat_mul {p : Pmm} {page : UInt32} (h : page.toNat ∈ p.free) :
    (page * pageSize).toNat = page.toNat * 4096 := by
  have hlt := lt_of_mem_free h
  have hmax : maxPages * 4096 = 2 ^ 32 := by decide
  rw [UInt32.toNat_mul]
  exact Nat.mod_eq_of_lt (by change _ * 4096 < 2 ^ 32; omega)

/-- Taking the least free page keeps the state sound. -/
theorem Sound.take {p : Pmm} (h : p.Sound) {page : UInt32} (hpage : page.toNat ∈ p.free) :
    ({ p.setUsed page with freeCount := p.freeCount - 1 } : Pmm).Sound ∧
      ({ p.setUsed page with freeCount := p.freeCount - 1 } : Pmm).free =
        p.free.erase page.toNat := by
  have hfree := p.free_setUsed page
  refine ⟨⟨⟨h.counted.take hpage, ?_, h.highest_le⟩, ?_⟩, hfree⟩
  · intro q hq
    exact h.below q (Finset.mem_of_mem_erase (hfree ▸ hq))
  · intro hzero
    exact h.zero_used (Finset.mem_of_mem_erase (hfree ▸ hzero))

theorem Sound.allocatePage {p : Pmm} (h : p.Sound) : p.allocatePage.2.Sound := by
  rcases h.allocatePage_eq with ⟨-, heq⟩ | ⟨least, hleast, heq⟩
  · rw [heq]
    exact h
  · rw [heq]
    exact (h.take hleast.1).1

/-- An allocation that hands out a page: an aligned address other than zero,
whose page was free. -/
structure Taken (p : Pmm) (address : UInt32) (p' : Pmm) : Prop where
  sound : p'.Sound
  ne_zero : address ≠ 0
  aligned : address.toNat % 4096 = 0
  was_free : address.toNat / 4096 ∈ p.free
  free_eq : p'.free = p.free.erase (address.toNat / 4096)
  highest : p'.highestPage = p.highestPage

theorem Sound.allocatePage_cases {p : Pmm} (h : p.Sound) :
    (p.free = ∅ ∧ p.allocatePage = (0, p)) ∨ Taken p p.allocatePage.1 p.allocatePage.2 := by
  rcases h.allocatePage_eq with hnone | ⟨least, hleast, heq⟩
  · exact .inl hnone
  · right
    have hfree : least.toNat ∈ p.free := hleast.1
    have hnat := least_toNat_mul hfree
    have hpage : (least * pageSize).toNat / 4096 = least.toNat := by omega
    obtain ⟨hsound, hrest⟩ := h.take hfree
    rw [heq]
    refine ⟨hsound, ?_, by simp only; omega, by rwa [hpage], by rwa [hpage], rfl⟩
    intro hzero
    have hzeroNat : (least * pageSize).toNat = 0 := congrArg UInt32.toNat hzero
    exact h.zero_used (by rwa [show least.toNat = 0 by omega] at hfree)

/-- The least free page is handed out. -/
theorem Sound.allocatePage_least {p : Pmm} (h : p.Sound) {page : Nat}
    (hleast : IsLeast (p.free : Set Nat) page) :
    p.allocatePage.1.toNat = page * 4096 ∧ p.allocatePage.2.Sound ∧
      p.allocatePage.2.free = p.free.erase page := by
  rcases h.allocatePage_eq with ⟨hempty, -⟩ | ⟨least, hleast', heq⟩
  · have hpage : page ∈ p.free := hleast.1
    exact absurd (hempty ▸ hpage) (Finset.notMem_empty _)
  · obtain rfl : least.toNat = page := hleast'.unique hleast
    obtain ⟨hsound, hfree⟩ := h.take hleast.1
    rw [heq]
    exact ⟨least_toNat_mul hleast.1, hsound, hfree⟩

/-- `free_page` ignores the call or gives back a page that was in use. -/
theorem Sound.freePage_eq {p : Pmm} (h : p.Sound) (address : UInt32) :
    (p.freePage address = p ∧
        ¬ (1 ≤ address.toNat / 4096 ∧ address.toNat / 4096 < p.highestPage.toNat ∧
          address.toNat / 4096 ∉ p.free)) ∨
      (p.freePage address).Sound ∧
        (p.freePage address).free = insert (address.toNat / 4096) p.free := by
  have hpage : (address / pageSize).toNat = address.toNat / 4096 := UInt32.toNat_div _ _
  have hword := address.toNat_lt
  have hmax : maxPages * 4096 = 2 ^ 32 := by decide
  have hlt : (address / pageSize).toNat < maxPages := by omega
  have hmem := p.mem_free_iff hlt
  unfold Pmm.freePage
  simp only
  -- page zero, pages beyond the highest and free ones are ignored
  split_ifs with hignored
  · left
    refine ⟨rfl, ?_⟩
    rintro ⟨hpos, hbelow, hnot⟩
    rcases hignored with hzero | hbeyond | hfree
    · rw [← hpage, hzero] at hpos
      exact absurd hpos (by decide)
    · rw [UInt32.le_iff_toNat_le] at hbeyond
      omega
    · exact hnot (hpage ▸ hmem.mpr hfree)
  · right
    obtain ⟨hzero, hrest⟩ := not_or.mp hignored
    obtain ⟨hbelow, hused⟩ := not_or.mp hrest
    have hnot : (address / pageSize).toNat ∉ p.free := fun hin => hused (hmem.mp hin)
    have hfree := p.free_setFree hlt
    rw [hpage] at hfree
    rw [UInt32.le_iff_toNat_le] at hbelow
    refine ⟨⟨⟨h.counted.give hlt hnot, ?_, h.highest_le⟩, ?_⟩, hfree⟩
    · intro q hq
      change q < p.highestPage.toNat
      rcases Finset.mem_insert.mp (hfree ▸ hq) with rfl | hold
      · omega
      · exact h.below q hold
    · intro hin
      rcases Finset.mem_insert.mp (hfree ▸ hin) with heq | hold
      · exact hzero (UInt32.toNat_inj.mp (by rw [hpage, ← heq]; rfl))
      · exact h.zero_used hold

theorem highestPage_freePage (p : Pmm) (address : UInt32) :
    (p.freePage address).highestPage = p.highestPage := by
  unfold Pmm.freePage
  simp only
  split_ifs <;> rfl

theorem Sound.freePage {p : Pmm} (h : p.Sound) (address : UInt32) :
    (p.freePage address).Sound := by
  rcases h.freePage_eq address with ⟨heq, -⟩ | ⟨hsound, -⟩
  · rw [heq]
    exact h
  · exact hsound

/-! ## States with the same free pages -/

/-- Pages are handed out from low addresses to high ones. -/
theorem Sound.allocatePage_lt {p : Pmm} (h : p.Sound) (hne : p.allocatePage.1 ≠ 0)
    (hnext : p.allocatePage.2.allocatePage.1 ≠ 0) :
    p.allocatePage.1.toNat < p.allocatePage.2.allocatePage.1.toNat := by
  rcases h.allocatePage_eq with ⟨-, heq⟩ | ⟨least, hleast, heq⟩
  · exact absurd (congrArg Prod.fst heq) hne
  rcases h.allocatePage.allocatePage_eq with ⟨-, heq'⟩ | ⟨next, hnext', heq'⟩
  · exact absurd (congrArg Prod.fst heq') hnext
  have hfree : p.allocatePage.2.free = p.free.erase least.toNat := by
    rw [heq]
    exact (h.take hleast.1).2
  obtain ⟨hapart, hmem⟩ := Finset.mem_erase.mp (hfree ▸ hnext'.1 : next.toNat ∈ p.free.erase _)
  have hle : least.toNat ≤ next.toNat := hleast.2 hmem
  have hfirst : p.allocatePage.1.toNat = least.toNat * 4096 := by
    rw [heq]
    exact least_toNat_mul hleast.1
  have hsecond : p.allocatePage.2.allocatePage.1.toNat = next.toNat * 4096 := by
    rw [heq']
    exact least_toNat_mul hnext'.1
  omega

/-- What no call changes: the bound, and the bits of pages that do not exist. -/
structure Alike (p q : Pmm) : Prop where
  highest : q.highestPage = p.highestPage
  beyond : ∀ page, maxPages ≤ page → getBit q.bitmap page = getBit p.bitmap page

theorem Alike.refl (p : Pmm) : p.Alike p := ⟨rfl, fun _ _ => rfl⟩

theorem Alike.trans {p q r : Pmm} (h : p.Alike q) (h' : q.Alike r) : p.Alike r :=
  ⟨h'.highest.trans h.highest, fun page hpage => (h'.beyond page hpage).trans (h.beyond page hpage)⟩

/-- Apart from what no call changes, the free pages determine the state. -/
theorem Alike.eq {p q : Pmm} (h : p.Alike q) (hp : p.Counted) (hq : q.Counted)
    (hfree : q.free = p.free) : q = p := by
  have hbits : q.bitmap = p.bitmap := by
    apply ext_getBit
    intro page
    by_cases hpage : page < maxPages
    · have hmem : page ∈ q.free ↔ page ∈ p.free := by rw [hfree]
      rw [free, free, mem_clearBits, mem_clearBits, and_iff_right hpage, and_iff_right hpage] at hmem
      rw [Bool.eq_iff_iff, ← Bool.not_eq_false, ← Bool.not_eq_false, hmem]
    · exact h.beyond page (Nat.not_lt.mp hpage)
  have hcount : q.freeCount = p.freeCount := by
    apply UInt32.toNat_inj.mp
    rw [hp, hq, hfree]
  have hhighest := h.highest
  obtain ⟨bitmap, highestPage, freeCount⟩ := q
  simp only at hbits hcount hhighest
  rw [hbits, hcount, hhighest]

theorem Sound.alike_allocatePage {p : Pmm} (h : p.Sound) : p.Alike p.allocatePage.2 := by
  rcases h.allocatePage_eq with ⟨-, heq⟩ | ⟨least, hleast, heq⟩
  · rw [heq]
    exact .refl p
  · rw [heq]
    refine ⟨rfl, fun page hpage => ?_⟩
    have hlt : least.toNat < maxPages := lt_of_mem_free hleast.1
    change getBit (p.setUsed least).bitmap page = _
    rw [setUsed_bitmap, getBit_setBit, decide_eq_false (by omega), Bool.or_false]

theorem Sound.alike_freePage {p : Pmm} (h : p.Sound) (address : UInt32) :
    p.Alike (p.freePage address) := by
  refine ⟨p.highestPage_freePage address, fun page hpage => ?_⟩
  unfold Pmm.freePage
  simp only
  split_ifs with hignored
  · rfl
  · obtain ⟨-, hrest⟩ := not_or.mp hignored
    have hbelow := (not_or.mp hrest).1
    rw [UInt32.le_iff_toNat_le] at hbelow
    have hle := h.highest_le
    change getBit (p.setFree _).bitmap page = _
    rw [setFree_bitmap, getBit_clearBit, decide_eq_false (by omega), Bool.not_false, Bool.and_true]

end Pmm

end LevOS.Memory
