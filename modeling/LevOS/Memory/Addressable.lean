import LevOS.Memory.Intact
import LevOS.Memory.BootMap

/-!
# Pages at their own addresses

The kernel takes the address of a page it was handed for the page itself. That holds of
the pages below 16 MiB, which `init_paging` maps onto themselves, while the allocator
hands out whatever the memory map declares.

## Main definitions

* `Addressable`, a page that the kernel finds at its own address

## Main results

* `initPaging_view`, what the kernel's directory maps after `init_paging`
* `allocatePage_addressable_iff`
-/

namespace LevOS.Memory

open LevOS.Foundation

/-- The address is mapped to itself, and may be written to. -/
def Addressable (m : Memory) (directory address : UInt32) : Prop :=
  ∃ user, view m directory address = some ⟨address, true, user⟩

section Initial

variable {layout : Layout}

/-- The pages below 16 MiB are mapped onto themselves, for the kernel only. -/
theorem initPaging_view (s : Space) {a : UInt32} (ha : a.toNat < 0x1000000) :
    view (initPaging layout s).memory layout.pageDirectory a = some ⟨frameOf a, true, false⟩ :=
  view_intact (initPaging_tables layout s) (initPaging_intact layout s) ha

/-- No page from 16 MiB on is mapped onto itself. -/
theorem initPaging_view_high (s : Space) {a : UInt32} (ha : 0x1000000 ≤ a.toNat) :
    ¬ Addressable (initPaging layout s).memory layout.pageDirectory a := by
  have hlt := a.toNat_lt
  rintro ⟨user, hview⟩
  rw [view_eq] at hview
  by_cases hi : a.toNat / 4194304 < 1023
  · -- the directory has no entry
    rw [entryAt, initPaging_absent s (by omega) hi, mappingOf_absent UInt32.zero_and] at hview
    cases hview
  · -- the directory is its own table, and its entries lead into the kernel image
    have hlast : a.toNat / 4194304 = 1023 := by omega
    have haligned := layout.pageDirectory_aligned
    have hmem := layout.pageDirectory_mem
    have htables := layout.identityTables_mem
    have himage := layout.image_le
    have hself : frameOf (layout.pageDirectory ||| presentFlag ||| writableFlag) =
        layout.pageDirectory := by
      rw [kernelFlags]
      exact frameOf_or_flags haligned (by decide)
    rw [hlast, entryAt, initPaging_recursive, hself, entryAt] at hview
    have hj : a.toNat / 4096 % 1024 < 1024 := Nat.mod_lt _ (by decide)
    set j := a.toNat / 4096 % 1024
    rcases Nat.lt_or_ge j 4 with hlow | hhigh
    · rw [initPaging_directory s hlow] at hview
      have haddress : a = _ := frame_of_mappingOf hview
      rw [frameOf_identityEntry hlow.le] at haddress
      have htable : (tableAddress layout j).toNat = _ := tableAddress_toNat hlow.le
      rw [← haddress] at htable
      omega
    · rcases Nat.lt_or_ge j 1023 with hmiddle | hend
      · rw [initPaging_absent s hhigh hmiddle, mappingOf_zero] at hview
        cases hview
      · rw [show j = 1023 by omega, initPaging_recursive] at hview
        have haddress : a = _ := frame_of_mappingOf hview
        rw [hself] at haddress
        rw [← haddress] at hmem
        omega

theorem initPaging_addressable_iff (s : Space) {a : UInt32} (haligned : a.toNat % 4096 = 0) :
    Addressable (initPaging layout s).memory layout.pageDirectory a ↔ a.toNat < 0x1000000 := by
  constructor
  · intro h
    by_contra hhigh
    exact initPaging_view_high s (Nat.not_lt.mp hhigh) h
  · intro hlow
    refine ⟨false, ?_⟩
    rw [initPaging_view s hlow, frameOf_of_aligned haligned]

end Initial

/-! ## Allocation -/

section Allocation

variable {layout : Layout} {start : Pmm}

theorem PageRun.highestPage_after (h : start.Sound) (calls : List PageCall) (held : List UInt32) :
    (after ⟨start, held⟩ calls).pmm.highestPage = start.highestPage := by
  induction calls generalizing start held with
  | nil => rfl
  | cons call calls ih =>
    cases call with
    | allocate =>
      have hkept : start.allocatePage.2.highestPage = start.highestPage := by
        rcases h.allocatePage_cases with ⟨-, heq⟩ | htaken
        · rw [heq]
        · exact htaken.highest
      exact (ih h.allocatePage (step ⟨start, held⟩ .allocate).held).trans hkept
    | free address =>
      exact (ih (h.freePage address) (held.erase address)).trans
        (start.highestPage_freePage address)

/-- The lowest free page decides whether the next one handed out is addressable. -/
theorem addressable_iff (s : Space) {p : Pmm} (h : p.Sound) :
    (p.allocatePage.1 ≠ 0 →
        Addressable (initPaging layout s).memory layout.pageDirectory p.allocatePage.1) ↔
      p.pmmFreePages = 0 ∨ ∃ page ∈ p.free, page < 0x1000 := by
  have hcount : p.pmmFreePages = 0 ↔ p.free = ∅ := by
    rw [← Finset.card_eq_zero, ← h.counted, ← UInt32.toNat_inj]
    rfl
  rw [hcount]
  rcases h.allocatePage_eq with ⟨hempty, heq⟩ | ⟨least, hleast, heq⟩
  · exact iff_of_true (fun hne => absurd (congrArg Prod.fst heq) hne) (.inl hempty)
  · have hnat : p.allocatePage.1.toNat = least.toNat * 4096 := by
      rw [heq]
      exact Pmm.least_toNat_mul hleast.1
    have hne : p.allocatePage.1 ≠ 0 := by
      intro hzero
      rw [hzero, UInt32.toNat_zero] at hnat
      exact h.zero_used (by rw [show 0 = least.toNat by omega]; exact hleast.1)
    have hnonempty : p.free ≠ ∅ := fun hempty =>
      Finset.notMem_empty _ (hempty ▸ hleast.1 : least.toNat ∈ (∅ : Finset Nat))
    rw [initPaging_addressable_iff s (by omega), hnat, or_iff_right hnonempty,
      imp_iff_right hne]
    constructor
    · intro hlow
      exact ⟨least.toNat, hleast.1, by omega⟩
    · rintro ⟨page, hpage, hlow⟩
      have hle : least.toNat ≤ page := hleast.2 hpage
      omega

/-- The pages that are handed out are addressable as long as one below 16 MiB is left; and
whatever is called, exactly if the allocator looks no further. -/
theorem allocatePage_addressable_iff (layout : Layout) {memory : Pmm → Foundation.Memory}
    {info : UInt32} {fuel : Nat}
    (hinit : Pmm.pmmInit memory layout.kernelEnd info fuel = some start) (s : Space) :
    (∀ calls, let p := (PageRun.after ⟨start, []⟩ calls).pmm
      (p.allocatePage.1 ≠ 0 →
          Addressable (initPaging layout s).memory layout.pageDirectory p.allocatePage.1) ↔
        p.pmmFreePages = 0 ∨ ∃ page ∈ p.free, page < 0x1000) ∧
      ((∀ calls, let p := (PageRun.after ⟨start, []⟩ calls).pmm
        p.allocatePage.1 ≠ 0 →
          Addressable (initPaging layout s).memory layout.pageDirectory p.allocatePage.1) ↔
        start.highestPage.toNat ≤ 0x1000) := by
  have hstart := Pmm.pmmInit_sound hinit
  have hsound (calls : List PageCall) : (PageRun.after ⟨start, []⟩ calls).pmm.Sound :=
    PageRun.sound_after hstart calls
  refine ⟨fun calls => addressable_iff s (hsound calls), ?_⟩
  constructor
  · intro hall
    by_contra hhigh
    -- give back the first page above 16 MiB, and allocate until it is handed out
    have hfree : 0x1000 ∈ (start.freePage 0x1000000).free := by
      rcases hstart.freePage_eq 0x1000000 with ⟨hsame, hignored⟩ | ⟨-, hinsert⟩
      · rw [hsame]
        by_contra hused
        exact hignored ⟨by decide, Nat.not_le.mp hhigh, hused⟩
      · rw [hinsert]
        exact Finset.mem_insert_self _ _
    obtain ⟨n, hn⟩ := PageRun.exists_allocate (hstart.freePage 0x1000000) hfree
      (([] : List UInt32).erase 0x1000000)
    have haddress := hall (.free 0x1000000 :: List.replicate n .allocate)
    set held := ([] : List UInt32).erase 0x1000000
    set p := (PageRun.after ⟨start.freePage 0x1000000, held⟩ (List.replicate n .allocate)).pmm
    change p.allocatePage.1 ≠ 0 → Addressable _ _ p.allocatePage.1 at haddress
    refine initPaging_view_high s (by rw [hn]) (haddress fun hzero => ?_)
    rw [hzero] at hn
    exact absurd hn (by decide)
  · intro hlow calls p hne
    refine (addressable_iff s (hsound calls)).mpr ?_ hne
    rcases (hsound calls).allocatePage_cases with ⟨-, heq⟩ | htaken
    · exact absurd (congrArg Prod.fst heq) hne
    · have hbelow := (hsound calls).below _ htaken.was_free
      rw [PageRun.highestPage_after hstart] at hbelow
      exact .inr ⟨_, htaken.was_free, by omega⟩

/-- The second page that is handed out after a boot without a memory map. -/
theorem allocatePage_addressable_iff_sample :
    ∃ p, Pmm.pmmInit (fun _ _ => 0) sampleLayout.kernelEnd 0 0 = some p ∧
      Addressable (initPaging sampleLayout ⟨fun _ => 0, 0, p⟩).memory sampleLayout.pageDirectory
        (PageRun.after ⟨p, []⟩ [.allocate]).pmm.allocatePage.1 := by
  obtain ⟨p, hp⟩ := noMap_boots
  obtain ⟨hfree, haddress⟩ := noMap_allocatePage_next hp
  have hiff := (allocatePage_addressable_iff sampleLayout hp ⟨fun _ => 0, 0, p⟩).1 [.allocate]
  refine ⟨p, hp, hiff.mpr (.inr ⟨0x121, hfree, by decide⟩) fun hzero => ?_⟩
  have hnonzero : (0x121000 : UInt32) = 0 := haddress.symm.trans hzero
  exact absurd hnonzero (by decide)

/-- A memory map with nothing but 16 MiB from 16 MiB on: a page that is handed out is not
mapped. -/
theorem allocatePage_above_identity :
    ∃ p, Pmm.pmmInit (fun _ => Pmm.mapBlock 0x1000000 0x1000000) sampleLayout.kernelEnd
        0x200000 8 = some p ∧
      ¬ ∀ calls, let q := (PageRun.after ⟨p, []⟩ calls).pmm
        q.allocatePage.1 ≠ 0 →
          Addressable (initPaging sampleLayout ⟨fun _ => 0, 0, p⟩).memory
            sampleLayout.pageDirectory q.allocatePage.1 := by
  obtain ⟨p, hp, hfree⟩ := Pmm.pmmInit_mapBlock (show (0x1000000 : UInt32) ≠ 0 by decide)
    (show 4096 ≤ (0x1000000 : UInt32).toNat + _ by decide) sampleLayout.kernelEnd
  have hpage : 0x1000 ∈ p.free := (hfree 0x1000).mpr (by decide)
  refine ⟨p, hp, fun hall => ?_⟩
  obtain ⟨n, hn⟩ := PageRun.exists_allocate (Pmm.pmmInit_sound hp) hpage []
  refine initPaging_view_high _ (by rw [hn]) (hall (List.replicate n .allocate) fun hzero => ?_)
  rw [hzero] at hn
  exact absurd hn (by decide)

end Allocation

end LevOS.Memory
