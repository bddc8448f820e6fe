import LevOS.Memory.UserRange
import LevOS.Memory.PageSet

/-!
# Kernel addresses

Kernel code reaches memory through the directory in force. Every directory leads to the
four identity tables, so the kernel finds the pages below 16 MiB at their own addresses,
all but two: the mappings of user pages replace the entries at both ends of the second
table. As long as nothing else is written to the tables, the `paged` policy is plain.

## Main definitions

* `IdentityPage`, a page that the kernel always finds at its own address
* `TablesKept`, `LeadsTo`, what keeps it so
* `Pmm.LowPages`, an allocator that is about to hand out such pages

## Main results

* `paged_identity`, `plain_paged`
* `Pmm.LowPages.allocate`
-/

namespace LevOS.Memory

open LevOS.Foundation

/-! ## Slots -/

theorem mask_toNat (x : UInt32) : (x &&& 0x3FF).toNat = x.toNat % 1024 := by
  rw [UInt32.toNat_and]
  exact Nat.and_two_pow_sub_one_eq_mod x.toNat 10

theorem slot_toNat (x : UInt32) : ((x &&& 0x3FF) * 4).toNat = 4 * (x.toNat % 1024) := by
  rw [UInt32.toNat_mul, mask_toNat, show (4 : UInt32).toNat = 4 from rfl]
  omega

/-- The upper ten bits of an address select the directory entry. -/
theorem directorySlot_eq (directory a : UInt32) :
    directorySlot directory a = directory + UInt32.ofNat (4 * (a.toNat / 4194304)) := by
  have hlt := a.toNat_lt
  refine congrArg (directory + ·) (UInt32.toNat_inj.mp ?_)
  rw [slot_toNat, show (a >>> 22).toNat = a.toNat / 2 ^ 22 from shiftRight_toNat a 22 (by decide),
    UInt32.toNat_ofNat']
  omega

/-- The ten bits below them select the table entry. -/
theorem tableSlot_eq (table a : UInt32) :
    tableSlot table a = table + UInt32.ofNat (4 * (a.toNat / 4096 % 1024)) := by
  refine congrArg (table + ·) (UInt32.toNat_inj.mp ?_)
  rw [slot_toNat, show (a >>> 12).toNat = a.toNat / 2 ^ 12 from shiftRight_toNat a 12 (by decide),
    UInt32.toNat_ofNat']
  omega

theorem offset_toNat (a : UInt32) : (a &&& 0xFFF).toNat = a.toNat % 4096 := by
  rw [UInt32.toNat_and]
  exact Nat.and_two_pow_sub_one_eq_mod a.toNat 12

/-! ## Pages at their own addresses -/

/-- A page that the kernel always finds at its own address: it is below 16 MiB, and its
entry is not one of the two that user mappings replace. -/
def IdentityPage (page : Nat) : Prop := page < 4096 ∧ page ≠ 0x400 ∧ page ≠ 0x7FF

/-- The entries of the other pages are as `init_paging` left them. -/
def TablesKept (layout : Layout) (m : Memory) : Prop :=
  ∀ t < 4, ∀ e < 1024, IdentityPage (1024 * t + e) →
    load32 m (tableAddress layout t + UInt32.ofNat (4 * e)) = pageEntry t e

/-- The directory leads to the identity tables, perhaps for user code too. -/
def LeadsTo (layout : Layout) (m : Memory) (directory : UInt32) : Prop :=
  ∀ t < 4, load32 m (directory + UInt32.ofNat (4 * t)) = identityEntry layout t ∨
    load32 m (directory + UInt32.ofNat (4 * t)) = identityEntry layout t ||| userFlag

section Translation

variable {layout : Layout} {m m' : Memory} {directory a : UInt32}

theorem LeadsTo.entry (h : LeadsTo layout m directory) {t : Nat} (ht : t < 4) :
    load32 m (directory + UInt32.ofNat (4 * t)) &&& presentFlag ≠ 0 ∧
      frameOf (load32 m (directory + UInt32.ofNat (4 * t))) = tableAddress layout t := by
  rcases h t ht with hentry | hentry
  · rw [hentry]
    exact ⟨identityEntry_present ht.le, frameOf_identityEntry ht.le⟩
  · rw [hentry]
    exact ⟨userEntry_present ht.le, frameOf_userEntry ht.le⟩

theorem page_toNat {t e : Nat} (ht : t < 4) (he : e < 1024) :
    ((UInt32.ofNat t * 1024 + UInt32.ofNat e) * 0x1000).toNat = 4096 * (1024 * t + e) := by
  have hliteral : (1024 : UInt32).toNat = 1024 ∧ (0x1000 : UInt32).toNat = 4096 := ⟨rfl, rfl⟩
  rw [UInt32.toNat_mul, UInt32.toNat_add, UInt32.toNat_mul, hliteral.1, hliteral.2,
    UInt32.toNat_ofNat', UInt32.toNat_ofNat']
  omega

theorem pageEntry_spec {t e : Nat} (ht : t < 4) (he : e < 1024) :
    pageEntry t e &&& presentFlag ≠ 0 ∧ (frameOf (pageEntry t e)).toNat = 4096 * (1024 * t + e) := by
  have hpage := page_toNat ht he
  have haligned : ((UInt32.ofNat t * 1024 + UInt32.ofNat e) * 0x1000).toNat % 4096 = 0 := by omega
  rw [pageEntry, UInt32.or_assoc]
  refine ⟨?_, ?_⟩
  · rw [or_flags_and haligned (by decide)]
    decide
  · rw [frameOf_or_flags haligned (by decide), hpage]

/-- The kernel finds an identity page at its own address. -/
theorem paged_identity (htables : TablesKept layout m) (hleads : LeadsTo layout m directory)
    (ha : IdentityPage (a.toNat / 4096)) : paged directory m a = some a := by
  have ht : a.toNat / 4194304 < 4 := by
    have := ha.1
    omega
  have he : a.toNat / 4096 % 1024 < 1024 := Nat.mod_lt _ (by decide)
  have hpage : 1024 * (a.toNat / 4194304) + a.toNat / 4096 % 1024 = a.toNat / 4096 := by omega
  obtain ⟨hpresent, hframe⟩ := hleads.entry ht
  obtain ⟨hpresent', hframe'⟩ := pageEntry_spec ht he
  have hword := htables _ ht _ he (hpage.symm ▸ ha)
  have haddress : frameOf (pageEntry (a.toNat / 4194304) (a.toNat / 4096 % 1024)) +
      (a &&& 0xFFF) = a := by
    have hlt := a.toNat_lt
    apply UInt32.toNat_inj.mp
    rw [UInt32.toNat_add, hframe', offset_toNat, hpage]
    omega
  rw [paged, Memory.translate]
  simp only [directorySlot_eq, tableSlot_eq]
  rw [if_neg hpresent, hframe, hword, if_neg hpresent', haddress, Option.map_some]

/-! ## Writes -/

/-- What the kernel may write to: one of the two entries, or an identity page that is
neither a table nor the directory in force. -/
def Writable (layout : Layout) (cr3 a : UInt32) : Prop :=
  IdentityPage (a.toNat / 4096) ∧
    (a = tableAddress layout 1 ∨ a = tableAddress layout 1 + 4092 ∨
      Outside a layout.identityTables 16384 ∧ Outside a cr3 4096)

/-- A directory in a page of its own. -/
def Apart (layout : Layout) (directory : UInt32) : Prop :=
  directory.toNat % 4096 = 0 ∧ (directory.toNat + 4096 ≤ layout.identityTables.toNat ∨
    layout.identityTables.toNat + 16384 ≤ directory.toNat)

/-- Memory that keeps the tables keeps their entries. -/
theorem load32_table_congr (hframe : ∀ a, ¬ Outside a layout.identityTables 16384 → m' a = m a)
    {t e : Nat} (ht : t < 4) (he : e < 1024) :
    load32 m' (tableAddress layout t + UInt32.ofNat (4 * e)) =
      load32 m (tableAddress layout t + UInt32.ofNat (4 * e)) := by
  have hmem := layout.identityTables_mem
  have himage := layout.image_le
  have htable : (tableAddress layout t).toNat = layout.identityTables.toNat + 4096 * t :=
    tableAddress_toNat ht.le
  have hentry : (tableAddress layout t + UInt32.ofNat (4 * e)).toNat =
      layout.identityTables.toNat + 4096 * t + 4 * e := by
    rw [toNat_add_ofNat (by omega), htable]
  apply load32_congr
  intro i hi
  apply hframe
  have haddress : (tableAddress layout t + UInt32.ofNat (4 * e) + UInt32.ofNat i).toNat =
      layout.identityTables.toNat + 4096 * t + 4 * e + i := by
    rw [toNat_add_ofNat (by omega), hentry]
  unfold Outside
  omega

theorem TablesKept.congr (h : TablesKept layout m)
    (hframe : ∀ a, ¬ Outside a layout.identityTables 16384 → m' a = m a) : TablesKept layout m' := by
  intro t ht e he hpage
  rw [load32_table_congr hframe ht he]
  exact h t ht e he hpage

theorem load32_entry_congr (haligned : directory.toNat % 4096 = 0)
    (hframe : ∀ a, ¬ Outside a directory 4096 → m' a = m a) {t : Nat} (ht : t < 1024) :
    load32 m' (directory + UInt32.ofNat (4 * t)) = load32 m (directory + UInt32.ofNat (4 * t)) := by
  have hlt := directory.toNat_lt
  have hslot : (directory + UInt32.ofNat (4 * t)).toNat = directory.toNat + 4 * t :=
    toNat_add_ofNat (by omega)
  apply load32_congr
  intro i hi
  apply hframe
  have haddress : (directory + UInt32.ofNat (4 * t) + UInt32.ofNat i).toNat =
      directory.toNat + 4 * t + i := by
    rw [toNat_add_ofNat (by omega), hslot]
  unfold Outside
  omega

theorem LeadsTo.congr (h : LeadsTo layout m directory) (haligned : directory.toNat % 4096 = 0)
    (hframe : ∀ a, ¬ Outside a directory 4096 → m' a = m a) : LeadsTo layout m' directory := by
  intro t ht
  rw [load32_entry_congr haligned hframe (by omega)]
  exact h t ht

/-- Writes of the kernel keep the tables and the directory in force. -/
theorem Writable.keeps {cr3 : UInt32} (hcr3 : Apart layout cr3) (ha : Writable layout cr3 a)
    {n : Nat} (hn : n = 1 ∨ n = 4 ∧ a.toNat % 4 = 0) (hframe : ∀ b, Outside b a n → m' b = m b)
    (htables : TablesKept layout m) (hleads : LeadsTo layout m cr3) :
    TablesKept layout m' ∧ LeadsTo layout m' cr3 := by
  have hmem := layout.identityTables_mem
  have himage := layout.image_le
  have haligned := layout.identityTables_aligned
  have htable : (tableAddress layout 1).toNat = layout.identityTables.toNat + 4096 * 1 :=
    tableAddress_toNat (by decide)
  have hlast : (tableAddress layout 1 + 4092).toNat = layout.identityTables.toNat + 8188 := by
    rw [show (4092 : UInt32) = UInt32.ofNat 4092 from rfl, toNat_add_ofNat (by omega), htable]
  obtain ⟨hidentity, hplace⟩ := ha
  have hsmall := hidentity.1
  obtain ⟨hcaligned, hcapart⟩ := hcr3
  have hclt := cr3.toNat_lt
  -- the two entries of table one that may be written map no identity page
  have hplace' : a.toNat = layout.identityTables.toNat + 4096 ∨
      a.toNat = layout.identityTables.toNat + 8188 ∨
      Outside a layout.identityTables 16384 ∧ Outside a cr3 4096 := by
    rcases hplace with rfl | rfl | houtside
    · exact .inl htable
    · exact .inr (.inl hlast)
    · exact .inr (.inr houtside)
  unfold Outside at hplace'
  refine ⟨?_, hleads.congr hcaligned fun b hb => hframe b ?_⟩
  · intro t ht e he hpage
    have hbase : (tableAddress layout t).toNat = layout.identityTables.toNat + 4096 * t :=
      tableAddress_toNat ht.le
    have hentry : (tableAddress layout t + UInt32.ofNat (4 * e)).toNat =
        layout.identityTables.toNat + 4096 * t + 4 * e := by
      rw [toNat_add_ofNat (by omega), hbase]
    rw [← htables t ht e he hpage]
    obtain ⟨-, hfirst, hend⟩ := hpage
    exact load32_of_outside hframe (by omega) (by omega)
  · unfold Outside at hb ⊢
    omega

/-- Under `paged` the kernel reaches identity pages as they are, as long as the tables and
the directory in force are kept. -/
theorem plain_paged {cr3 : UInt32} (hcr3 : Apart layout cr3) :
    Plain paged cr3 (fun m => TablesKept layout m ∧ LeadsTo layout m cr3)
      (fun a => IdentityPage (a.toNat / 4096)) (Writable layout cr3) := by
  constructor
  · exact fun m a hgood ha => paged_identity hgood.1 hgood.2 ha
  · exact fun m a hgood ha => paged_identity hgood.1 hgood.2 ha.1
  · intro m a value hgood ha haligned
    have hsmall := ha.1.1
    have hframe (b : UInt32) (hb : Outside b a 4) : store32 m a value b = m b :=
      store32_outside hb (by omega)
    exact ha.keeps hcr3 (.inr ⟨rfl, haligned⟩) hframe hgood.1 hgood.2
  · intro m a value hgood ha
    have hframe (b : UInt32) (hb : Outside b a 1) : Function.update m a value b = m b := by
      apply Function.update_of_ne
      rintro rfl
      unfold Outside at hb
      omega
    exact ha.keeps hcr3 (.inl rfl) hframe hgood.1 hgood.2

end Translation

/-! ## Allocation -/

/-- The lowest free pages are identity pages. -/
def Pmm.LowPages (p : Pmm) (n : Nat) : Prop :=
  ∀ page ∈ p.free, (p.free.filter (· < page)).card < n → IdentityPage page

namespace Pmm

variable {p : Pmm} {n : Nat}

/-- An allocation takes at most one of the pages below a bound. -/
theorem Sound.card_below_allocate (h : p.Sound) (bound : Nat) :
    (p.free.filter (· < bound)).card ≤ (p.allocatePage.2.free.filter (· < bound)).card + 1 := by
  rcases h.allocatePage_cases with ⟨-, heq⟩ | htaken
  · rw [heq]
    exact Nat.le_succ _
  · rw [htaken.free_eq, Finset.filter_erase]
    generalize p.allocatePage.1.toNat / 4096 = page
    have hcard := Finset.pred_card_le_card_erase (s := p.free.filter (· < bound)) (a := page)
    omega

/-- The allocator hands out the lowest free page. -/
theorem LowPages.allocate (h : p.LowPages (n + 1)) (hsound : p.Sound)
    (hne : p.allocatePage.1 ≠ 0) :
    IdentityPage (p.allocatePage.1.toNat / 4096) ∧ p.allocatePage.2.LowPages n := by
  rcases hsound.allocatePage_eq with ⟨-, heq⟩ | ⟨least, hleast, heq⟩
  · rw [heq] at hne
    exact absurd rfl hne
  have hnat := least_toNat_mul hleast.1
  have hpage : (least * pageSize).toNat / 4096 = least.toNat := by omega
  have htaken : p.allocatePage.2.free = p.free.erase least.toNat := by
    rw [heq]
    exact (hsound.take hleast.1).2
  refine ⟨?_, fun page hmem hcard => ?_⟩
  · rw [heq, hpage]
    refine h _ hleast.1 ?_
    have hnone : p.free.filter (· < least.toNat) = ∅ :=
      Finset.filter_eq_empty_iff.mpr fun q hq => Nat.not_lt.mpr (hleast.2 hq)
    rw [hnone, Finset.card_empty]
    exact Nat.succ_pos n
  · rw [htaken] at hmem hcard
    refine h page (Finset.mem_of_mem_erase hmem) ?_
    have hbelow := hsound.card_below_allocate page
    rw [htaken] at hbelow
    exact Nat.lt_of_le_of_lt hbelow (Nat.succ_lt_succ hcard)

/-- With enough pages free below 4 MiB, the lowest ones are there. -/
theorem lowPages_of_card (h : n ≤ (p.free.filter (· < 0x400)).card) : p.LowPages n := by
  intro page hmem hcard
  have hlt : page < 0x400 := by
    by_contra hge
    have hsubset : p.free.filter (· < 0x400) ⊆ p.free.filter (· < page) :=
      Finset.monotone_filter_right _ fun q _ hq => Nat.lt_of_lt_of_le hq (Nat.not_lt.mp hge)
    have := Finset.card_le_card hsubset
    omega
  unfold IdentityPage
  omega

end Pmm

end LevOS.Memory
