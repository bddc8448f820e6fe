import LevOS.Memory.Mappings

/-!
# The first mapping

A directory as `init_paging` left it maps the pages below 16 MiB onto themselves, for the
kernel alone, and nothing up to the last 4 MiB, where it maps itself. What the kernel
stores below 16 MiB then goes where it says, and anything above faults.

## Main definitions

* `TablesIntact`, `Intact`, tables and directories as `init_paging` left them

## Main results

* `view_intact`, `paged_intact`, `plain_intact`
* `view_kernel_congr`, what keeps the mappings of the kernel's directory
-/

namespace LevOS.Memory

open LevOS.Foundation

/-- All entries of the identity tables are as `init_paging` left them. -/
def TablesIntact (layout : Layout) (m : Memory) : Prop :=
  ∀ t < 4, ∀ e < 1024, load32 m (tableAddress layout t + UInt32.ofNat (4 * e)) = pageEntry t e

/-- So are the entries of the directory, up to the one that leads to the directory itself. -/
def Intact (layout : Layout) (m : Memory) (directory : UInt32) : Prop :=
  ∀ t < 1023, load32 m (directory + UInt32.ofNat (4 * t)) =
    if t < 4 then identityEntry layout t else 0

/-- An address below 16 MiB. -/
def LowAddress (a : UInt32) : Prop := a.toNat < 0x1000000

section Entries

variable {layout : Layout} {m m' : Memory} {directory a : UInt32}

theorem Intact.entry (h : Intact layout m directory) {t : Nat} (ht : t < 4) :
    load32 m (directory + UInt32.ofNat (4 * t)) = identityEntry layout t := by
  rw [h t (by omega), if_pos ht]

theorem Intact.absent (h : Intact layout m directory) {t : Nat} (hlow : 4 ≤ t) (ht : t < 1023) :
    load32 m (directory + UInt32.ofNat (4 * t)) = 0 := by
  rw [h t ht, if_neg (by omega)]

theorem Intact.leads (h : Intact layout m directory) : LeadsTo layout m directory :=
  fun _ ht => .inl (h.entry ht)

theorem TablesIntact.kept (h : TablesIntact layout m) : TablesKept layout m :=
  fun t ht e he _ => h t ht e he

theorem TablesIntact.congr (h : TablesIntact layout m)
    (hframe : ∀ a, ¬ Outside a layout.identityTables 16384 → m' a = m a) :
    TablesIntact layout m' := by
  intro t ht e he
  rw [load32_table_congr hframe ht he]
  exact h t ht e he

theorem Intact.congr (h : Intact layout m directory) (haligned : directory.toNat % 4096 = 0)
    (hframe : ∀ a, ¬ Outside a directory 4096 → m' a = m a) : Intact layout m' directory := by
  intro t ht
  rw [load32_entry_congr haligned hframe (by omega)]
  exact h t ht

/-! ## Views -/

/-- The pages below 16 MiB are mapped onto themselves, for the kernel only. -/
theorem view_intact (htables : TablesIntact layout m) (h : Intact layout m directory)
    (ha : LowAddress a) : view m directory a = some ⟨frameOf a, true, false⟩ := by
  have ht : a.toNat / 4194304 < 4 := by
    unfold LowAddress at ha
    omega
  have he : a.toNat / 4096 % 1024 < 1024 := Nat.mod_lt _ (by decide)
  obtain ⟨hpresent, hwritable, -⟩ := identityEntry_flags layout ht.le
  have hpage := page_toNat ht he
  have hframe : (UInt32.ofNat (a.toNat / 4194304) * 1024 +
      UInt32.ofNat (a.toNat / 4096 % 1024)) * 0x1000 = frameOf a := by
    apply UInt32.toNat_inj.mp
    rw [frameOf_toNat, hpage]
    omega
  rw [view_eq, entryAt, h.entry ht, frameOf_identityEntry ht.le, entryAt, htables _ ht _ he,
    pageEntry, kernelFlags, hframe]
  exact mappingOf_flags hpresent hwritable (fun hmode => absurd hmode (by decide)) a

/-- From there on nothing is mapped, up to the last 4 MiB. -/
theorem view_absent (h : Intact layout m directory) (hlow : ¬ LowAddress a)
    (ha : a.toNat < 0xFFC00000) : view m directory a = none := by
  have hi : 4 ≤ a.toNat / 4194304 := by
    unfold LowAddress at hlow
    omega
  rw [view_eq, entryAt, h.absent hi (by omega)]
  exact mappingOf_absent UInt32.zero_and _

/-- The kernel finds what is below 16 MiB at its own address. -/
theorem paged_intact (htables : TablesIntact layout m) (h : Intact layout m directory)
    (ha : LowAddress a) : paged directory m a = some a := by
  have haddress : frameOf a + (a &&& 0xFFF) = a := by
    have hlt := a.toNat_lt
    apply UInt32.toNat_inj.mp
    rw [UInt32.toNat_add, frameOf_toNat, offset_toNat]
    omega
  rw [paged, translate_eq_view, view_intact htables h ha]
  exact congrArg some haddress

theorem paged_absent (h : Intact layout m directory) (hlow : ¬ LowAddress a)
    (ha : a.toNat < 0xFFC00000) : paged directory m a = none := by
  rw [paged, translate_eq_view, view_absent h hlow ha]
  rfl

/-- The mappings of the kernel's directory stay the same, those of its own entries
included, as long as its page and the tables do. -/
theorem view_kernel_congr (h : Intact layout m layout.pageDirectory)
    (hself : load32 m (layout.pageDirectory + UInt32.ofNat (4 * 1023)) =
      (layout.pageDirectory ||| presentFlag ||| writableFlag))
    (htables : ∀ a, ¬ Outside a layout.identityTables 16384 → m' a = m a)
    (hdirectory : ∀ a, ¬ Outside a layout.pageDirectory 4096 → m' a = m a) (a : UInt32) :
    view m' layout.pageDirectory a = view m layout.pageDirectory a := by
  have hlt := a.toNat_lt
  have haligned := layout.pageDirectory_aligned
  have hi : a.toNat / 4194304 < 1024 := by omega
  have hj : a.toNat / 4096 % 1024 < 1024 := Nat.mod_lt _ (by decide)
  have hentry (t : Nat) (ht : t < 1024) :
      entryAt m' layout.pageDirectory t = entryAt m layout.pageDirectory t :=
    load32_entry_congr haligned hdirectory ht
  rw [view_eq, view_eq, hentry _ hi]
  by_cases hlow : a.toNat / 4194304 < 4
  · have hframe : frameOf (entryAt m layout.pageDirectory (a.toNat / 4194304)) =
        tableAddress layout (a.toNat / 4194304) := by
      rw [entryAt, h.entry hlow, frameOf_identityEntry hlow.le]
    rw [hframe]
    exact congrArg (mappingOf _) (load32_table_congr htables hlow hj)
  · by_cases hlast : a.toNat / 4194304 < 1023
    · have habsent : entryAt m layout.pageDirectory (a.toNat / 4194304) = 0 :=
        h.absent (by omega) hlast
      rw [habsent, mappingOf_absent UInt32.zero_and, mappingOf_absent UInt32.zero_and]
    · -- the directory is its own table
      have hframe : frameOf (entryAt m layout.pageDirectory (a.toNat / 4194304)) =
          layout.pageDirectory := by
        rw [show a.toNat / 4194304 = 1023 by omega, entryAt, hself, kernelFlags]
        exact frameOf_or_flags haligned (by decide)
      rw [hframe, hentry _ hj]

end Entries

/-! ## Writes -/

section Writes

variable {layout : Layout}

/-- Under `paged` the kernel reaches what is below 16 MiB as it is, as long as it does not
write to the tables and the directory in force. -/
theorem plain_intact {cr3 : UInt32} (hcr3 : cr3.toNat % 4096 = 0) :
    Plain paged cr3 (fun m => TablesIntact layout m ∧ Intact layout m cr3) LowAddress
      (fun a => LowAddress a ∧ Outside a layout.identityTables 16384 ∧ Outside a cr3 4096) := by
  have hmem := layout.identityTables_mem
  have haligned := layout.identityTables_aligned
  constructor
  · exact fun m a hgood ha => paged_intact hgood.1 hgood.2 ha
  · exact fun m a hgood ha => paged_intact hgood.1 hgood.2 ha.1
  · rintro m a value ⟨htables, hintact⟩ ⟨hlow, htable, hdirectory⟩ hword
    unfold LowAddress at hlow
    have hframe (b : UInt32) (hb : Outside b a 4) : store32 m a value b = m b :=
      store32_outside hb (by omega)
    refine ⟨htables.congr fun b hb => hframe b ?_, hintact.congr hcr3 fun b hb => hframe b ?_⟩
    · unfold Outside at *
      omega
    · unfold Outside at *
      omega
  · rintro m a value ⟨htables, hintact⟩ ⟨-, htable, hdirectory⟩
    have hframe (b : UInt32) (hb : b ≠ a) : Function.update m a value b = m b :=
      Function.update_of_ne hb _ _
    refine ⟨htables.congr fun b hb => hframe b ?_, hintact.congr hcr3 fun b hb => hframe b ?_⟩
    · rintro rfl
      exact hb htable
    · rintro rfl
      exact hb hdirectory

end Writes

/-! ## The start -/

section Initial

variable (layout : Layout) (s : Space)

theorem initPaging_tables : TablesIntact layout (initPaging layout s).memory :=
  fun _ ht _ he => initPaging_table s ht he

theorem initPaging_intact : Intact layout (initPaging layout s).memory layout.pageDirectory := by
  intro t ht
  split_ifs with hlow
  · exact initPaging_directory s hlow
  · exact initPaging_absent s (Nat.not_lt.mp hlow) ht

end Initial

end LevOS.Memory
