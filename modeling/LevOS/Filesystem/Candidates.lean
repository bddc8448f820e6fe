import LevOS.Filesystem.DotPaths

/-!
# Candidate volumes

`fat32_mount` chooses a volume among sector zero and the starts of the four partition
entries, and then validates the boot sector of its choice. The filter for the choice is
looser than the validation: a boot sector that only looks like one is chosen, fails, and
no candidate after it is tried.

## Main definitions

* `ValidVolume`, a boot sector that passes every validation
* `Candidate`, `candidates`, the places where a volume may start, and the order in which
  they are tried
* `eligible`, the filter for the choice

## Main results

* `establishGeometry_ok_iff`, the second validation in exact arithmetic
* `fat32Mount_ok_iff`, a mount chooses the first eligible candidate
* `fat32Mount_complete_iff`
-/

namespace LevOS.Filesystem

open LevOS.Drivers

variable {ω : Type}

/-! ## Valid volumes -/

/-- The number of sectors of the volume. -/
def totalSectors (boot : Buffer) : Nat := (fat32 boot 32).toNat

/-- The volume-relative start of the data area. -/
def dataAreaStart (boot : Buffer) : Nat :=
  (fat16 boot 14).toNat + (boot 16).toNat * (fat32 boot 36).toNat

/-- The number of whole clusters in the data area. -/
def wholeClusters (boot : Buffer) : Nat :=
  (totalSectors boot - dataAreaStart boot) / (boot 13).toNat

/-- The first cluster of the root directory. -/
def rootDirectory (boot : Buffer) : UInt32 := fat32 boot 44 &&& 0x0FFFFFFF

/-- A boot sector that passes every validation of `fat32_mount`. -/
structure ValidVolume (device : BlockDevice ω) (volume : VolumeExtent) (boot : Buffer) : Prop where
  looks : looksLikeFat32Bpb boot device.sectorSize = true
  table_size : fat16 boot 22 = 0
  version : fat16 boot 42 = 0
  signature : boot 66 = 0x28 ∨ boot 66 = 0x29
  root_bits : fat32 boot 44 &&& 0xF0000000 = 0
  root_ge : 2 ≤ (rootDirectory boot).toNat
  fits_word : volume.start.toNat + totalSectors boot < 2 ^ 32
  fits_entry : volume.sectors ≠ 0 → totalSectors boot ≤ volume.sectors.toNat
  fits_device : device.sectorCount ≠ 0 →
    volume.start.toNat + totalSectors boot ≤ device.sectorCount.toNat
  data_lt : dataAreaStart boot < totalSectors boot
  clusters_pos : 0 < wholeClusters boot
  clusters_le : wholeClusters boot ≤ 0x0FFFFFF5
  root_lt : (rootDirectory boot).toNat - 2 < wholeClusters boot
  table_covers : wholeClusters boot + 2 ≤
    (fat32 boot 36).toNat * (fat16 boot 11).toUInt32.toNat / 4

/-- What the first validation says about the fields that the second looks at again. -/
structure Looks (boot : Buffer) (sectorSize : UInt32) : Prop where
  size_eq : (fat16 boot 11).toUInt32 = sectorSize
  size_ge : ¬ (fat16 boot 11).toUInt32 < 512
  size_le : ¬ maxSectorSize < (fat16 boot 11).toUInt32
  size_power : powerOfTwo (fat16 boot 11).toUInt32 = true
  cluster_power : powerOfTwo (boot 13).toUInt32 = true
  cluster_le : ¬ 128 < boot 13
  reserved : fat16 boot 14 ≠ 0
  tables : boot 16 ≠ 0 ∧ ¬ 2 < boot 16
  no_root_entries : fat16 boot 17 = 0
  no_small_total : fat16 boot 19 = 0
  total : fat32 boot 32 ≠ 0
  table_sectors : fat32 boot 36 ≠ 0

theorem looks_of_looksLike {boot : Buffer} {sectorSize : UInt32}
    (h : looksLikeFat32Bpb boot sectorSize = true) : Looks boot sectorSize := by
  unfold looksLikeFat32Bpb at h
  split_ifs at h
  simp only [Bool.not_eq_true', Bool.or_eq_false_iff, bne_eq_false_iff_eq, decide_eq_false_iff_not,
    Bool.not_eq_false', beq_eq_false_iff_ne] at h
  obtain ⟨⟨⟨⟨⟨⟨⟨⟨⟨⟨⟨⟨hsize, hge⟩, hle⟩, hpower⟩, hcluster⟩, hmany⟩, hreserved⟩, hnone⟩, htwo⟩, hroot⟩,
    hsmall⟩, htotal⟩, htable⟩ := h
  exact ⟨hsize, hge, hle, hpower, hcluster, hmany, hreserved, ⟨hnone, htwo⟩, hroot, hsmall, htotal,
    htable⟩

theorem isPowerOfTwo_of_powerOfTwo {value : UInt32} (h : powerOfTwo value = true) :
    value.toNat.isPowerOfTwo := by
  unfold powerOfTwo at h
  rw [Bool.and_eq_true, bne_iff_ne, beq_iff_eq] at h
  have hne : value.toNat ≠ 0 := fun hzero => h.1 (UInt32.toNat_inj.mp hzero)
  have hone : (1 : UInt32) ≤ value := UInt32.le_iff_toNat_le.mpr (Nat.one_le_iff_ne_zero.mpr hne)
  rw [← Nat.and_sub_one_eq_zero_iff_isPowerOfTwo hne]
  have hand := congrArg UInt32.toNat h.2
  rwa [UInt32.toNat_and, UInt32.toNat_sub_of_le _ _ hone] at hand

/-- A sector size that is a power of two is divisible by four. -/
theorem Looks.size_four {boot : Buffer} {sectorSize : UInt32} (h : Looks boot sectorSize) :
    (fat16 boot 11).toUInt32 % 4 = 0 := by
  have hge := UInt32.le_iff_toNat_le.mp (UInt32.not_lt.mp h.size_ge)
  obtain ⟨k, hk⟩ := isPowerOfTwo_of_powerOfTwo h.size_power
  have hle : 2 ≤ k := by
    by_contra hlt
    have hk' : k = 0 ∨ k = 1 := by omega
    rcases hk' with rfl | rfl <;> rw [hk] at hge <;> exact absurd hge (by decide)
  have hdvd : 4 ∣ (fat16 boot 11).toUInt32.toNat := hk ▸ Nat.pow_dvd_pow 2 hle
  rw [← UInt32.toNat_inj, UInt32.toNat_mod]
  exact Nat.mod_eq_zero_of_dvd hdvd

/-! ## The second validation -/

/-- The overflow tests of the source say that the exact sums fit. -/
theorem sub_lt_iff (total start : UInt32) :
    0xFFFFFFFF - total < start ↔ ¬ start.toNat + total.toNat < 2 ^ 32 := by
  have htotal := total.toNat_lt
  have hle : total ≤ 0xFFFFFFFF := UInt32.le_iff_toNat_le.mpr (Nat.le_of_lt_succ htotal)
  rw [UInt32.lt_iff_toNat_lt, UInt32.toNat_sub_of_le _ _ hle]
  -- the largest word, as a number
  change 4294967295 - total.toNat < start.toNat ↔ _
  omega

theorem past_iff (count start total : UInt32) :
    count < start ∨ count - start < total ↔ ¬ start.toNat + total.toNat ≤ count.toNat := by
  by_cases hle : start ≤ count
  · have hnat := UInt32.le_iff_toNat_le.mp hle
    rw [UInt32.lt_iff_toNat_lt, UInt32.lt_iff_toNat_lt, UInt32.toNat_sub_of_le _ _ hle]
    omega
  · have hlt := UInt32.not_le.mp hle
    have hnat := UInt32.lt_iff_toNat_lt.mp hlt
    exact iff_of_true (Or.inl hlt) (by omega)

/-- The 32-bit and 64-bit arithmetic of the layout checks is exact. -/
theorem layout_iff (boot : Buffer) :
    let start : UInt64 := (fat16 boot 14).toUInt32.toUInt64 +
      (boot 16).toUInt64 * (fat32 boot 36).toUInt64
    (((fat32 boot 32).toUInt64 ≤ start ∨ 0xFFFFFFFF < start) ↔
        ¬ dataAreaStart boot < totalSectors boot) ∧
      (dataAreaStart boot < totalSectors boot →
        ((fat32 boot 32 - start.toUInt32) / (boot 13).toUInt32).toNat = wholeClusters boot) := by
  intro start
  have hstart : start.toNat = dataAreaStart boot := by
    rw [dataStart_toNat, dataAreaStart, UInt16.toNat_toUInt32]
  have htotal := (fat32 boot 32).toNat_lt
  refine ⟨?_, fun hlt => ?_⟩
  · rw [UInt64.le_iff_toNat_le, UInt64.lt_iff_toNat_lt, UInt32.toNat_toUInt64, hstart, totalSectors]
    change _ ∨ 4294967295 < dataAreaStart boot ↔ _
    omega
  · rw [totalSectors] at hlt
    have hword : start.toUInt32.toNat = dataAreaStart boot := by
      rw [UInt64.toNat_toUInt32, hstart]
      exact Nat.mod_eq_of_lt (by omega)
    rw [UInt32.toNat_div, UInt32.toNat_sub_of_le _ _ (UInt32.le_iff_toNat_le.mpr (by omega)), hword,
      UInt8.toNat_toUInt32]
    rfl

/-- The limits on the clusters, with the root directory in one of them. -/
theorem clusters_iff {clusters root : UInt32} (hroot : 2 ≤ root.toNat) :
    (clusters = 0 ∨ 0x0FFFFFF5 < clusters ∨ clusters ≤ root - 2) ↔
      ¬ (0 < clusters.toNat ∧ clusters.toNat ≤ 0x0FFFFFF5 ∧ root.toNat - 2 < clusters.toNat) := by
  have hle : (2 : UInt32) ≤ root := UInt32.le_iff_toNat_le.mpr hroot
  rw [← UInt32.toNat_inj, UInt32.lt_iff_toNat_lt, UInt32.le_iff_toNat_le,
    UInt32.toNat_sub_of_le _ _ hle]
  change clusters.toNat = 0 ∨ 0x0FFFFFF5 < clusters.toNat ∨ clusters.toNat ≤ root.toNat - 2 ↔ _
  omega

theorem table_iff {fatSize bytes clusters : UInt32} :
    fatSize.toUInt64 * bytes.toUInt64 / 4 < clusters.toUInt64 + 2 ↔
      ¬ clusters.toNat + 2 ≤ fatSize.toNat * bytes.toNat / 4 := by
  have hcount := clusters.toNat_lt
  have hsum : (clusters.toUInt64 + 2).toNat = clusters.toNat + 2 := by
    rw [UInt64.toNat_add, UInt32.toNat_toUInt64]
    exact Nat.mod_eq_of_lt (by simp; omega)
  rw [UInt64.lt_iff_toNat_lt, fatEntries_toNat, hsum, Nat.not_le]

/-- Two fields that the filter has looked at before they were widened. -/
theorem Looks.widened {boot : Buffer} {sectorSize : UInt32} (h : Looks boot sectorSize) :
    ¬ 128 < (boot 13).toUInt32 ∧ (fat16 boot 14).toUInt32 ≠ 0 := by
  constructor
  · have hmany := h.cluster_le
    rw [UInt8.lt_iff_toNat_lt] at hmany
    rwa [UInt32.lt_iff_toNat_lt, UInt8.toNat_toUInt32]
  · intro hzero
    have hnat := congrArg UInt32.toNat hzero
    rw [UInt16.toNat_toUInt32] at hnat
    exact h.reserved (UInt16.toNat_inj.mp hnat)

namespace ValidVolume

variable {device : BlockDevice ω} {volume : VolumeExtent} {boot : Buffer}

/-- The tests of the fields repeat the filter or look at a field of the volume. -/
theorem fields (v : ValidVolume device volume boot) :
    ¬ ((fat16 boot 11).toUInt32 ≠ device.sectorSize ∨ (fat16 boot 11).toUInt32 < 512 ∨
      powerOfTwo (fat16 boot 11).toUInt32 = false ∨ (fat16 boot 11).toUInt32 % 4 ≠ 0 ∨
      powerOfTwo (boot 13).toUInt32 = false ∨ 128 < (boot 13).toUInt32 ∨
      (fat16 boot 14).toUInt32 = 0 ∨ boot 16 = 0 ∨ 2 < boot 16 ∨ fat16 boot 17 ≠ 0 ∨
      fat16 boot 19 ≠ 0 ∨ fat16 boot 22 ≠ 0 ∨ fat16 boot 42 ≠ 0 ∨
      (boot 66 ≠ 0x28 ∧ boot 66 ≠ 0x29)) := by
  have h := looks_of_looksLike v.looks
  rintro (hc | hc | hc | hc | hc | hc | hc | hc | hc | hc | hc | hc | hc | ⟨hc, hc'⟩)
  · exact hc h.size_eq
  · exact h.size_ge hc
  · exact absurd (h.size_power.symm.trans hc) (by decide)
  · exact hc h.size_four
  · exact absurd (h.cluster_power.symm.trans hc) (by decide)
  · exact h.widened.1 hc
  · exact h.widened.2 hc
  · exact h.tables.1 hc
  · exact h.tables.2 hc
  · exact hc h.no_root_entries
  · exact hc h.no_small_total
  · exact hc v.table_size
  · exact hc v.version
  · exact v.signature.elim hc hc'

theorem root (v : ValidVolume device volume boot) :
    ¬ (fat32 boot 32 = 0 ∨ fat32 boot 36 = 0 ∨ fat32 boot 44 &&& 0xF0000000 ≠ 0 ∨
      fat32 boot 44 &&& 0x0FFFFFFF < 2) := by
  have h := looks_of_looksLike v.looks
  rintro (hc | hc | hc | hc)
  · exact h.total hc
  · exact h.table_sectors hc
  · exact hc v.root_bits
  · have htwo : 2 ≤ rootDirectory boot := UInt32.le_iff_toNat_le.mpr v.root_ge
    exact UInt32.not_lt.mpr htwo hc

theorem extent (v : ValidVolume device volume boot) :
    ¬ (0xFFFFFFFF - fat32 boot 32 < volume.start ∨
      (volume.sectors ≠ 0 ∧ volume.sectors < fat32 boot 32) ∨
      (device.sectorCount ≠ 0 ∧ (device.sectorCount < volume.start ∨
        device.sectorCount - volume.start < fat32 boot 32))) := by
  rw [sub_lt_iff, past_iff]
  rintro (hc | ⟨hgranted, hc⟩ | ⟨hknown, hc⟩)
  · exact hc v.fits_word
  · exact UInt32.not_lt.mpr (UInt32.le_iff_toNat_le.mpr (v.fits_entry hgranted)) hc
  · exact hc (v.fits_device hknown)

end ValidVolume

/-- The second validation accepts exactly the valid volumes. -/
theorem establishGeometry_ok_iff {device : BlockDevice ω} {volume : VolumeExtent} {s : FsState ω}
    (hlooks : looksLikeFat32Bpb s.fs.sectorBuffer device.sectorSize = true) :
    (establishGeometry device volume s).1 = .ok ↔
      ValidVolume device volume s.fs.sectorBuffer := by
  obtain ⟨hdata, hwhole⟩ := layout_iff s.fs.sectorBuffer
  unfold establishGeometry
  simp only
  constructor
  · intro hok
    -- no test has failed, so each field of the volume is as it should be
    split_ifs at hok with hfields hroot hextent hstart hclusters hentries
    push Not at hfields hroot
    obtain ⟨-, -, -, -, -, -, -, -, -, -, -, htable, hversion, hsignature⟩ := hfields
    obtain ⟨-, -, hbits, htwo⟩ := hroot
    have hlt := not_not.mp (mt hdata.mpr hstart)
    rw [not_or, sub_lt_iff, not_not, not_or] at hextent
    obtain ⟨hword, hentry, hdevice⟩ := hextent
    have hroot : 2 ≤ (rootDirectory s.fs.sectorBuffer).toNat :=
      UInt32.le_iff_toNat_le.mp (UInt32.not_lt.mp htwo)
    have hclusters := not_not.mp (mt (clusters_iff hroot).mpr hclusters)
    rw [hwhole hlt] at hclusters
    rw [table_iff, not_not, hwhole hlt] at hentries
    refine ⟨hlooks, htable, hversion, ?_, hbits, hroot, hword, ?_, ?_, hlt, hclusters.1,
      hclusters.2.1, hclusters.2.2, hentries⟩
    · by_contra hneither
      push Not at hneither
      exact hneither.2 (hsignature hneither.1)
    · intro hgranted
      exact UInt32.le_iff_toNat_le.mp (UInt32.not_lt.mp fun hless => hentry ⟨hgranted, hless⟩)
    · intro hknown
      exact not_not.mp fun hpast => hdevice ⟨hknown, (past_iff _ _ _).mpr hpast⟩
  · intro v
    have hclusters := not_not.mpr (And.intro v.clusters_pos (And.intro v.clusters_le v.root_lt))
    have htable := not_not.mpr v.table_covers
    rw [← hwhole v.data_lt] at hclusters htable
    have hlimits := mt (clusters_iff v.root_ge).mp hclusters
    rw [rootDirectory] at hlimits
    rw [if_neg v.fields, if_neg v.root, if_neg v.extent,
      if_neg (mt hdata.mp (not_not.mpr v.data_lt)), if_neg hlimits,
      if_neg (mt table_iff.mp htable)]

/-! ## The search -/

/-- A place where a volume may start: sector zero, or the start of an entry of the
partition table that is in use and lies within the device. -/
def Candidate (device : BlockDevice ω) (contents : Contents) (volume : VolumeExtent) : Prop :=
  volume = ⟨0, 0⟩ ∨ ∃ partition ∈ partitions (contents 0), partition.start ≠ 0 ∧
    partition.size ≠ 0 ∧
    (device.sectorCount ≠ 0 →
      partition.start.toNat + partition.size.toNat ≤ device.sectorCount.toNat) ∧
    volume = ⟨partition.start, partition.size⟩

/-- The extent that an entry of the partition table grants. -/
def Partition.extent (partition : Partition) : VolumeExtent := ⟨partition.start, partition.size⟩

/-- The candidates in the order in which they are tried: sector zero, the entries of the
conventional types, the other entries. -/
def candidates (device : BlockDevice ω) (contents : Contents) : List VolumeExtent :=
  ⟨0, 0⟩ :: (((partitions (contents 0)).filter (!·.skipped device true)) ++
    (partitions (contents 0)).filter (!·.skipped device false)).map Partition.extent

/-- The filter that chooses a candidate: the first validation, and for a partition that
the volume fits into it and into a word. -/
def eligible (device : BlockDevice ω) (contents : Contents) (volume : VolumeExtent) : Bool :=
  looksLikeFat32Bpb (contents volume.start) device.sectorSize &&
    (volume.sectors == 0 || !(volume.sectors < fat32 (contents volume.start) 32 ||
      0xFFFFFFFF - fat32 (contents volume.start) 32 < volume.start))

theorem eligible_extent_iff {device : BlockDevice ω} (contents : Contents) {partition : Partition}
    (hsize : partition.size ≠ 0) : eligible device contents partition.extent = true ↔
      looksLikeFat32Bpb (contents partition.start) device.sectorSize = true ∧
        ¬ partition.size < fat32 (contents partition.start) 32 ∧
        ¬ 0xFFFFFFFF - fat32 (contents partition.start) 32 < partition.start := by
  have hnone : (partition.extent.sectors == 0) = false := beq_false_of_ne hsize
  rw [eligible, hnone, Bool.false_or, Bool.and_eq_true, Bool.not_eq_true', Bool.or_eq_false_iff,
    decide_eq_false_iff_not, decide_eq_false_iff_not]
  rfl

/-- The entries that a pass looks at are those of its kind that may hold a volume. -/
theorem not_skipped_iff (partition : Partition) (device : BlockDevice ω) (firstPass : Bool) :
    (!partition.skipped device firstPass) = true ↔ partition.conventional = firstPass ∧
      partition.start ≠ 0 ∧ partition.size ≠ 0 ∧ (device.sectorCount ≠ 0 →
        partition.start.toNat + partition.size.toNat ≤ device.sectorCount.toNat) := by
  by_cases hsize : partition.size = 0
  · simp [Partition.skipped, hsize]
  -- an entry that is in use and starts at the end of the device does not fit either
  have hpast : (device.sectorCount ≤ partition.start ∨
      device.sectorCount - partition.start < partition.size) ↔
      ¬ partition.start.toNat + partition.size.toNat ≤ device.sectorCount.toNat := by
    have hpos : 0 < partition.size.toNat :=
      Nat.pos_of_ne_zero fun hzero => hsize (UInt32.toNat_inj.mp hzero)
    rw [← past_iff]
    refine ⟨fun h => ?_, fun h => h.imp_left UInt32.le_of_lt⟩
    by_cases hstart : device.sectorCount < partition.start
    · exact Or.inl hstart
    · right
      have hle := UInt32.le_iff_toNat_le.mp (UInt32.not_lt.mp hstart)
      rw [UInt32.le_iff_toNat_le, UInt32.lt_iff_toNat_lt,
        UInt32.toNat_sub_of_le _ _ (UInt32.not_lt.mp hstart)] at h
      rw [UInt32.lt_iff_toNat_lt, UInt32.toNat_sub_of_le _ _ (UInt32.not_lt.mp hstart)]
      omega
  simp only [Partition.skipped, Bool.not_eq_true', Bool.or_eq_false_iff, bne_eq_false_iff_eq,
    beq_eq_false_iff_ne, ne_eq, hsize, not_false_eq_true, Bool.and_eq_false_iff, true_and, and_true,
    ← Bool.decide_or, decide_eq_false_iff_not, hpast, not_not, eq_comm (a := firstPass)]
  tauto

theorem mem_candidates_iff (device : BlockDevice ω) (contents : Contents) (volume : VolumeExtent) :
    volume ∈ candidates device contents ↔ Candidate device contents volume := by
  simp only [candidates, Candidate, List.mem_cons, List.mem_map, List.mem_append, List.mem_filter,
    not_skipped_iff]
  refine or_congr_right ⟨?_, ?_⟩
  · rintro ⟨partition, hmem | hmem, rfl⟩
    · exact ⟨partition, hmem.1, hmem.2.2.1, hmem.2.2.2.1, hmem.2.2.2.2, rfl⟩
    · exact ⟨partition, hmem.1, hmem.2.2.1, hmem.2.2.2.1, hmem.2.2.2.2, rfl⟩
  · rintro ⟨partition, hmem, hstart, hsize, hfits, rfl⟩
    refine ⟨partition, ?_, rfl⟩
    cases hkind : partition.conventional with
    | true => exact Or.inl ⟨hmem, rfl, hstart, hsize, hfits⟩
    | false => exact Or.inr ⟨hmem, rfl, hstart, hsize, hfits⟩

/-- A valid volume passes the filter. -/
theorem ValidVolume.eligible {device : BlockDevice ω} {contents : Contents} {volume : VolumeExtent}
    (h : ValidVolume device volume (contents volume.start)) :
    eligible device contents volume = true := by
  have hword := h.fits_word
  rw [totalSectors] at hword
  have hin : ¬ 0xFFFFFFFF - fat32 (contents volume.start) 32 < volume.start := by
    rw [sub_lt_iff]
    exact not_not.mpr hword
  rw [LevOS.Filesystem.eligible, h.looks, Bool.true_and, Bool.or_eq_true, beq_iff_eq]
  by_cases hsectors : volume.sectors = 0
  · exact Or.inl hsectors
  · have hentry : ¬ volume.sectors < fat32 (contents volume.start) 32 :=
      UInt32.not_lt.mpr (UInt32.le_iff_toNat_le.mpr (h.fits_entry hsectors))
    right
    simp [hentry, hin]

/-! ## Boot sectors of equal bytes -/

theorem fat16_congr {p q : Buffer} {offset : Nat} (h : p offset = q offset)
    (h' : p (offset + 1) = q (offset + 1)) : fat16 p offset = fat16 q offset := by
  rw [fat16, fat16, h, h']

section BootSector

variable {p q : Buffer} (h : ∀ i < 512, p i = q i)

include h

theorem fat16_of_bytes {offset : Nat} (hoffset : offset + 1 < 512) : fat16 p offset = fat16 q offset :=
  fat16_congr (h _ (by omega)) (h _ hoffset)

theorem fat32_of_bytes {offset : Nat} (hoffset : offset + 4 ≤ 512) : fat32 p offset = fat32 q offset :=
  fat32_congr fun i hi => h _ (by omega)

theorem looksLike_of_bytes (sectorSize : UInt32) :
    looksLikeFat32Bpb p sectorSize = looksLikeFat32Bpb q sectorSize := by
  unfold looksLikeFat32Bpb
  simp only [fat16_of_bytes h (by decide : 510 + 1 < 512), fat16_of_bytes h (by decide : 11 + 1 < 512),
    fat16_of_bytes h (by decide : 14 + 1 < 512), fat16_of_bytes h (by decide : 17 + 1 < 512),
    fat16_of_bytes h (by decide : 19 + 1 < 512), fat32_of_bytes h (by decide : 32 + 4 ≤ 512),
    fat32_of_bytes h (by decide : 36 + 4 ≤ 512), h 13 (by decide), h 16 (by decide)]

theorem partitions_of_bytes : partitions p = partitions q := by
  refine List.map_congr_left fun index hindex => ?_
  have hindex := List.mem_range.mp hindex
  rw [Partition.parse, Partition.parse, h _ (by omega), fat32_of_bytes h (by omega),
    fat32_of_bytes h (by omega)]

theorem ValidVolume.of_bytes {device : BlockDevice ω} {volume : VolumeExtent}
    (v : ValidVolume device volume p) : ValidVolume device volume q := by
  have htotal : totalSectors q = totalSectors p :=
    congrArg UInt32.toNat (fat32_of_bytes h (by decide : 32 + 4 ≤ 512)).symm
  have hdata : dataAreaStart q = dataAreaStart p := by
    rw [dataAreaStart, dataAreaStart, fat16_of_bytes h (by decide : 14 + 1 < 512), h 16 (by decide),
      fat32_of_bytes h (by decide : 36 + 4 ≤ 512)]
  have hclusters : wholeClusters q = wholeClusters p := by
    rw [wholeClusters, wholeClusters, htotal, hdata, h 13 (by decide)]
  have hentry : fat32 q 44 = fat32 p 44 := (fat32_of_bytes h (by decide : 44 + 4 ≤ 512)).symm
  have hroot : rootDirectory q = rootDirectory p := by rw [rootDirectory, rootDirectory, hentry]
  have htable : fat32 q 36 = fat32 p 36 := (fat32_of_bytes h (by decide : 36 + 4 ≤ 512)).symm
  have hbytes : fat16 q 11 = fat16 p 11 := (fat16_of_bytes h (by decide : 11 + 1 < 512)).symm
  constructor
  · exact looksLike_of_bytes h device.sectorSize ▸ v.looks
  · exact fat16_of_bytes h (by decide : 22 + 1 < 512) ▸ v.table_size
  · exact fat16_of_bytes h (by decide : 42 + 1 < 512) ▸ v.version
  · exact h 66 (by decide) ▸ v.signature
  · exact hentry ▸ v.root_bits
  · exact hroot ▸ v.root_ge
  · exact htotal ▸ v.fits_word
  · exact htotal ▸ v.fits_entry
  · exact htotal ▸ v.fits_device
  · exact hdata ▸ htotal ▸ v.data_lt
  · exact hclusters ▸ v.clusters_pos
  · exact hclusters ▸ v.clusters_le
  · exact hclusters ▸ hroot ▸ v.root_lt
  · exact hclusters ▸ htable ▸ hbytes ▸ v.table_covers

end BootSector

/-! ## The choice -/

section Search

variable {device : BlockDevice ω} {contents : Contents} (hreadable : Readable device contents)
  (hsize : 512 ≤ device.sectorSize.toNat)

include hreadable

/-- A readable device answers a read of a sector it has. -/
theorem Readable.readInto_sector (s : FsState ω) (sector : UInt32)
    (hinside : device.sectorCount ≠ 0 → sector < device.sectorCount) :
    (s.readInto device sector).1 = 0 ∧ ∀ i < device.sectorSize.toNat,
      (s.readInto device sector).2.fs.sectorBuffer i = contents sector i := by
  have hread := hreadable.succeeds sector s.fs.sectorBuffer s.bus hinside
  exact ⟨hread, hreadable.answers sector s.fs.sectorBuffer s.bus hread⟩

include hsize

/-- A pass settles on its first eligible entry, with the boot sector in the buffer. -/
theorem probePass_eq (firstPass : Bool) (entries : List Partition) (s : FsState ω) :
    ∃ s', probePass device firstPass entries s =
        ((entries.filter (!·.skipped device firstPass)).find?
          fun partition => eligible device contents partition.extent, s') ∧
      ∀ partition ∈ (entries.filter (!·.skipped device firstPass)).find?
          fun partition => eligible device contents partition.extent,
        ∀ i < 512, s'.fs.sectorBuffer i = contents partition.start i := by
  induction entries generalizing s with
  | nil => exact ⟨s, rfl, by simp⟩
  | cons partition rest ih =>
    rw [probePass]
    by_cases hskipped : partition.skipped device firstPass = true
    · rw [if_pos hskipped, List.filter_cons_of_neg (by simp [hskipped])]
      exact ih s
    rw [if_neg hskipped, List.filter_cons_of_pos (by simpa using hskipped)]
    obtain ⟨-, hstart, hsectors, hfits⟩ :=
      (not_skipped_iff partition device firstPass).mp (by simpa using hskipped)
    have hpos : 0 < partition.size.toNat :=
      Nat.pos_of_ne_zero fun hzero => hsectors (UInt32.toNat_inj.mp hzero)
    obtain ⟨hread, hbuffer⟩ := hreadable.readInto_sector s partition.start fun hknown =>
      UInt32.lt_iff_toNat_lt.mpr (by have := hfits hknown; omega)
    have hbytes : ∀ i < 512,
        (s.readInto device partition.start).2.fs.sectorBuffer i = contents partition.start i :=
      fun i hi => hbuffer i (by omega)
    generalize s.readInto device partition.start = out at hread hbytes
    obtain ⟨status, s₁⟩ := out
    simp only at hread hbytes ⊢
    -- the rejection of the source is the negation of the filter
    have hreject : (status ≠ 0 ∨ looksLikeFat32Bpb s₁.fs.sectorBuffer device.sectorSize = false ∨
        partition.size < fat32 s₁.fs.sectorBuffer 32 ∨
        0xFFFFFFFF - fat32 s₁.fs.sectorBuffer 32 < partition.start) ↔
        ¬ eligible device contents partition.extent = true := by
      rw [eligible_extent_iff contents hsectors, looksLike_of_bytes hbytes,
        fat32_of_bytes hbytes (by decide : 32 + 4 ≤ 512), ← Bool.not_eq_true]
      constructor
      · rintro (hfailed | hno | hlarge | hwraps) ⟨hlooks, hfits, hword⟩
        · exact hfailed hread
        · exact hno hlooks
        · exact hfits hlarge
        · exact hword hwraps
      · intro hnot
        by_contra hnone
        rw [not_or, not_or, not_or, not_not, not_not] at hnone
        exact hnot hnone.2
    by_cases heligible : eligible device contents partition.extent = true
    · rw [if_neg (mt hreject.mp (not_not.mpr heligible)), List.find?_cons_of_pos
        (p := fun partition : Partition => eligible device contents partition.extent) heligible]
      refine ⟨s₁, rfl, fun found hfound => ?_⟩
      obtain rfl := Option.some.inj hfound
      exact hbytes
    · rw [if_pos (hreject.mpr heligible), List.find?_cons_of_neg
        (p := fun partition : Partition => eligible device contents partition.extent) heligible]
      exact ih s₁

/-- The search settles on the first eligible candidate. -/
theorem locateVolume_eq {s : FsState ω} (hbuffer : ∀ i < 512, s.fs.sectorBuffer i = contents 0 i)
    (hsignature : fat16 (contents 0) 510 = 0xAA55) :
    ∃ s', locateVolume device s =
        ((candidates device contents).find? (eligible device contents), s') ∧
      ∀ volume ∈ (candidates device contents).find? (eligible device contents),
        ∀ i < 512, s'.fs.sectorBuffer i = contents volume.start i := by
  rw [locateVolume, looksLike_of_bytes hbuffer, fat16_of_bytes hbuffer (by decide : 510 + 1 < 512),
    partitions_of_bytes hbuffer]
  have hfirst : eligible device contents ⟨0, 0⟩ =
      looksLikeFat32Bpb (contents 0) device.sectorSize := by
    simp [eligible]
  by_cases hlooks : looksLikeFat32Bpb (contents 0) device.sectorSize = true
  · rw [if_pos hlooks, candidates, List.find?_cons_of_pos (hfirst.trans hlooks)]
    refine ⟨s, rfl, fun found hfound => ?_⟩
    obtain rfl := Option.some.inj hfound
    exact hbuffer
  rw [if_neg hlooks, if_neg (not_not.mpr hsignature), candidates,
    List.find?_cons_of_neg (hfirst ▸ hlooks), List.find?_map, List.find?_append, probePartitions]
  -- partitions of a conventional type first, the others afterwards
  obtain ⟨s₁, hpass, hheld⟩ := probePass_eq hreadable hsize true (partitions (contents 0)) s
  have hcompose : (eligible device contents ∘ Partition.extent) =
      fun partition => eligible device contents partition.extent := rfl
  rw [hcompose, hpass]
  cases hfound : ((partitions (contents 0)).filter (!·.skipped device true)).find?
      fun partition => eligible device contents partition.extent with
  | some partition =>
    refine ⟨s₁, rfl, fun volume hvolume => ?_⟩
    obtain rfl := Option.some.inj hvolume
    exact hheld partition hfound
  | none =>
    obtain ⟨s₂, hpass₂, hheld₂⟩ := probePass_eq hreadable hsize false (partitions (contents 0)) s₁
    simp only [hpass₂, Option.none_or]
    cases hfound₂ : ((partitions (contents 0)).filter (!·.skipped device false)).find?
        fun partition => eligible device contents partition.extent with
    | some partition =>
      refine ⟨s₂, rfl, fun volume hvolume => ?_⟩
      obtain rfl := Option.some.inj hvolume
      exact hheld₂ partition hfound₂
    | none => exact ⟨s₂, rfl, by simp⟩

end Search

section Mount

variable {device : BlockDevice ω} {contents : Contents}

theorem eligible_size {volume : VolumeExtent} (h : eligible device contents volume = true) :
    ¬ device.sectorSize < 512 ∧ ¬ maxSectorSize < device.sectorSize := by
  rw [eligible, Bool.and_eq_true] at h
  have hlooks := looks_of_looksLike h.1
  rw [← hlooks.size_eq]
  exact ⟨hlooks.size_ge, hlooks.size_le⟩

/-- A mount succeeds just in case the first eligible candidate is a valid volume. -/
theorem fat32Mount_ok_iff (hreadable : Readable device contents)
    (hsignature : fat16 (contents 0) 510 = 0xAA55) (s : FsState ω) :
    (fat32Mount (some device) s).1 = .ok ↔ ∃ volume,
      (candidates device contents).find? (eligible device contents) = some volume ∧
        ValidVolume device volume (contents volume.start) := by
  have hpresent : ¬ device.readSector.isNone = true := by
    have hsome := (hreadable.faulty s.bus).present
    rw [Option.isSome_iff_ne_none] at hsome
    simpa using hsome
  rw [fat32Mount]
  -- with the sector sizes that the call refuses no candidate is eligible
  by_cases hargs : device.readSector.isNone ∨ device.sectorSize < 512 ∨
      maxSectorSize < device.sectorSize
  · rw [if_pos hargs]
    refine iff_of_false (by simp) ?_
    rintro ⟨volume, hfound, -⟩
    obtain ⟨hge, hle⟩ := eligible_size (List.find?_some hfound)
    rcases hargs with hnone | hsmall | hlarge
    · exact hpresent hnone
    · exact hge hsmall
    · exact hle hlarge
  rw [if_neg hargs]
  have hsize : 512 ≤ device.sectorSize.toNat := by
    rw [not_or, not_or] at hargs
    exact UInt32.le_iff_toNat_le.mp (UInt32.not_lt.mp hargs.2.1)
  simp only
  -- sector zero can be read
  obtain ⟨hread, hbuffer⟩ := hreadable.readInto_sector
    { s with fs := { s.fs with mounted := false, device := some device } } 0
    fun hknown => UInt32.lt_iff_toNat_lt.mpr
      (Nat.pos_of_ne_zero fun hzero => hknown (UInt32.toNat_inj.mp hzero))
  generalize FsState.readInto { s with fs := { s.fs with mounted := false, device := some device } }
    device 0 = out at hread hbuffer
  obtain ⟨status, s₁⟩ := out
  simp only at hread hbuffer ⊢
  rw [if_neg (not_not.mpr hread)]
  obtain ⟨s₂, hlocate, hheld⟩ := locateVolume_eq hreadable hsize
    (fun i hi => hbuffer i (by omega)) hsignature
  rw [hlocate]
  cases hfound : (candidates device contents).find? (eligible device contents) with
  | none => simp
  | some volume =>
    -- the sector buffer still holds the boot sector of the first eligible one
    have hbytes := hheld volume hfound
    have hlooks : looksLikeFat32Bpb s₂.fs.sectorBuffer device.sectorSize = true := by
      have heligible := List.find?_some hfound
      rw [eligible, Bool.and_eq_true] at heligible
      rw [looksLike_of_bytes hbytes]
      exact heligible.1
    simp only
    rw [establishGeometry_ok_iff hlooks]
    constructor
    · intro hvalid
      exact ⟨volume, rfl, hvalid.of_bytes hbytes⟩
    · rintro ⟨volume', hsame, hvalid⟩
      obtain rfl := Option.some.inj hsame
      exact hvalid.of_bytes fun i hi => (hbytes i hi).symm

/-- Mount completeness: on a readable device with a signed sector zero, a valid candidate
is mounted just in case no candidate in front of the first valid one passes the filter. -/
theorem fat32Mount_complete_iff (hreadable : Readable device contents)
    (hsignature : fat16 (contents 0) 510 = 0xAA55) (s : FsState ω) :
    ((∃ volume, Candidate device contents volume ∧
        ValidVolume device volume (contents volume.start)) →
      (fat32Mount (some device) s).1 = .ok) ↔
      ∀ before volume after, candidates device contents = before ++ volume :: after →
        ValidVolume device volume (contents volume.start) →
        (∀ earlier ∈ before, ¬ ValidVolume device earlier (contents earlier.start)) →
        ∀ earlier ∈ before, eligible device contents earlier = false := by
  rw [fat32Mount_ok_iff hreadable hsignature]
  constructor
  · intro hcomplete before volume after hsplit hvalid hbefore earlier hearlier
    have hmem : volume ∈ candidates device contents := by simp [hsplit]
    obtain ⟨chosen, hfound, hchosen⟩ :=
      hcomplete ⟨volume, (mem_candidates_iff device contents volume).mp hmem, hvalid⟩
    rw [hsplit, List.find?_append] at hfound
    -- a eligible candidate in front would have been chosen, and is not valid
    by_contra heligible
    have hsome : (before.find? (eligible device contents)).isSome := by
      rw [List.find?_isSome]
      exact ⟨earlier, hearlier, by simpa using heligible⟩
    obtain ⟨first, hfirst⟩ := Option.isSome_iff_exists.mp hsome
    rw [hfirst, Option.some_or] at hfound
    obtain rfl := Option.some.inj hfound
    exact hbefore first (List.mem_of_find?_eq_some hfirst) hchosen
  · rintro hcondition ⟨volume, hcandidate, hvalid⟩
    classical
    have hmem := (mem_candidates_iff device contents volume).mpr hcandidate
    obtain ⟨first, hfirst⟩ := Option.isSome_iff_exists.mp (List.find?_isSome
      (p := fun v => decide (ValidVolume device v (contents v.start))) |>.mpr
        ⟨volume, hmem, decide_eq_true hvalid⟩)
    obtain ⟨hvalid, before, after, hsplit, hbefore⟩ := List.find?_eq_some_iff_append.mp hfirst
    have hvalid := of_decide_eq_true hvalid
    have hnone := hcondition before first after hsplit hvalid
      fun earlier hearlier => by simpa using hbefore earlier hearlier
    refine ⟨first, ?_, hvalid⟩
    rw [hsplit, List.find?_append, List.find?_eq_none.mpr fun v hv => by simp [hnone v hv],
      Option.none_or, List.find?_cons_of_pos hvalid.eligible]

end Mount

/-- The partition of the sample disk is a valid volume, and is mounted. -/
theorem fat32Mount_complete_iff_sample : (fat32Mount (some sampleDevice) unmounted).1 = .ok := by
  have hcandidates : candidates sampleDevice sampleDisk = [⟨0, 0⟩, ⟨1, 12⟩] := by decide +kernel
  have hvalid : ValidVolume sampleDevice ⟨1, 12⟩ (sampleDisk 1) :=
    ⟨by decide +kernel, by decide +kernel, by decide +kernel, by decide +kernel, by decide +kernel,
      by decide +kernel, by decide +kernel, by decide +kernel, by decide +kernel, by decide +kernel,
      by decide +kernel, by decide +kernel, by decide +kernel, by decide +kernel⟩
  have hcandidate : Candidate sampleDevice sampleDisk ⟨1, 12⟩ := by
    rw [← mem_candidates_iff, hcandidates]
    simp
  refine (fat32Mount_complete_iff sampleDevice_readable (by decide +kernel) unmounted).mpr ?_
    ⟨⟨1, 12⟩, hcandidate, hvalid⟩
  intro before volume after hsplit _ hbefore earlier hearlier
  have hmem : earlier ∈ candidates sampleDevice sampleDisk := by
    rw [hsplit]
    exact List.mem_append_left _ hearlier
  rw [hcandidates] at hmem
  simp only [List.mem_cons, List.not_mem_nil, or_false] at hmem
  rcases hmem with rfl | rfl
  · decide +kernel
  · exact absurd hvalid (hbefore _ hearlier)

/-! ### A boot record that resembles a boot sector

Sector zero is a boot record whose first bytes are those of the boot sector of the
sample tree, without the mark at offset 66. Its first entry, of a conventional type,
grants the twelve sectors from sector sixteen on to the sample tree. -/

/-- The contents of the disk. -/
def resemblingDisk (sector : UInt32) : Buffer := fun i =>
  if sector = 0 then
    if i = 66 then 0 else if i = 450 then 0x0C else if i = 454 then 16 else if i = 458 then 12
    else treeDisk 0 i
  else if 16 ≤ sector then treeDisk (sector - 16) i else 0

/-- A device that always answers with the disk's contents. -/
def resemblingDevice : BlockDevice Unit := faultyDevice 512 28 resemblingDisk fun _ => false

/-- The partition is a valid candidate, and the disk is not mounted. -/
theorem fat32Mount_misses_partition :
    Readable resemblingDevice resemblingDisk ∧ fat16 (resemblingDisk 0) 510 = 0xAA55 ∧
      Candidate resemblingDevice resemblingDisk ⟨16, 12⟩ ∧
      ValidVolume resemblingDevice ⟨16, 12⟩ (resemblingDisk 16) ∧
      (fat32Mount (some resemblingDevice) unmounted).1 = .ebadfs := by
  have hcandidate : Candidate resemblingDevice resemblingDisk ⟨16, 12⟩ :=
    Or.inr ⟨Partition.parse (resemblingDisk 0) 0, List.mem_map_of_mem (List.mem_range.mpr (by decide)),
      by decide +kernel, by decide +kernel, by decide +kernel, by decide +kernel⟩
  have hvalid : ValidVolume resemblingDevice ⟨16, 12⟩ (resemblingDisk 16) :=
    ⟨by decide +kernel, by decide +kernel, by decide +kernel, by decide +kernel, by decide +kernel,
      by decide +kernel, by decide +kernel, by decide +kernel, by decide +kernel, by decide +kernel,
      by decide +kernel, by decide +kernel, by decide +kernel, by decide +kernel⟩
  exact ⟨faultyDevice_readable (by decide) 28 resemblingDisk, by decide +kernel, hcandidate, hvalid,
    by decide +kernel⟩

end LevOS.Filesystem
