import LevOS.Filesystem.Mount

/-!
# The geometry of a mounted volume

What the scattered checks of `fat32_mount` add up to, in exact arithmetic. The
first allocation table lies before the data area and has a slot for every
cluster, the data area lies inside the volume, and the volume lies inside the
device. From these few inequalities every sector number computed later is free
of overflow and stays inside the volume.

## Main definitions

* `Geometry`, the layout of a mounted volume with its total number of sectors
* `SameVolume`, agreement of two objects up to the sector buffer

## Main results

* `establishGeometry_geometry`: a successful mount establishes the geometry
* `Geometry.clusterSector_toNat`, `Geometry.fatSector_lt`: sector arithmetic
-/

namespace LevOS.Filesystem

open LevOS.Drivers

variable {ω : Type}

/-- The layout that mounting establishes, for a volume of `total` sectors on
`device`. All inequalities are between exact integers. -/
structure Geometry (fs : Fat32Fs ω) (device : BlockDevice ω) (total : Nat) : Prop where
  mounted : fs.mounted = true
  device_eq : fs.device = some device
  sectorSize_eq : device.sectorSize = fs.bytesPerSector
  bytes_ge : 512 ≤ fs.bytesPerSector.toNat
  bytes_dvd : 4 ∣ fs.bytesPerSector.toNat
  spc_pos : 0 < fs.sectorsPerCluster.toNat
  fat_le : fs.fatStart.toNat + fs.fatSectors.toNat ≤ fs.dataStart.toNat
  data_le : fs.dataStart.toNat + fs.clusterCount.toNat * fs.sectorsPerCluster.toNat ≤ total
  total_lt : fs.volumeStart.toNat + total < 2 ^ 32
  fits : device.sectorCount ≠ 0 → fs.volumeStart.toNat + total ≤ device.sectorCount.toNat
  clusters_le : fs.clusterCount.toNat ≤ 0x0FFFFFF5
  fat_covers : 4 * (fs.clusterCount.toNat + 2) ≤ fs.fatSectors.toNat * fs.bytesPerSector.toNat
  root_valid : validCluster fs fs.rootCluster = true

/-- Two objects that agree on every field but the sector buffer. -/
def SameVolume (fs fs' : Fat32Fs ω) : Prop :=
  { fs with sectorBuffer := fs'.sectorBuffer } = fs'

theorem SameVolume.refl (fs : Fat32Fs ω) : SameVolume fs fs := rfl

theorem SameVolume.trans {fs fs' fs'' : Fat32Fs ω} (h : SameVolume fs fs')
    (h' : SameVolume fs' fs'') : SameVolume fs fs'' := by
  unfold SameVolume at *
  rw [← h', ← h]

theorem SameVolume.symm {fs fs' : Fat32Fs ω} (h : SameVolume fs fs') : SameVolume fs' fs := by
  unfold SameVolume at *
  rw [← h]

theorem SameVolume.validCluster_eq {fs fs' : Fat32Fs ω} (h : SameVolume fs fs')
    (cluster : UInt32) : validCluster fs cluster = validCluster fs' cluster := by
  unfold SameVolume at h
  rw [← h]
  rfl

theorem SameVolume.sectorsPerCluster_eq {fs fs' : Fat32Fs ω} (h : SameVolume fs fs') :
    fs.sectorsPerCluster = fs'.sectorsPerCluster := by
  unfold SameVolume at h
  rw [← h]

theorem SameVolume.bytesPerSector_eq {fs fs' : Fat32Fs ω} (h : SameVolume fs fs') :
    fs.bytesPerSector = fs'.bytesPerSector := by
  unfold SameVolume at h
  rw [← h]

theorem SameVolume.clusterCount_eq {fs fs' : Fat32Fs ω} (h : SameVolume fs fs') :
    fs.clusterCount = fs'.clusterCount := by
  unfold SameVolume at h
  rw [← h]

theorem SameVolume.rootCluster_eq {fs fs' : Fat32Fs ω} (h : SameVolume fs fs') :
    fs.rootCluster = fs'.rootCluster := by
  unfold SameVolume at h
  rw [← h]

/-- The geometry does not mention the sector buffer. -/
theorem Geometry.of_sameVolume {fs fs' : Fat32Fs ω} {device : BlockDevice ω} {total : Nat}
    (g : Geometry fs device total) (h : SameVolume fs fs') : Geometry fs' device total := by
  unfold SameVolume at h
  rw [← h]
  exact ⟨g.mounted, g.device_eq, g.sectorSize_eq, g.bytes_ge, g.bytes_dvd, g.spc_pos, g.fat_le,
    g.data_le, g.total_lt, g.fits, g.clusters_le, g.fat_covers, g.root_valid⟩

/-! ## Machine arithmetic -/

theorem validCluster_iff (fs : Fat32Fs ω) (cluster : UInt32) :
    validCluster fs cluster = true ↔
      2 ≤ cluster.toNat ∧ cluster.toNat - 2 < fs.clusterCount.toNat := by
  unfold validCluster
  rw [Bool.and_eq_true, decide_eq_true_eq, decide_eq_true_eq, UInt32.le_iff_toNat_le,
    UInt32.lt_iff_toNat_lt]
  constructor
  · rintro ⟨hlow, hhigh⟩
    rw [UInt32.toNat_sub_of_le _ _ (UInt32.le_iff_toNat_le.mpr hlow)] at hhigh
    exact ⟨hlow, hhigh⟩
  · rintro ⟨hlow, hhigh⟩
    have hle : (2 : UInt32) ≤ cluster := UInt32.le_iff_toNat_le.mpr hlow
    refine ⟨hlow, ?_⟩
    rw [UInt32.toNat_sub_of_le _ _ hle]
    exact hhigh

/-- A volume with a valid cluster is not empty. -/
theorem exists_clusterCount_eq {fs : Fat32Fs ω} {cluster : UInt32}
    (h : validCluster fs cluster = true) : ∃ limit, fs.clusterCount.toNat = limit + 1 := by
  obtain ⟨-, hlt⟩ := (validCluster_iff fs cluster).mp h
  exact Nat.exists_eq_add_one.mpr (Nat.zero_lt_of_lt hlt)

/-- The 64-bit start of the data area is exact. -/
theorem dataStart_toNat (reserved fatSize : UInt32) (fats : UInt8) :
    (reserved.toUInt64 + fats.toUInt64 * fatSize.toUInt64).toNat =
      reserved.toNat + fats.toNat * fatSize.toNat := by
  have hprod : fats.toNat * fatSize.toNat ≤ 255 * (2 ^ 32 - 1) :=
    Nat.mul_le_mul (Nat.le_of_lt_succ fats.toNat_lt) (Nat.le_of_lt_succ fatSize.toNat_lt)
  have hreserved := reserved.toNat_lt
  rw [UInt64.toNat_add, UInt64.toNat_mul, UInt32.toNat_toUInt64, UInt32.toNat_toUInt64,
    UInt8.toNat_toUInt64, Nat.mod_eq_of_lt (by omega : fats.toNat * fatSize.toNat < 2 ^ 64),
    Nat.mod_eq_of_lt (by omega)]

/-- The 64-bit number of table slots is exact. -/
theorem fatEntries_toNat (fatSize bytes : UInt32) :
    (fatSize.toUInt64 * bytes.toUInt64 / 4).toNat = fatSize.toNat * bytes.toNat / 4 := by
  have hprod : fatSize.toNat * bytes.toNat ≤ (2 ^ 32 - 1) * (2 ^ 32 - 1) :=
    Nat.mul_le_mul (Nat.le_of_lt_succ fatSize.toNat_lt) (Nat.le_of_lt_succ bytes.toNat_lt)
  rw [UInt64.toNat_div, UInt64.toNat_mul, UInt32.toNat_toUInt64, UInt32.toNat_toUInt64,
    Nat.mod_eq_of_lt (by omega)]
  rfl

private theorem toNat_pos_of_powerOfTwo {value : UInt32} (h : powerOfTwo value = true) :
    0 < value.toNat := by
  unfold powerOfTwo at h
  rw [Bool.and_eq_true, bne_iff_ne] at h
  exact Nat.pos_of_ne_zero fun hzero => h.1 (UInt32.toNat_inj.mp hzero)

/-- Subtraction from the largest word never wraps: the source's overflow test
says that the exact sum fits. -/
private theorem add_lt_of_not_lt {a b : UInt32} (h : ¬ 0xFFFFFFFF - b < a) :
    a.toNat + b.toNat < 2 ^ 32 := by
  have hb := b.toNat_lt
  rw [UInt32.lt_iff_toNat_lt, UInt32.toNat_sub_of_le _ _
    (UInt32.le_iff_toNat_le.mpr (by simp; omega))] at h
  simp at h
  omega

private theorem add_le_of_not_lt {a b c : UInt32} (hle : ¬ c < a) (h : ¬ c - a < b) :
    a.toNat + b.toNat ≤ c.toNat := by
  rw [UInt32.not_lt] at hle
  rw [UInt32.lt_iff_toNat_lt, UInt32.toNat_sub_of_le _ _ hle] at h
  rw [UInt32.le_iff_toNat_le] at hle
  omega

/-! ## A successful mount -/

/-- The layout inequalities behind the 32-bit and 64-bit checks on the data
area, the cluster count and the table size. -/
private theorem layout_of_checks {total fatSize reserved bytes spc clusters : UInt32}
    {fats : UInt8} {dataStart : UInt64}
    (hdataStart : dataStart = reserved.toUInt64 + fats.toUInt64 * fatSize.toUInt64)
    (hclusters : clusters = (total - dataStart.toUInt32) / spc)
    (hfats : fats ≠ 0) (hdata : dataStart < total.toUInt64)
    (hentries : clusters.toUInt64 + 2 ≤ fatSize.toUInt64 * bytes.toUInt64 / 4) :
    reserved.toNat + fatSize.toNat ≤ dataStart.toUInt32.toNat ∧
      dataStart.toUInt32.toNat + clusters.toNat * spc.toNat ≤ total.toNat ∧
      4 * (clusters.toNat + 2) ≤ fatSize.toNat * bytes.toNat := by
  have hstart : dataStart.toNat = reserved.toNat + fats.toNat * fatSize.toNat := by
    rw [hdataStart, dataStart_toNat]
  have hlt : dataStart.toNat < total.toNat := by
    rw [UInt64.lt_iff_toNat_lt, UInt32.toNat_toUInt64] at hdata
    exact hdata
  have htotal := total.toNat_lt
  have hword : dataStart.toUInt32.toNat = dataStart.toNat := by
    rw [UInt64.toNat_toUInt32]
    exact Nat.mod_eq_of_lt (by omega)
  have hfatsPos : 1 ≤ fats.toNat :=
    Nat.pos_of_ne_zero fun hzero => hfats (UInt8.toNat_inj.mp hzero)
  have hfat : fatSize.toNat ≤ fats.toNat * fatSize.toNat := Nat.le_mul_of_pos_left _ hfatsPos
  have hsub : (total - dataStart.toUInt32).toNat = total.toNat - dataStart.toNat := by
    rw [UInt32.toNat_sub_of_le _ _ (UInt32.le_iff_toNat_le.mpr (by omega)), hword]
  have hcells : clusters.toNat * spc.toNat ≤ total.toNat - dataStart.toNat := by
    rw [hclusters, UInt32.toNat_div, hsub]
    exact Nat.div_mul_le_self _ _
  have hslots : clusters.toNat + 2 ≤ fatSize.toNat * bytes.toNat / 4 := by
    have hcount := clusters.toNat_lt
    rw [UInt64.le_iff_toNat_le, fatEntries_toNat, UInt64.toNat_add, UInt32.toNat_toUInt64,
      Nat.mod_eq_of_lt (by simp; omega)] at hentries
    exact hentries
  refine ⟨by omega, by omega, ?_⟩
  have := Nat.div_mul_le_self (fatSize.toNat * bytes.toNat) 4
  omega

/-- The checks of `establishGeometry` establish the geometry, and the extent
found by the search holds the whole volume. -/
theorem establishGeometry_geometry {device : BlockDevice ω} {volume : VolumeExtent}
    {s s' : FsState ω} (hdevice : s.fs.device = some device)
    (h : establishGeometry device volume s = (.ok, s')) :
    Geometry s'.fs device (fat32 s'.fs.sectorBuffer 32).toNat ∧
      s'.fs.sectorBuffer = s.fs.sectorBuffer ∧ s'.bus = s.bus ∧
      s'.fs.volumeStart = volume.start ∧
      (volume.sectors ≠ 0 → (fat32 s'.fs.sectorBuffer 32).toNat ≤ volume.sectors.toNat) := by
  unfold establishGeometry at h
  simp only at h
  split_ifs at h with hfields hroot hextent hdata hclusters hentries
  -- every check that fails returns early with another status
  all_goals try exact absurd (Prod.mk.inj h).1 (by decide)
  obtain rfl := (Prod.mk.inj h).2
  push Not at hfields hroot hextent hdata hclusters
  obtain ⟨hsize, hbytes, -, hfour, hspc, -, -, hfats, -⟩ := hfields
  obtain ⟨-, -, -, hroot⟩ := hroot
  obtain ⟨hvolume, hpartition, hsectors⟩ := hextent
  obtain ⟨-, hcount, hrootCount⟩ := hclusters
  rw [UInt64.not_le] at hdata
  rw [UInt64.not_lt] at hentries
  obtain ⟨hfat, hcells, hslots⟩ := layout_of_checks rfl rfl hfats hdata.1 hentries
  refine ⟨⟨rfl, hdevice, hsize.symm, ?_, ?_, ?_, hfat, hcells, add_lt_of_not_lt hvolume, ?_, ?_,
    hslots, ?_⟩, rfl, rfl, rfl, ?_⟩
  · simpa [UInt32.lt_iff_toNat_lt] using hbytes
  · have := congrArg UInt32.toNat hfour
    rw [UInt32.toNat_mod] at this
    exact Nat.dvd_of_mod_eq_zero this
  · exact toNat_pos_of_powerOfTwo (by simpa using hspc)
  · intro hknown
    exact add_le_of_not_lt (hsectors hknown).1 (hsectors hknown).2
  · simpa [UInt32.lt_iff_toNat_lt] using hcount
  · unfold validCluster
    rw [Bool.and_eq_true, decide_eq_true_eq, decide_eq_true_eq]
    exact ⟨UInt32.not_lt.mp hroot, UInt32.not_le.mp hrootCount⟩
  · intro hgranted
    exact UInt32.le_iff_toNat_le.mp (UInt32.not_lt.mp (hpartition hgranted))

/-! ## Sector arithmetic inside the geometry -/

section Arithmetic

variable {fs : Fat32Fs ω} {device : BlockDevice ω} {total : Nat} {cluster : UInt32} {index : Nat}

/-- A cluster's sectors, counted exactly, end inside the data area. -/
theorem Geometry.cell_lt (g : Geometry fs device total) (hvalid : validCluster fs cluster = true)
    (hindex : index < fs.sectorsPerCluster.toNat) :
    fs.dataStart.toNat + ((cluster.toNat - 2) * fs.sectorsPerCluster.toNat + index) < total := by
  obtain ⟨-, hcluster⟩ := (validCluster_iff fs cluster).mp hvalid
  have hrow : (cluster.toNat - 2 + 1) * fs.sectorsPerCluster.toNat ≤
      fs.clusterCount.toNat * fs.sectorsPerCluster.toNat := Nat.mul_le_mul_right _ hcluster
  rw [Nat.add_mul, Nat.one_mul] at hrow
  have := g.data_le
  omega

/-- The sector number of the source is exact. -/
theorem Geometry.clusterSector_toNat (g : Geometry fs device total)
    (hvalid : validCluster fs cluster = true) (hindex : index < fs.sectorsPerCluster.toNat) :
    (clusterSector fs cluster index).toNat =
      fs.dataStart.toNat + ((cluster.toNat - 2) * fs.sectorsPerCluster.toNat + index) := by
  have hcell := g.cell_lt hvalid hindex
  have htotal := g.total_lt
  have htwo := ((validCluster_iff fs cluster).mp hvalid).1
  have hsub : (cluster - 2).toNat = cluster.toNat - 2 :=
    UInt32.toNat_sub_of_le _ _ (UInt32.le_iff_toNat_le.mpr htwo)
  unfold clusterSector
  rw [UInt32.toNat_add, UInt32.toNat_add, UInt32.toNat_mul, hsub, UInt32.toNat_ofNat',
    Nat.mod_eq_of_lt (by omega : (cluster.toNat - 2) * fs.sectorsPerCluster.toNat < 2 ^ 32),
    Nat.mod_eq_of_lt (by omega : index < 2 ^ 32),
    Nat.mod_eq_of_lt
      (by omega : fs.dataStart.toNat + (cluster.toNat - 2) * fs.sectorsPerCluster.toNat < 2 ^ 32),
    Nat.mod_eq_of_lt (by omega)]
  omega

/-- The sectors of a valid cluster lie in the volume. -/
theorem Geometry.clusterSector_lt (g : Geometry fs device total)
    (hvalid : validCluster fs cluster = true) (hindex : index < fs.sectorsPerCluster.toNat) :
    (clusterSector fs cluster index).toNat < total := by
  rw [g.clusterSector_toNat hvalid hindex]
  exact g.cell_lt hvalid hindex

/-- The byte offset of a cluster's link in the table does not wrap. -/
theorem Geometry.link_toNat (g : Geometry fs device total)
    (hvalid : validCluster fs cluster = true) : (cluster * 4).toNat = 4 * cluster.toNat := by
  obtain ⟨-, hcluster⟩ := (validCluster_iff fs cluster).mp hvalid
  have := g.clusters_le
  rw [UInt32.toNat_mul]
  change cluster.toNat * 4 % 2 ^ 32 = _
  omega

/-- The link of a valid cluster lies in the first table. -/
theorem Geometry.link_lt (g : Geometry fs device total) (hvalid : validCluster fs cluster = true) :
    4 * cluster.toNat / fs.bytesPerSector.toNat < fs.fatSectors.toNat := by
  obtain ⟨-, hcluster⟩ := (validCluster_iff fs cluster).mp hvalid
  have hcovers := g.fat_covers
  rw [Nat.mul_comm fs.fatSectors.toNat] at hcovers
  exact Nat.div_lt_of_lt_mul (by omega)

/-- A link never straddles two sectors. -/
theorem Geometry.link_inside (g : Geometry fs device total) (cluster : UInt32) :
    4 * cluster.toNat % fs.bytesPerSector.toNat + 4 ≤ fs.bytesPerSector.toNat := by
  obtain ⟨words, hwords⟩ := g.bytes_dvd
  have hpos : 0 < words := by have := g.bytes_ge; omega
  have hmod := Nat.mod_lt cluster.toNat hpos
  rw [hwords, Nat.mul_mod_mul_left]
  omega

/-- The number of the table sector that holds a link is exact. -/
theorem Geometry.fatSector_toNat (g : Geometry fs device total)
    (hvalid : validCluster fs cluster = true) :
    (fs.fatStart + cluster * 4 / fs.bytesPerSector).toNat =
      fs.fatStart.toNat + 4 * cluster.toNat / fs.bytesPerSector.toNat := by
  have hlink := g.link_lt hvalid
  have hfat := g.fat_le
  have hdata := fs.dataStart.toNat_lt
  rw [UInt32.toNat_add, UInt32.toNat_div, g.link_toNat hvalid, Nat.mod_eq_of_lt (by omega)]

/-- The table sector that holds a link is a sector of the volume. -/
theorem Geometry.fatSector_lt (g : Geometry fs device total)
    (hvalid : validCluster fs cluster = true) :
    (fs.fatStart + cluster * 4 / fs.bytesPerSector).toNat < total := by
  have hlink := g.link_lt hvalid
  have hfat := g.fat_le
  have hdata := g.data_le
  rw [g.fatSector_toNat hvalid]
  omega

end Arithmetic

/-! ## The search for a volume -/

theorem readInto_sameVolume (s : FsState ω) (device : BlockDevice ω) (sector : UInt32) :
    SameVolume s.fs (s.readInto device sector).2.fs := rfl

/-- The boot sector in the buffer is what a successful read of `sector` left there. -/
def HoldsSector (device : BlockDevice ω) (sector : UInt32) (s : FsState ω) : Prop :=
  ∃ (buffer : Buffer) (bus : Bus ω),
    blockReadSector device sector buffer bus = (0, s.fs.sectorBuffer, s.bus)

theorem holdsSector_of_readInto {s s' : FsState ω} {device : BlockDevice ω} {sector : UInt32}
    (h : s.readInto device sector = (0, s')) : HoldsSector device sector s' := by
  refine ⟨s.fs.sectorBuffer, s.bus, ?_⟩
  unfold FsState.readInto at h
  obtain ⟨hstatus, rfl⟩ := Prod.mk.inj h
  exact Prod.ext hstatus rfl

theorem probePass_sameVolume (device : BlockDevice ω) (firstPass : Bool)
    (entries : List Partition) (s : FsState ω) :
    SameVolume s.fs (probePass device firstPass entries s).2.fs := by
  induction entries generalizing s with
  | nil => exact SameVolume.refl _
  | cons partition rest ih =>
    rw [probePass]
    split_ifs
    · exact ih s
    · simp only
      split_ifs
      · exact (readInto_sameVolume s device partition.start).trans (ih _)
      · exact readInto_sameVolume s device partition.start

/-- The partition a pass settles on is one of the entries, is not empty, and
its boot sector is in the buffer. -/
theorem probePass_some {device : BlockDevice ω} {firstPass : Bool} {entries : List Partition}
    {s s' : FsState ω} {partition : Partition}
    (h : probePass device firstPass entries s = (some partition, s')) :
    partition ∈ entries ∧ partition.size ≠ 0 ∧ HoldsSector device partition.start s' := by
  induction entries generalizing s with
  | nil => cases h
  | cons head rest ih =>
    rw [probePass] at h
    split_ifs at h with hskip
    · obtain ⟨hmem, hfound⟩ := ih h
      exact ⟨List.mem_cons_of_mem _ hmem, hfound⟩
    · simp only at h
      split_ifs at h with hreject
      · obtain ⟨hmem, hfound⟩ := ih h
        exact ⟨List.mem_cons_of_mem _ hmem, hfound⟩
      · obtain ⟨hhead, rfl⟩ := Prod.mk.inj h
        obtain rfl := Option.some.inj hhead
        push Not at hreject
        have hsize : head.size ≠ 0 := by
          intro hzero
          exact hskip (by simp [Partition.skipped, hzero])
        exact ⟨List.mem_cons_self, hsize, holdsSector_of_readInto (Prod.ext hreject.1 rfl)⟩

theorem probePartitions_sameVolume (device : BlockDevice ω) (entries : List Partition)
    (s : FsState ω) : SameVolume s.fs (probePartitions device entries s).2.fs := by
  have hfirst := probePass_sameVolume device true entries s
  unfold probePartitions
  split
  · rename_i partition s' hpass
    rw [hpass] at hfirst
    exact hfirst
  · rename_i s' hpass
    rw [hpass] at hfirst
    exact hfirst.trans (probePass_sameVolume device false entries s')

theorem probePartitions_some {device : BlockDevice ω} {entries : List Partition}
    {s s' : FsState ω} {partition : Partition}
    (h : probePartitions device entries s = (some partition, s')) :
    partition ∈ entries ∧ partition.size ≠ 0 ∧ HoldsSector device partition.start s' := by
  unfold probePartitions at h
  split at h
  · rename_i found s₁ hpass
    exact probePass_some (hpass.trans h)
  · exact probePass_some h

theorem locateVolume_sameVolume (device : BlockDevice ω) (s : FsState ω) :
    SameVolume s.fs (locateVolume device s).2.fs := by
  have hprobe := probePartitions_sameVolume device (partitions s.fs.sectorBuffer) s
  unfold locateVolume
  split_ifs
  · exact SameVolume.refl _
  · exact SameVolume.refl _
  · split <;> rename_i hsearch <;> rw [hsearch] at hprobe <;> exact hprobe

/-- The volume found starts the device, or is one of the four partition
entries of the boot record that was in the buffer. -/
theorem locateVolume_some {device : BlockDevice ω} {s s' : FsState ω} {volume : VolumeExtent}
    (hzero : HoldsSector device 0 s) (h : locateVolume device s = (some volume, s')) :
    HoldsSector device volume.start s' ∧
      (looksLikeFat32Bpb s.fs.sectorBuffer device.sectorSize = true → volume.start = 0) ∧
      (looksLikeFat32Bpb s.fs.sectorBuffer device.sectorSize = false →
        volume.sectors ≠ 0 ∧
          ∃ index < 4, volume.start = (Partition.parse s.fs.sectorBuffer index).start ∧
            volume.sectors = (Partition.parse s.fs.sectorBuffer index).size) := by
  unfold locateVolume at h
  split_ifs at h with hlooks hsignature
  · obtain ⟨hvolume, rfl⟩ := Prod.mk.inj h
    obtain rfl := Option.some.inj hvolume
    exact ⟨hzero, fun _ => rfl, fun hno => absurd (hlooks.symm.trans hno) (by decide)⟩
  · cases h
  · split at h
    · rename_i partition s₁ hsearch
      obtain ⟨hvolume, rfl⟩ := Prod.mk.inj h
      obtain rfl := Option.some.inj hvolume
      obtain ⟨hmem, hsize, hholds⟩ := probePartitions_some hsearch
      obtain ⟨index, hindex, rfl⟩ := List.mem_map.mp hmem
      exact ⟨hholds, fun hyes => absurd hyes hlooks,
        fun _ => ⟨hsize, index, List.mem_range.mp hindex, rfl, rfl⟩⟩
    · cases h

/-- The boot record in the buffer after the first read of a mount. -/
def firstSector (device : BlockDevice ω) (s : FsState ω) : Buffer :=
  (blockReadSector device 0 s.fs.sectorBuffer s.bus).2.1

/-- Everything a successful mount leaves behind. -/
theorem fat32Mount_ok {device : BlockDevice ω} {s s' : FsState ω}
    (h : fat32Mount (some device) s = (.ok, s')) :
    Geometry s'.fs device (fat32 s'.fs.sectorBuffer 32).toNat ∧
      HoldsSector device s'.fs.volumeStart s' ∧
      (looksLikeFat32Bpb (firstSector device s) device.sectorSize = true →
        s'.fs.volumeStart = 0) ∧
      (looksLikeFat32Bpb (firstSector device s) device.sectorSize = false →
        ∃ index < 4,
          s'.fs.volumeStart = (Partition.parse (firstSector device s) index).start ∧
          (fat32 s'.fs.sectorBuffer 32).toNat ≤
            (Partition.parse (firstSector device s) index).size.toNat) := by
  unfold fat32Mount at h
  simp only at h
  split_ifs at h with hargs hread
  · cases h
  · cases h
  · split at h
    · cases h
    · rename_i volume s₁ hlocate
      -- the buffer holds sector zero, and then the sector where the volume starts
      have hzero := holdsSector_of_readInto
        (s := { s with fs := { s.fs with mounted := false, device := some device } })
        (Prod.ext (not_not.mp hread) rfl)
      have hsame := locateVolume_sameVolume device
        (FsState.readInto { s with fs := { s.fs with mounted := false, device := some device } }
          device 0).2
      rw [hlocate] at hsame
      obtain ⟨hholds, hstart, hentry⟩ := locateVolume_some hzero hlocate
      have hdevice : s₁.fs.device = some device := (congrArg Fat32Fs.device hsame).symm
      obtain ⟨g, hbuffer, hbus, hvolume, hgranted⟩ := establishGeometry_geometry hdevice h
      refine ⟨g, ?_, ?_, ?_⟩
      · unfold HoldsSector at hholds ⊢
        rw [hbuffer, hbus, hvolume]
        exact hholds
      · intro hlooks
        rw [hvolume]
        exact hstart hlooks
      · intro hlooks
        obtain ⟨hsectors, index, hindex, hfirst, hsize⟩ := hentry hlooks
        refine ⟨index, hindex, hvolume.trans hfirst, ?_⟩
        have hle := hgranted hsectors
        rw [hsize] at hle
        exact hle

/-- Mount geometry: after a successful mount every sector number that the rest
of the file system computes is exact, inside the volume and inside the device,
and every link lies in the first table, before the data area. The total is the
32-bit field of the boot sector that the last successful read delivered. -/
theorem fat32Mount_sector_arithmetic {device : BlockDevice ω} {s s' : FsState ω}
    (h : fat32Mount (some device) s = (.ok, s')) :
    HoldsSector device s'.fs.volumeStart s' ∧
      validCluster s'.fs s'.fs.rootCluster = true ∧
      (∀ cluster, validCluster s'.fs cluster = true →
        (∀ index < s'.fs.sectorsPerCluster.toNat,
          (clusterSector s'.fs cluster index).toNat = s'.fs.dataStart.toNat +
              (cluster.toNat - 2) * s'.fs.sectorsPerCluster.toNat + index ∧
            s'.fs.dataStart.toNat ≤ (clusterSector s'.fs cluster index).toNat ∧
            (clusterSector s'.fs cluster index).toNat < (fat32 s'.fs.sectorBuffer 32).toNat ∧
            s'.fs.volumeStart.toNat + (clusterSector s'.fs cluster index).toNat < 2 ^ 32 ∧
            (device.sectorCount ≠ 0 →
              s'.fs.volumeStart.toNat + (clusterSector s'.fs cluster index).toNat <
                device.sectorCount.toNat)) ∧
          (cluster * 4).toNat = 4 * cluster.toNat ∧
          4 * cluster.toNat / s'.fs.bytesPerSector.toNat < s'.fs.fatSectors.toNat ∧
          4 * cluster.toNat % s'.fs.bytesPerSector.toNat + 4 ≤ s'.fs.bytesPerSector.toNat ∧
          s'.fs.fatStart.toNat + 4 * cluster.toNat / s'.fs.bytesPerSector.toNat <
            s'.fs.dataStart.toNat) ∧
      (looksLikeFat32Bpb (firstSector device s) device.sectorSize = false →
        ∃ index < 4,
          s'.fs.volumeStart = (Partition.parse (firstSector device s) index).start ∧
          s'.fs.volumeStart.toNat + (fat32 s'.fs.sectorBuffer 32).toNat ≤
            (Partition.parse (firstSector device s) index).start.toNat +
              (Partition.parse (firstSector device s) index).size.toNat) := by
  obtain ⟨g, hholds, -, hentry⟩ := fat32Mount_ok h
  refine ⟨hholds, g.root_valid, fun cluster hvalid => ⟨fun index hindex => ?_, ?_⟩, ?_⟩
  · -- sectors of the data area, then links in the table, then the partition entry
    have hcell := g.cell_lt hvalid hindex
    have htotal := g.total_lt
    rw [g.clusterSector_toNat hvalid hindex]
    refine ⟨by omega, by omega, hcell, by omega, fun hknown => ?_⟩
    have := g.fits hknown
    omega
  · have hlink := g.link_lt hvalid
    have hfat := g.fat_le
    exact ⟨g.link_toNat hvalid, hlink, g.link_inside cluster, by omega⟩
  · intro hlooks
    obtain ⟨index, hindex, hstart, hsize⟩ := hentry hlooks
    refine ⟨index, hindex, hstart, ?_⟩
    rw [← hstart]
    omega

/-! ### A small disk

A boot record whose first entry points to a volume of twelve sectors: one
reserved sector, one table sector and ten clusters of one sector. The root
directory holds the file `A` of 600 bytes, in the clusters three and five. -/

/-- The contents of the disk, zero where nothing is listed. -/
def sampleDisk (sector : UInt32) : Buffer := fun i =>
  match sector.toNat, i with
  | 0, 450 => 0x0C
  | 0, 454 => 1
  | 0, 458 => 12
  | 0, 510 => 0x55
  | 0, 511 => 0xAA
  | 1, 12 => 2
  | 1, 13 => 1
  | 1, 14 => 1
  | 1, 16 => 1
  | 1, 32 => 12
  | 1, 36 => 1
  | 1, 44 => 2
  | 1, 66 => 0x29
  | 1, 510 => 0x55
  | 1, 511 => 0xAA
  | 2, i => if 8 ≤ i ∧ i < 12 ∨ 20 ≤ i ∧ i < 24 then (if i % 4 = 3 then 0x0F else 0xFF)
      else if i = 12 then 5 else 0
  | 3, i => if i = 0 then 0x41 else if i < 11 then 0x20 else if i = 26 then 3
      else if i = 28 then 0x58 else if i = 29 then 2 else 0
  | 4, _ => 0x61
  | 6, i => if i < 88 then 0x62 else 0
  | _, _ => 0

/-- A device of thirteen sectors that always answers with the disk's contents. -/
def sampleDevice : BlockDevice Unit where
  sectorSize := 512
  sectorCount := 13
  readSector := some fun sector _ outside => (0, sampleDisk sector, outside)

/-- The zero-initialised object before the sample disk is mounted. -/
def unmounted : FsState Unit := ⟨Fat32Fs.zero, ⟨(), []⟩⟩

theorem fat32Mount_sector_arithmetic_sample :
    (fat32Mount (some sampleDevice) unmounted).1 = .ok ∧
      validCluster (fat32Mount (some sampleDevice) unmounted).2.fs
        (fat32Mount (some sampleDevice) unmounted).2.fs.rootCluster = true := by
  have hok : (fat32Mount (some sampleDevice) unmounted).1 = .ok := by decide +kernel
  exact ⟨hok, (fat32Mount_sector_arithmetic (Prod.ext hok rfl)).2.1⟩

end LevOS.Filesystem
