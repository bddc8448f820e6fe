import LevOS.Filesystem.Chain

/-!
# Links to the highest clusters

Three bounds decide which numbers are clusters. Mounting accepts up to
`0x0FFFFFF5` clusters, so that valid numbers go up to `0x0FFFFFF6`; `valid_cluster`
compares with the number of clusters; and `next_cluster` refuses every link from
`0x0FFFFFF0` on as reserved. A volume of more than `0x0FFFFFEE` clusters has
clusters that no link can lead to.

## Main results

* `decodeLink_valid_iff`, which valid clusters a table entry leads to
* `nextCluster_valid_iff`
-/

namespace LevOS.Filesystem

open LevOS.Drivers

variable {ω : Type}

/-- An entry that names a valid cluster leads there unless it is a reserved value. -/
theorem decodeLink_valid_iff {fs : Fat32Fs ω} {v : UInt32} (hvalid : validCluster fs v = true)
    (hcount : fs.clusterCount.toNat ≤ 0x0FFFFFF5) :
    decodeLink fs v = .ok v ↔ v < 0x0FFFFFF0 := by
  have hv := ((validCluster_iff fs v).mp hvalid).2
  -- the limit of the mount keeps valid clusters below the end markers
  have hend : ¬ 0x0FFFFFF8 ≤ v := by
    rw [UInt32.le_iff_toNat_le]
    simp
    omega
  rw [decodeLink, if_neg hend]
  by_cases hlow : v < 0x0FFFFFF0
  · have hplain : ¬ (v = 0x0FFFFFF7 ∨ (0x0FFFFFF0 ≤ v ∧ v < 0x0FFFFFF8)) := by
      rintro (rfl | ⟨hge, -⟩)
      · exact absurd hlow (by decide)
      · exact UInt32.not_lt.mpr hge hlow
    rw [if_neg hplain, if_neg (by simp [hvalid])]
    exact iff_of_true rfl hlow
  · -- a valid cluster among the reserved values is refused before its check
    rw [if_pos (Or.inr ⟨UInt32.not_lt.mp hlow, UInt32.not_le.mp hend⟩)]
    exact iff_of_false (by simp) hlow

/-- The end marker is beyond every cluster of a volume that can be mounted. -/
theorem Geometry.endMarker_invalid {fs : Fat32Fs ω} {device : BlockDevice ω} {total : Nat}
    (g : Geometry fs device total) : validCluster fs endMarker = false := by
  have hcount := g.clusters_le
  rw [Bool.eq_false_iff, ne_eq, validCluster_iff]
  rintro ⟨-, hlt⟩
  have hmarker : endMarker.toNat = 0x0FFFFFFF := rfl
  omega

/-- The entry that `next_cluster` finds for a cluster, and the status of its read. -/
def tableEntry (s : FsState ω) (cluster : UInt32) : Fat32Result × UInt32 :=
  let read := readSector s (s.fs.fatStart + cluster * 4 / s.fs.bytesPerSector)
  (read.1, fat32 read.2.fs.sectorBuffer (cluster * 4 % s.fs.bytesPerSector).toNat &&& 0x0FFFFFFF)

/-- If its read succeeds, `next_cluster` decodes the entry of a valid cluster. -/
theorem Geometry.nextCluster_decodes {s : FsState ω} {device : BlockDevice ω} {total : Nat}
    (g : Geometry s.fs device total) {cluster : UInt32} (hvalid : validCluster s.fs cluster = true)
    (hread : (tableEntry s cluster).1 = .ok) :
    (nextCluster s cluster).1 = decodeLink s.fs (tableEntry s cluster).2 := by
  -- the table covers every valid cluster, so only the read can fail
  obtain ⟨hsectors, hstraddle, -⟩ := g.link_guards hvalid
  have hsame := readSector_sameVolume s (s.fs.fatStart + cluster * 4 / s.fs.bytesPerSector)
  unfold tableEntry at hread ⊢
  unfold nextCluster
  rw [if_neg (by simp [hvalid])]
  simp only [if_neg hsectors, if_neg hstraddle] at hread ⊢
  generalize readSector s (s.fs.fatStart + cluster * 4 / s.fs.bytesPerSector) = read at hread hsame
  obtain ⟨status, s'⟩ := read
  obtain rfl : status = .ok := hread
  exact decodeLink_of_sameVolume hsame _

/-- Mounting and chain walking agree exactly on the clusters below the reserved
values: if the entry of a cluster names a valid cluster, `next_cluster` leads there
just in case the number is below `0x0FFFFFF0`. End markers are always recognised, and
no cluster has the number that stands for them. -/
theorem nextCluster_valid_iff {device : BlockDevice ω} {s₀ s₁ s : FsState ω}
    (hmount : fat32Mount (some device) s₀ = (.ok, s₁)) (hsame : SameVolume s₁.fs s.fs)
    {cluster : UInt32} (hvalid : validCluster s.fs cluster = true)
    (hread : (tableEntry s cluster).1 = .ok) :
    (∀ v, validCluster s.fs v = true → (tableEntry s cluster).2 = v →
        ((nextCluster s cluster).1 = .ok v ↔ v < 0x0FFFFFF0)) ∧
      (0x0FFFFFF8 ≤ (tableEntry s cluster).2 → (nextCluster s cluster).1 = .ok endMarker) ∧
      validCluster s.fs endMarker = false := by
  have g := (fat32Mount_ok hmount).1.of_sameVolume hsame
  have hdecodes := g.nextCluster_decodes hvalid hread
  refine ⟨?_, ?_, g.endMarker_invalid⟩
  · rintro v hv rfl
    rw [hdecodes]
    exact decodeLink_valid_iff hv g.clusters_le
  · intro hend
    rw [hdecodes, decodeLink, if_pos hend]

/-! ### A volume of the largest size

Sector zero is the boot sector of a volume of `0x0FFFFFF5` clusters of one sector.
The root directory in cluster two goes on in the last cluster, `0x0FFFFFF6`, and
cluster three in cluster two. -/

/-- The contents of the disk, zero where nothing is listed. -/
def hugeDisk (sector : UInt32) : Buffer := fun i =>
  match sector.toNat, i with
  | 0, 12 => 2
  | 0, 13 => 1
  | 0, 14 => 1
  | 0, 16 => 1
  | 0, 32 => 0xF6
  | 0, 33 => 0xFF
  | 0, 34 => 0x1F
  | 0, 35 => 0x10
  | 0, 38 => 0x20
  | 0, 44 => 2
  | 0, 66 => 0x29
  | 0, 510 => 0x55
  | 0, 511 => 0xAA
  | 1, 8 => 0xF6
  | 1, 9 => 0xFF
  | 1, 10 => 0xFF
  | 1, 11 => 0x0F
  | 1, 12 => 2
  | _, _ => 0

/-- A device as large as the volume. -/
def hugeDevice : BlockDevice Unit where
  sectorSize := 512
  sectorCount := 0x101FFFF6
  readSector := some fun sector _ outside => (0, hugeDisk sector, outside)

theorem nextCluster_valid_iff_huge :
    let s := (fat32Mount (some hugeDevice) unmounted).2
    (nextCluster s 3).1 = .ok 2 ∧ validCluster s.fs endMarker = false := by
  intro s
  have hmount : (fat32Mount (some hugeDevice) unmounted).1 = .ok := by decide +kernel
  have hthree : validCluster s.fs 3 = true := by decide +kernel
  obtain ⟨hlinks, -, hmarker⟩ := nextCluster_valid_iff (Prod.ext hmount rfl) (SameVolume.refl s.fs)
    hthree (by decide +kernel)
  exact ⟨(hlinks 2 (by decide +kernel) (by decide +kernel)).mpr (by decide), hmarker⟩

/-- The root directory goes on in the last cluster of the volume, and `next_cluster`
refuses to go there. -/
theorem nextCluster_refuses_last :
    let s := (fat32Mount (some hugeDevice) unmounted).2
    (fat32Mount (some hugeDevice) unmounted).1 = .ok ∧ validCluster s.fs 2 = true ∧
      validCluster s.fs 0x0FFFFFF6 = true ∧ tableEntry s 2 = (.ok, 0x0FFFFFF6) ∧
      (nextCluster s 2).1 ≠ .ok 0x0FFFFFF6 := by
  intro s
  exact ⟨by decide +kernel, by decide +kernel, by decide +kernel, by decide +kernel,
    by decide +kernel⟩

end LevOS.Filesystem
