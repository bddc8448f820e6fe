import LevOS.Filesystem.Geometry

/-!
# Cluster chains on a disk with fixed contents

A device may fail a read at any time, but a device that keeps its contents
answers every successful read of a sector with the same bytes. On such a device
the links of the allocation table form a fixed partial function, and following
it from a cluster gives that cluster's chain.

## Main definitions

* `Answers`, the device gives the fixed contents whenever a read succeeds
* `readAll`, a sequence of reads that must all succeed
* `link`, `chain`, the table as a partial function and its iteration

## Main results

* `Geometry.readSector_eq`: inside the geometry only the device can fail a read
* `Geometry.nextCluster_eq`: `next_cluster` computes `link`
-/

namespace LevOS.Filesystem

open LevOS.Drivers

variable {ω : Type}

/-- The contents of a disk, by physical sector and offset. -/
abbrev Contents := UInt32 → Buffer

/-- Whenever a read succeeds, the buffer holds the sector's contents. -/
def Answers (device : BlockDevice ω) (contents : Contents) : Prop :=
  ∀ (sector : UInt32) (buffer : Buffer) (bus : Bus ω),
    (blockReadSector device sector buffer bus).1 = 0 →
      ∀ i < device.sectorSize.toNat,
        (blockReadSector device sector buffer bus).2.1 i = contents sector i

/-- The sample disk answers with its contents. -/
theorem sampleDevice_answers : Answers sampleDevice sampleDisk := by
  intro sector buffer bus hread i _
  have hsize : sampleDevice.sectorSize ≠ 0 := by decide
  unfold blockReadSector at hread ⊢
  by_cases hpast : sampleDevice.sectorCount ≠ 0 ∧ sampleDevice.sectorCount ≤ sector
  · simp [sampleDevice, show (13 : UInt32) ≤ sector from hpast.2] at hread
  · simp only [if_neg hsize, if_neg hpast]
    rfl

/-- Read physical sectors in order, each over the last, until one read fails. -/
def readAll (device : BlockDevice ω) : List UInt32 → FsState ω → Option (FsState ω)
  | [], s => some s
  | sector :: sectors, s =>
    if (s.readInto device sector).1 = 0 then readAll device sectors (s.readInto device sector).2
    else none

theorem readAll_append (device : BlockDevice ω) (first second : List UInt32) (s : FsState ω) :
    readAll device (first ++ second) s =
      (readAll device first s).bind (readAll device second) := by
  induction first generalizing s with
  | nil => rfl
  | cons sector sectors ih =>
    rw [List.cons_append, readAll, readAll]
    split_ifs
    · exact ih _
    · rfl

theorem readAll_sameVolume {device : BlockDevice ω} {sectors : List UInt32} {s s' : FsState ω}
    (h : readAll device sectors s = some s') : SameVolume s.fs s'.fs := by
  induction sectors generalizing s with
  | nil =>
    obtain rfl := Option.some.inj h
    exact SameVolume.refl _
  | cons sector sectors ih =>
    rw [readAll] at h
    split_ifs at h
    exact (readInto_sameVolume s device sector).trans (ih h)

/-! ## Links -/

/-- The physical sector of the table that holds a cluster's link. -/
def fatSector (fs : Fat32Fs ω) (cluster : UInt32) : UInt32 :=
  fs.volumeStart + (fs.fatStart + cluster * 4 / fs.bytesPerSector)

/-- The physical number of sector `index` of a cluster. -/
def dataSector (fs : Fat32Fs ω) (cluster : UInt32) (index : Nat) : UInt32 :=
  fs.volumeStart + clusterSector fs cluster index

/-- The 28-bit table entry of a cluster. -/
def fatValue (fs : Fat32Fs ω) (contents : Contents) (cluster : UInt32) : UInt32 :=
  fat32 (contents (fatSector fs cluster)) (cluster * 4 % fs.bytesPerSector).toNat &&& 0x0FFFFFFF

/-- The cluster a table entry leads to, if it leads to one: values from
`0x0FFFFFF0` on are reserved, bad or end markers. -/
def link (fs : Fat32Fs ω) (contents : Contents) (cluster : UInt32) : Option UInt32 :=
  if fatValue fs contents cluster < 0x0FFFFFF0 ∧
      validCluster fs (fatValue fs contents cluster) = true then
    some (fatValue fs contents cluster)
  else none

/-- The first `count` clusters of the chain that starts at a cluster. -/
def chain (fs : Fat32Fs ω) (contents : Contents) : Nat → UInt32 → Option (List UInt32)
  | 0, _ => some []
  | 1, cluster => some [cluster]
  | count + 2, cluster =>
    (link fs contents cluster).bind fun next =>
      (chain fs contents (count + 1) next).map (cluster :: ·)

theorem fatSector_of_sameVolume {fs fs' : Fat32Fs ω} (h : SameVolume fs fs') (cluster : UInt32) :
    fatSector fs' cluster = fatSector fs cluster := by
  unfold SameVolume at h
  rw [← h]
  rfl

theorem dataSector_of_sameVolume {fs fs' : Fat32Fs ω} (h : SameVolume fs fs') (cluster : UInt32)
    (index : Nat) : dataSector fs' cluster index = dataSector fs cluster index := by
  unfold SameVolume at h
  rw [← h]
  rfl

theorem fatValue_of_sameVolume {fs fs' : Fat32Fs ω} (h : SameVolume fs fs') (contents : Contents)
    (cluster : UInt32) : fatValue fs' contents cluster = fatValue fs contents cluster := by
  unfold SameVolume at h
  rw [← h]
  rfl

theorem link_of_sameVolume {fs fs' : Fat32Fs ω} (h : SameVolume fs fs') (contents : Contents)
    (cluster : UInt32) : link fs' contents cluster = link fs contents cluster := by
  unfold SameVolume at h
  rw [← h]
  rfl

theorem chain_of_sameVolume {fs fs' : Fat32Fs ω} (h : SameVolume fs fs') (contents : Contents)
    (count : Nat) (cluster : UInt32) :
    chain fs' contents count cluster = chain fs contents count cluster := by
  have hlink : link fs' contents = link fs contents := funext (link_of_sameVolume h contents)
  fun_induction chain fs' contents count cluster with
  | case1 => rfl
  | case2 => rfl
  | case3 count cluster ih =>
    rw [chain, hlink]
    congr 1
    funext next
    rw [ih]

/-! ## Reads inside the geometry -/

theorem decodeLink_of_sameVolume {fs fs' : Fat32Fs ω} (h : SameVolume fs fs') (value : UInt32) :
    decodeLink fs' value = decodeLink fs value := by
  unfold decodeLink
  rw [h.validCluster_eq]

/-- A read changes the sector buffer only, whether it succeeds or not. -/
theorem readSector_sameVolume (s : FsState ω) (sector : UInt32) :
    SameVolume s.fs (readSector s sector).2.fs := by
  unfold readSector
  split
  · exact SameVolume.refl _
  · split_ifs
    · exact SameVolume.refl _
    · exact readInto_sameVolume s _ _

section Reads

variable {device : BlockDevice ω} {total : Nat} {contents : Contents} {s : FsState ω}

/-- Inside the volume only the device can fail a read. -/
theorem Geometry.readSector_eq (g : Geometry s.fs device total) {sector : UInt32}
    (hsector : sector.toNat < total) :
    readSector s sector =
      (if (s.readInto device (s.fs.volumeStart + sector)).1 = 0 then .ok else .eio,
        (s.readInto device (s.fs.volumeStart + sector)).2) := by
  have htotal := g.total_lt
  have hguard : ¬ (s.fs.mounted = false ∨
      (device.sectorCount ≠ 0 ∧ (device.sectorCount < s.fs.volumeStart ∨
        device.sectorCount - s.fs.volumeStart ≤ sector)) ∨
      0xFFFFFFFF - s.fs.volumeStart < sector) := by
    rintro (hmounted | ⟨hknown, hrange⟩ | hword)
    · rw [g.mounted] at hmounted
      cases hmounted
    · have hfits := g.fits hknown
      have hle : s.fs.volumeStart ≤ device.sectorCount := UInt32.le_iff_toNat_le.mpr (by omega)
      rcases hrange with hbefore | hafter
      · exact UInt32.not_lt.mpr hle hbefore
      · rw [UInt32.le_iff_toNat_le, UInt32.toNat_sub_of_le _ _ hle] at hafter
        omega
    · have hle : s.fs.volumeStart ≤ 0xFFFFFFFF :=
        UInt32.le_iff_toNat_le.mpr (Nat.le_of_lt_succ s.fs.volumeStart.toNat_lt)
      rw [UInt32.lt_iff_toNat_lt, UInt32.toNat_sub_of_le _ _ hle] at hword
      simp at hword
      omega
  unfold readSector
  rw [g.device_eq]
  simp only [if_neg hguard]

/-- Inside the volume the block layer hands every read on to the callback. -/
theorem Geometry.blockReadSector_eq (g : Geometry s.fs device total) {sector : UInt32}
    (hsector : sector.toNat < total) {read : UInt32 → Buffer → ω → Int × Buffer × ω}
    (hread : device.readSector = some read) (buffer : Buffer) (bus : Bus ω) :
    blockReadSector device (s.fs.volumeStart + sector) buffer bus =
      match read (s.fs.volumeStart + sector) buffer bus.outside with
      | (status, buffer', outside') =>
        (status, buffer', ⟨outside', bus.requests ++ [⟨s.fs.volumeStart + sector, status⟩]⟩) := by
  have hsize : device.sectorSize ≠ 0 := by
    intro hzero
    have hge := g.bytes_ge
    rw [← g.sectorSize_eq, hzero] at hge
    exact absurd hge (by decide)
  have hpast : ¬ (device.sectorCount ≠ 0 ∧ device.sectorCount ≤ s.fs.volumeStart + sector) := by
    rintro ⟨hknown, hle⟩
    have hfits := g.fits hknown
    have htotal := g.total_lt
    rw [UInt32.le_iff_toNat_le, UInt32.toNat_add, Nat.mod_eq_of_lt (by omega)] at hle
    omega
  unfold blockReadSector
  simp only [hread, if_neg hsize, if_neg hpast]

/-- A successful read leaves the sector's contents in the buffer. -/
theorem Answers.sectorBuffer (hanswers : Answers device contents)
    (g : Geometry s.fs device total) {sector : UInt32}
    (hread : (s.readInto device sector).1 = 0) {i : Nat} (hi : i < s.fs.bytesPerSector.toNat) :
    (s.readInto device sector).2.fs.sectorBuffer i = contents sector i :=
  hanswers sector s.fs.sectorBuffer s.bus hread i (by rw [g.sectorSize_eq]; exact hi)

theorem fat32_congr {p q : Buffer} {offset : Nat} (h : ∀ i < 4, p (offset + i) = q (offset + i)) :
    fat32 p offset = fat32 q offset := by
  have h0 := h 0 (by decide)
  have h1 := h 1 (by decide)
  have h2 := h 2 (by decide)
  have h3 := h 3 (by decide)
  rw [Nat.add_zero] at h0
  unfold fat32
  rw [h0, h1, h2, h3]

/-- The guards of `next_cluster` never reject a valid cluster. -/
theorem Geometry.link_guards (g : Geometry s.fs device total) {cluster : UInt32}
    (hvalid : validCluster s.fs cluster = true) :
    ¬ s.fs.fatSectors ≤ cluster * 4 / s.fs.bytesPerSector ∧
      ¬ s.fs.bytesPerSector < cluster * 4 % s.fs.bytesPerSector + 4 ∧
      (cluster * 4 % s.fs.bytesPerSector).toNat + 4 ≤ s.fs.bytesPerSector.toNat := by
  have hlink := g.link_lt hvalid
  have hinside := g.link_inside cluster
  have hbytes := s.fs.bytesPerSector.toNat_lt
  have hmod : (cluster * 4 % s.fs.bytesPerSector).toNat =
      4 * cluster.toNat % s.fs.bytesPerSector.toNat := by
    rw [UInt32.toNat_mod, g.link_toNat hvalid]
  refine ⟨?_, ?_, by omega⟩
  · rw [UInt32.not_le, UInt32.lt_iff_toNat_lt, UInt32.toNat_div, g.link_toNat hvalid]
    exact hlink
  · rw [UInt32.not_lt, UInt32.le_iff_toNat_le, UInt32.toNat_add, hmod]
    exact (Nat.mod_le _ _).trans hinside

theorem decodeLink_eq (fs : Fat32Fs ω) (contents : Contents) (cluster : UInt32) :
    decodeLink fs (fatValue fs contents cluster) =
      if 0x0FFFFFF8 ≤ fatValue fs contents cluster then .ok endMarker
      else match link fs contents cluster with
        | some next => .ok next
        | none => .error .ebadfs := by
  unfold decodeLink link
  generalize fatValue fs contents cluster = value
  by_cases hend : 0x0FFFFFF8 ≤ value
  · rw [if_pos hend, if_pos hend]
  · rw [if_neg hend, if_neg hend]
    rw [UInt32.not_le] at hend
    by_cases hbad : 0x0FFFFFF0 ≤ value
    · rw [if_pos (Or.inr ⟨hbad, hend⟩), if_neg fun h => UInt32.not_lt.mpr hbad h.1]
    · have hseven : value ≠ 0x0FFFFFF7 := by
        rintro rfl
        exact hbad (by decide)
      rw [if_neg (by simp [hseven, hbad])]
      rw [UInt32.not_le] at hbad
      cases hvalid : validCluster fs value <;> simp [hbad]

/-- On fixed contents `next_cluster` follows `link`; the end marker and the
failures are the entries that lead nowhere. -/
theorem Geometry.nextCluster_eq (g : Geometry s.fs device total)
    (hanswers : Answers device contents) {cluster : UInt32}
    (hvalid : validCluster s.fs cluster = true) :
    nextCluster s cluster =
      (if (s.readInto device (fatSector s.fs cluster)).1 ≠ 0 then .error .eio
        else if 0x0FFFFFF8 ≤ fatValue s.fs contents cluster then .ok endMarker
        else match link s.fs contents cluster with
          | some next => .ok next
          | none => .error .ebadfs,
        (s.readInto device (fatSector s.fs cluster)).2) := by
  obtain ⟨hsectors, hstraddle, hinside⟩ := g.link_guards hvalid
  have hread := g.readSector_eq (g.fatSector_lt hvalid)
  unfold nextCluster
  rw [if_neg (by simp [hvalid])]
  simp only [if_neg hsectors, if_neg hstraddle]
  rw [hread]
  change _ = (if (s.readInto device (s.fs.volumeStart +
    (s.fs.fatStart + cluster * 4 / s.fs.bytesPerSector))).1 ≠ 0 then _ else _, _)
  by_cases hok : (s.readInto device (s.fs.volumeStart +
      (s.fs.fatStart + cluster * 4 / s.fs.bytesPerSector))).1 = 0
  · rw [if_pos hok, if_neg (not_not.mpr hok), ← decodeLink_eq]
    simp only
    unfold fatValue
    rw [fat32_congr fun i hi => hanswers.sectorBuffer g hok (by omega)]
    rfl
  · rw [if_neg hok, if_pos hok]
    rfl

theorem link_eq_some {fs : Fat32Fs ω} {cluster next : UInt32}
    (h : link fs contents cluster = some next) :
    fatValue fs contents cluster = next ∧ next < 0x0FFFFFF0 ∧ validCluster fs next = true := by
  unfold link at h
  split_ifs at h with hvalue
  obtain rfl := Option.some.inj h
  exact ⟨rfl, hvalue⟩

/-- A link is not an end marker. -/
theorem not_end_of_link {fs : Fat32Fs ω} {cluster next : UInt32}
    (h : link fs contents cluster = some next) : ¬ 0x0FFFFFF8 ≤ fatValue fs contents cluster := by
  obtain ⟨hvalue, hlt, -⟩ := link_eq_some h
  rw [hvalue, UInt32.not_le]
  exact UInt32.lt_trans hlt (by decide)

theorem ne_endMarker_of_link {fs : Fat32Fs ω} {cluster next : UInt32}
    (h : link fs contents cluster = some next) : next ≠ endMarker := by
  obtain ⟨-, hlt, -⟩ := link_eq_some h
  rintro rfl
  exact absurd hlt (by decide)

/-- A failure of `next_cluster` is reported as one. -/
theorem nextCluster_ne_error_ok (s : FsState ω) (cluster : UInt32) :
    (nextCluster s cluster).1 ≠ .error .ok := by
  unfold nextCluster decodeLink
  simp only
  split_ifs
  · simp
  · simp
  · simp
  · split <;> dsimp only
    · split_ifs <;> simp
    · simp

/-- `next_cluster` leads to another cluster exactly when its read succeeds and
the table has a link. -/
theorem Geometry.nextCluster_ok_iff (g : Geometry s.fs device total)
    (hanswers : Answers device contents) {cluster next : UInt32} {s' : FsState ω}
    (hvalid : validCluster s.fs cluster = true) :
    nextCluster s cluster = (.ok next, s') ∧ next ≠ endMarker ↔
      (s.readInto device (fatSector s.fs cluster)).1 = 0 ∧
        link s.fs contents cluster = some next ∧
        (s.readInto device (fatSector s.fs cluster)).2 = s' := by
  rw [g.nextCluster_eq hanswers hvalid, Prod.mk.injEq]
  constructor
  · rintro ⟨⟨hresult, hstate⟩, hnext⟩
    split_ifs at hresult with hread hend
    · exact absurd (Except.ok.inj hresult).symm hnext
    · refine ⟨not_not.mp hread, ?_, hstate⟩
      split at hresult
      · rename_i target hlink
        rw [hlink, Except.ok.inj hresult]
      · cases hresult
  · rintro ⟨hread, hlink, hstate⟩
    rw [if_neg (not_not.mpr hread), if_neg (not_end_of_link hlink), hlink]
    exact ⟨⟨rfl, hstate⟩, ne_endMarker_of_link hlink⟩

end Reads

end LevOS.Filesystem
