import LevOS.Filesystem.Confinement
import LevOS.Filesystem.Chain
import LevOS.Foundation.Overlay

/-!
# What a file read delivers

On a disk with fixed contents, `fat32_read_file` succeeds exactly when the
cluster chain is long enough and every read on the way succeeds, and then the
caller's buffer holds the leading bytes of the chain's data. The three nested
loops are followed from the inside out; between two clusters the table sector
takes the place of the data in the sector buffer, which the copy no longer
needs.

## Main definitions

* `fileData`, the bytes of the sectors of a list of clusters
* `neededReads`, the sectors a read of `n` bytes asks for, in order

## Main results

* `readSectors_spec`, `readClusters_ok`, `chain_of_readClusters_ok`
* `fat32ReadFile_contents`
-/

namespace LevOS.Filesystem

open LevOS.Drivers LevOS.Foundation

variable {ω : Type}

/-- The bytes of one sector of a cluster. -/
def sectorData (fs : Fat32Fs ω) (contents : Contents) (cluster : UInt32) (index : Nat) :
    List UInt8 :=
  (List.range fs.bytesPerSector.toNat).map (contents (dataSector fs cluster index))

/-- The bytes of a cluster, sector after sector. -/
def clusterData (fs : Fat32Fs ω) (contents : Contents) (cluster : UInt32) : List UInt8 :=
  (List.range fs.sectorsPerCluster.toNat).flatMap (sectorData fs contents cluster)

/-- The bytes of a list of clusters, in order. -/
def fileData (fs : Fat32Fs ω) (contents : Contents) (clusters : List UInt32) : List UInt8 :=
  clusters.flatMap (clusterData fs contents)

/-- The number of bytes in a cluster. -/
def clusterBytes (fs : Fat32Fs ω) : Nat :=
  fs.sectorsPerCluster.toNat * fs.bytesPerSector.toNat

/-- The number of clusters that hold `n` bytes, rounded up. -/
def clustersFor (fs : Fat32Fs ω) (n : Nat) : Nat := (n + clusterBytes fs - 1) / clusterBytes fs

/-- The sectors of a cluster that hold its first `n` bytes. -/
def sectorPlan (fs : Fat32Fs ω) (cluster : UInt32) : List Nat → Nat → List UInt32
  | [], _ => []
  | index :: indices, n =>
    if n = 0 then []
    else dataSector fs cluster index ::
      sectorPlan fs cluster indices (n - fs.bytesPerSector.toNat)

/-- The reads that `n` bytes of a chain need: the sectors of each cluster, and
the table sector of its link when bytes remain after it. -/
def neededReads (fs : Fat32Fs ω) : List UInt32 → Nat → List UInt32
  | [], _ => []
  | cluster :: clusters, n =>
    sectorPlan fs cluster (List.range fs.sectorsPerCluster.toNat) n ++
      if clusterBytes fs < n then
        fatSector fs cluster :: neededReads fs clusters (n - clusterBytes fs)
      else []

section SameVolume

variable {fs fs' : Fat32Fs ω}

theorem clusterBytes_of_sameVolume (h : SameVolume fs fs') : clusterBytes fs' = clusterBytes fs := by
  unfold SameVolume at h
  rw [← h]
  rfl

theorem sectorData_of_sameVolume (h : SameVolume fs fs') (contents : Contents) :
    sectorData fs' contents = sectorData fs contents := by
  unfold SameVolume at h
  rw [← h]
  rfl

theorem fileData_of_sameVolume (h : SameVolume fs fs') (contents : Contents) :
    fileData fs' contents = fileData fs contents := by
  unfold SameVolume at h
  rw [← h]
  rfl

theorem clustersFor_of_sameVolume (h : SameVolume fs fs') (n : Nat) :
    clustersFor fs' n = clustersFor fs n := by
  unfold SameVolume at h
  rw [← h]
  rfl

theorem sectorPlan_of_sameVolume (h : SameVolume fs fs') (cluster : UInt32) (indices : List Nat)
    (n : Nat) : sectorPlan fs' cluster indices n = sectorPlan fs cluster indices n := by
  induction indices generalizing n with
  | nil => rfl
  | cons index indices ih =>
    rw [sectorPlan, sectorPlan, dataSector_of_sameVolume h, ih, h.bytesPerSector_eq]

theorem neededReads_of_sameVolume (h : SameVolume fs fs') (clusters : List UInt32) (n : Nat) :
    neededReads fs' clusters n = neededReads fs clusters n := by
  induction clusters generalizing n with
  | nil => rfl
  | cons cluster clusters ih =>
    rw [neededReads, neededReads, sectorPlan_of_sameVolume h, clusterBytes_of_sameVolume h,
      fatSector_of_sameVolume h, ih, h.sectorsPerCluster_eq]

end SameVolume

/-! ## One sector -/

theorem copyBytes_eq_overlay (source : Buffer) (copied amount : Nat) (buffer : Buffer) :
    copyBytes source copied amount buffer =
      overlay buffer copied ((List.range amount).map source) := by
  induction amount with
  | zero => simp [copyBytes]
  | succ amount ih =>
    rw [copyBytes, ih, List.range_succ, List.map_append, ← overlay_append, List.map_singleton,
      overlay_singleton]
    simp

theorem Progress.amount_toNat (p : Progress ω) :
    p.amount.toNat = min p.remaining.toNat p.state.fs.bytesPerSector.toNat := by
  unfold Progress.amount
  split_ifs with h <;> rw [UInt32.lt_iff_toNat_lt] at h <;> omega

@[simp]
theorem sectorData_length (fs : Fat32Fs ω) (contents : Contents) (cluster : UInt32)
    (index : Nat) : (sectorData fs contents cluster index).length = fs.bytesPerSector.toNat := by
  simp [sectorData]

theorem sectorData_take (fs : Fat32Fs ω) (contents : Contents) (cluster : UInt32) (index n : Nat) :
    (sectorData fs contents cluster index).take n =
      (List.range (min n fs.bytesPerSector.toNat)).map (contents (dataSector fs cluster index)) := by
  unfold sectorData
  rw [← List.map_take, List.take_range]

section Loops

variable {device : BlockDevice ω} {total : Nat} {contents : Contents}

/-- The loop state after the sectors of a list have been copied. -/
structure Delivered (p : Progress ω) (s' : FsState ω) (data : List UInt8) (p' : Progress ω) :
    Prop where
  state : p'.state = s'
  buffer : p'.buffer = overlay p.buffer p.copied.toNat (data.take p.remaining.toNat)
  copied : p'.copied.toNat = p.copied.toNat + min p.remaining.toNat data.length
  remaining : p'.remaining.toNat = p.remaining.toNat - data.length

theorem Geometry.readSector_cluster {s : FsState ω} (g : Geometry s.fs device total)
    {cluster : UInt32} (hvalid : validCluster s.fs cluster = true) {index : Nat}
    (hindex : index < s.fs.sectorsPerCluster.toNat) :
    readSector s (clusterSector s.fs cluster index) =
      (if (s.readInto device (dataSector s.fs cluster index)).1 = 0 then .ok else .eio,
        (s.readInto device (dataSector s.fs cluster index)).2) := by
  apply g.readSector_eq
  exact g.clusterSector_lt hvalid hindex

/-- Nothing is read for no bytes. -/
theorem sectorPlan_zero (fs : Fat32Fs ω) (cluster : UInt32) (indices : List Nat) :
    sectorPlan fs cluster indices 0 = [] := by
  cases indices with
  | nil => rfl
  | cons index indices => rw [sectorPlan, if_pos rfl]

/-- The sectors that a cluster is read from lie in the volume. -/
theorem Geometry.sectorPlan_inside {fs : Fat32Fs ω} (g : Geometry fs device total) {cluster : UInt32}
    (hvalid : validCluster fs cluster = true) (indices : List Nat) (n : Nat)
    (hindices : ∀ index ∈ indices, index < fs.sectorsPerCluster.toNat) :
    ∀ sector ∈ sectorPlan fs cluster indices n, ∃ inside : UInt32, inside.toNat < total ∧
      sector = fs.volumeStart + inside := by
  induction indices generalizing n with
  | nil => simp [sectorPlan]
  | cons index indices ih =>
    rw [sectorPlan]
    split_ifs
    · simp
    · intro sector hmem
      rcases List.mem_cons.mp hmem with rfl | hmem
      · exact ⟨_, g.clusterSector_lt hvalid (hindices index List.mem_cons_self), rfl⟩
      · exact ih _ (fun i hi => hindices i (List.mem_cons_of_mem _ hi)) sector hmem

/-- The loop state after one sector has been copied. -/
def Progress.advance (p : Progress ω) (s : FsState ω) : Progress ω where
  state := s
  buffer := copyBytes s.fs.sectorBuffer p.copied.toNat p.amount.toNat p.buffer
  copied := p.copied + p.amount
  remaining := p.remaining - p.amount

/-- One sector delivers its data. -/
theorem Progress.advance_delivered (hanswers : Answers device contents) (p : Progress ω)
    (g : Geometry p.state.fs device total) (cluster : UInt32) (index : Nat)
    (hfit : p.copied.toNat + p.remaining.toNat < 2 ^ 32)
    (hok : (p.state.readInto device (dataSector p.state.fs cluster index)).1 = 0) :
    Delivered p (p.state.readInto device (dataSector p.state.fs cluster index)).2
      (sectorData p.state.fs contents cluster index)
      (p.advance (p.state.readInto device (dataSector p.state.fs cluster index)).2) := by
  have hamount := p.amount_toNat
  refine ⟨rfl, ?_, ?_, ?_⟩
  · rw [sectorData_take, ← hamount]
    change copyBytes _ _ _ _ = _
    rw [copyBytes_eq_overlay]
    congr 1
    apply List.map_congr_left
    intro i hi
    exact hanswers.sectorBuffer g hok (by have := List.mem_range.mp hi; omega)
  · change (p.copied + p.amount).toNat = _
    rw [UInt32.toNat_add, hamount, sectorData_length, Nat.mod_eq_of_lt (by omega)]
  · have hle : p.amount ≤ p.remaining := UInt32.le_iff_toNat_le.mpr (by omega)
    change (p.remaining - p.amount).toNat = _
    rw [UInt32.toNat_sub_of_le _ _ hle, hamount, sectorData_length]
    omega

/-- Deliveries one after the other deliver the concatenated data. -/
theorem Delivered.append {p p' p'' : Progress ω} {s' s'' : FsState ω} {first second : List UInt8}
    (h : Delivered p s' first p') (h' : Delivered p' s'' second p'') :
    Delivered p s'' (first ++ second) p'' := by
  have hlength : (first.take p.remaining.toNat).length = min p.remaining.toNat first.length :=
    List.length_take
  refine ⟨h'.state, ?_, ?_, ?_⟩
  · rw [h'.buffer, h.buffer, h.copied, h.remaining, ← hlength, overlay_append, List.take_append]
  · rw [h'.copied, h.copied, h.remaining, List.length_append]
    omega
  · rw [h'.remaining, h.remaining, List.length_append]
    omega

/-- The sector loop copies the data of its sectors, up to what remains, or
fails with the first read that fails. -/
theorem readSectors_spec (hanswers : Answers device contents) {cluster : UInt32}
    (indices : List Nat) (p : Progress ω) (g : Geometry p.state.fs device total)
    (hvalid : validCluster p.state.fs cluster = true)
    (hindices : ∀ index ∈ indices, index < p.state.fs.sectorsPerCluster.toNat)
    (hfit : p.copied.toNat + p.remaining.toNat < 2 ^ 32) :
    (∀ s', readAll device (sectorPlan p.state.fs cluster indices p.remaining.toNat) p.state =
        some s' →
      ∃ p', readSectors cluster indices p = (none, p') ∧
        Delivered p s' (indices.flatMap (sectorData p.state.fs contents cluster)) p') ∧
    (readAll device (sectorPlan p.state.fs cluster indices p.remaining.toNat) p.state = none →
      ∃ p', readSectors cluster indices p = (some .eio, p')) := by
  induction indices generalizing p with
  | nil =>
    refine ⟨fun s' h => ?_, fun h => by cases h⟩
    exact ⟨p, rfl, (Option.some.inj h), by simp, by simp, by simp⟩
  | cons index indices ih =>
    rw [readSectors, sectorPlan]
    by_cases hzero : p.remaining = 0
    · have hnat : p.remaining.toNat = 0 := by rw [hzero]; rfl
      rw [if_pos hzero, if_pos hnat]
      refine ⟨fun s' h => ?_, fun h => by cases h⟩
      exact ⟨p, rfl, (Option.some.inj h), by simp [hnat], by simp [hnat], by simp [hnat]⟩
    · have hnat : p.remaining.toNat ≠ 0 := fun h => hzero (UInt32.toNat_inj.mp h)
      rw [if_neg hzero, if_neg hnat, readAll,
        g.readSector_cluster hvalid (hindices index List.mem_cons_self)]
      by_cases hok : (p.state.readInto device (dataSector p.state.fs cluster index)).1 = 0
      · rw [if_pos hok, if_pos hok]
        have hone := p.advance_delivered hanswers g cluster index hfit hok
        -- the rest of the loop runs from the advanced state, on the same volume
        obtain ⟨hsome, hnone⟩ := ih
          (p.advance (p.state.readInto device (dataSector p.state.fs cluster index)).2)
          (g.of_sameVolume (readInto_sameVolume _ _ _)) hvalid
          (fun i hi => hindices i (List.mem_cons_of_mem _ hi))
          (by rw [hone.copied, hone.remaining]; omega)
        have hsame : SameVolume p.state.fs
            (p.advance (p.state.readInto device (dataSector p.state.fs cluster index)).2).state.fs :=
          readInto_sameVolume _ _ _
        rw [hone.remaining, sectorData_length, sectorPlan_of_sameVolume hsame,
          sectorData_of_sameVolume hsame] at hsome
        rw [hone.remaining, sectorData_length, sectorPlan_of_sameVolume hsame] at hnone
        refine ⟨fun s' h => ?_, hnone⟩
        obtain ⟨p', hrun, hrest⟩ := hsome s' h
        exact ⟨p', hrun, hone.append hrest⟩
      · rw [if_neg hok, if_neg hok]
        exact ⟨fun s' h => (Option.some_ne_none s' h.symm).elim, fun _ => ⟨_, rfl⟩⟩

@[simp]
theorem clusterData_length (fs : Fat32Fs ω) (contents : Contents) (cluster : UInt32) :
    (clusterData fs contents cluster).length = clusterBytes fs := by
  simp [clusterData, clusterBytes, List.length_flatMap, List.map_const']

theorem clustersFor_of_le {fs : Fat32Fs ω} {n : Nat} (hpos : 0 < n) (hle : n ≤ clusterBytes fs) :
    clustersFor fs n = 1 := by
  unfold clustersFor
  exact Nat.div_eq_of_lt_le (by omega) (by omega)

theorem clustersFor_of_lt {fs : Fat32Fs ω} {n : Nat} (hbytes : 0 < clusterBytes fs)
    (hlt : clusterBytes fs < n) :
    clustersFor fs n = clustersFor fs (n - clusterBytes fs) + 1 := by
  unfold clustersFor
  rw [show n + clusterBytes fs - 1 = n - clusterBytes fs + clusterBytes fs - 1 + clusterBytes fs by
    omega, Nat.add_div_right _ hbytes]

theorem clustersFor_pos {fs : Fat32Fs ω} {n : Nat} (hbytes : 0 < clusterBytes fs) (hpos : 0 < n) :
    0 < clustersFor fs n :=
  Nat.div_pos (by omega) hbytes

/-- The state of the loop at the start of the next cluster. -/
theorem Delivered.withState {p p' : Progress ω} {s' : FsState ω} {data : List UInt8}
    (h : Delivered p s' data p') (s'' : FsState ω) :
    Delivered p s'' data { p' with state := s'' } :=
  ⟨rfl, h.buffer, h.copied, h.remaining⟩

theorem Geometry.clusterBytes_pos {fs : Fat32Fs ω} (g : Geometry fs device total) :
    0 < clusterBytes fs :=
  Nat.mul_pos g.spc_pos (Nat.lt_of_lt_of_le (by decide) g.bytes_ge)

/-! ## One cluster -/

section Cluster

variable {cluster : UInt32} {p : Progress ω} {s₁ : FsState ω}

/-- The reads that the part of a file in one cluster needs. -/
def clusterPlan (p : Progress ω) (cluster : UInt32) : List UInt32 :=
  sectorPlan p.state.fs cluster (List.range p.state.fs.sectorsPerCluster.toNat) p.remaining.toNat

/-- A cluster that holds the rest of the file ends the loop. -/
theorem readClusters_last (hanswers : Answers device contents) (g : Geometry p.state.fs device total)
    (hvalid : validCluster p.state.fs cluster = true)
    (hfit : p.copied.toNat + p.remaining.toNat < 2 ^ 32) (hpos : p.remaining ≠ 0)
    (hreads : readAll device (clusterPlan p cluster) p.state = some s₁)
    (hlast : p.remaining.toNat ≤ clusterBytes p.state.fs) (budget : Nat) :
    ∃ p', readClusters (budget + 1) cluster p = (.ok, p') ∧
      Delivered p s₁ (clusterData p.state.fs contents cluster) p' := by
  obtain ⟨p', hrun, hdone⟩ := (readSectors_spec hanswers _ p g hvalid (fun _ => List.mem_range.mp)
    hfit).1 s₁ hreads
  rw [← clusterData] at hdone
  have hdrained : p'.remaining = 0 := by
    have hleft := hdone.remaining
    rw [clusterData_length, Nat.sub_eq_zero_of_le hlast] at hleft
    exact UInt32.toNat_inj.mp hleft
  refine ⟨p', ?_, hdone⟩
  rw [readClusters, if_neg hpos, hrun]
  simp only [if_pos hdrained]

/-- A cluster that does not hold the rest of the file is delivered whole, and
the loop goes on where its link leads. -/
theorem readClusters_follow (hanswers : Answers device contents)
    (g : Geometry p.state.fs device total) (hvalid : validCluster p.state.fs cluster = true)
    (hfit : p.copied.toNat + p.remaining.toNat < 2 ^ 32)
    (hreads : readAll device (clusterPlan p cluster) p.state = some s₁)
    (hmore : clusterBytes p.state.fs < p.remaining.toNat) (budget : Nat) :
    ∃ p₁, Delivered p s₁ (clusterData p.state.fs contents cluster) p₁ ∧
      readClusters (budget + 1) cluster p =
        match nextCluster s₁ cluster with
        | (.error result, s) => (result, { p₁ with state := s })
        | (.ok next, s) =>
          if next = endMarker then (.ebadfs, { p₁ with state := s })
          else readClusters budget next { p₁ with state := s } := by
  obtain ⟨p₁, hrun, hdone⟩ := (readSectors_spec hanswers _ p g hvalid (fun _ => List.mem_range.mp)
    hfit).1 s₁ hreads
  rw [← clusterData] at hdone
  have hpos : p.remaining ≠ 0 := by
    intro hzero
    rw [hzero] at hmore
    exact absurd hmore (Nat.not_lt_zero _)
  have hleft : p₁.remaining ≠ 0 := by
    intro hzero
    have := hdone.remaining
    rw [clusterData_length, hzero, UInt32.toNat_zero] at this
    omega
  refine ⟨p₁, hdone, ?_⟩
  rw [readClusters, if_neg hpos, hrun, ← hdone.state]
  exact if_neg hleft

/-- A read that fails in a cluster ends the loop with an error. -/
theorem readClusters_failed (hanswers : Answers device contents)
    (g : Geometry p.state.fs device total) (hvalid : validCluster p.state.fs cluster = true)
    (hfit : p.copied.toNat + p.remaining.toNat < 2 ^ 32) (hpos : p.remaining ≠ 0)
    (hreads : readAll device (clusterPlan p cluster) p.state = none) (budget : Nat) :
    (readClusters (budget + 1) cluster p).1 = .eio := by
  obtain ⟨p₁, hrun⟩ := (readSectors_spec hanswers _ p g hvalid (fun _ => List.mem_range.mp)
    hfit).2 hreads
  rw [readClusters, if_neg hpos, hrun]

end Cluster

/-! ## The whole chain -/

/-- The chain of a file that needs more than one cluster. -/
theorem chain_cons_iff {fs : Fat32Fs ω} (g : Geometry fs device total) {n : Nat}
    (hmore : clusterBytes fs < n) {cluster : UInt32} {all : List UInt32} :
    chain fs contents (clustersFor fs n) cluster = some all ↔
      ∃ next clusters, link fs contents cluster = some next ∧
        chain fs contents (clustersFor fs (n - clusterBytes fs)) next = some clusters ∧
        all = cluster :: clusters := by
  have hrest : 0 < clustersFor fs (n - clusterBytes fs) :=
    clustersFor_pos g.clusterBytes_pos (by omega)
  obtain ⟨count, hcount⟩ := Nat.exists_eq_succ_of_ne_zero hrest.ne'
  rw [clustersFor_of_lt g.clusterBytes_pos hmore, hcount, chain, Option.bind_eq_some_iff]
  constructor
  · rintro ⟨next, hlink, hmap⟩
    obtain ⟨clusters, htail, rfl⟩ := Option.map_eq_some_iff.mp hmap
    exact ⟨next, clusters, hlink, htail, rfl⟩
  · rintro ⟨next, clusters, hlink, htail, rfl⟩
    exact ⟨next, hlink, Option.map_eq_some_iff.mpr ⟨clusters, htail, rfl⟩⟩

/-- The reads of a file that needs more than one cluster. -/
theorem readAll_neededReads_iff {p : Progress ω} {cluster : UInt32} {clusters : List UInt32}
    (hmore : clusterBytes p.state.fs < p.remaining.toNat) {s' : FsState ω} :
    readAll device (neededReads p.state.fs (cluster :: clusters) p.remaining.toNat) p.state =
        some s' ↔
      ∃ s₁, readAll device (clusterPlan p cluster) p.state = some s₁ ∧
        (s₁.readInto device (fatSector s₁.fs cluster)).1 = 0 ∧
        readAll device
            (neededReads p.state.fs clusters (p.remaining.toNat - clusterBytes p.state.fs))
            (s₁.readInto device (fatSector s₁.fs cluster)).2 =
          some s' := by
  rw [neededReads, if_pos hmore, readAll_append, Option.bind_eq_some_iff]
  refine exists_congr fun s₁ => and_congr_right fun hfirst => ?_
  rw [readAll, fatSector_of_sameVolume (readAll_sameVolume hfirst)]
  split_ifs with hread
  · simp [hread]
  · simp [hread]

/-- A chain that is long enough, with every read on the way successful, is
delivered. -/
theorem readClusters_ok (hanswers : Answers device contents) {budget : Nat} {cluster : UInt32}
    {p : Progress ω} (g : Geometry p.state.fs device total)
    (hvalid : validCluster p.state.fs cluster = true)
    (hfit : p.copied.toNat + p.remaining.toNat < 2 ^ 32) (hpos : p.remaining ≠ 0)
    {clusters : List UInt32} {s' : FsState ω}
    (hbudget : clustersFor p.state.fs p.remaining.toNat ≤ budget)
    (hchain : chain p.state.fs contents (clustersFor p.state.fs p.remaining.toNat) cluster =
      some clusters)
    (hreads : readAll device (neededReads p.state.fs clusters p.remaining.toNat) p.state =
      some s') :
    ∃ p', readClusters budget cluster p = (.ok, p') ∧
      Delivered p s' (fileData p.state.fs contents clusters) p' := by
  have hnat : 0 < p.remaining.toNat :=
    Nat.pos_of_ne_zero fun hzero => hpos (UInt32.toNat_inj.mp hzero)
  -- induction on the clusters the loop may still visit
  induction budget generalizing cluster p clusters with
  | zero => exact absurd hbudget (Nat.not_le.mpr (clustersFor_pos g.clusterBytes_pos hnat))
  | succ budget ih =>
    by_cases hlast : p.remaining.toNat ≤ clusterBytes p.state.fs
    · rw [clustersFor_of_le hnat hlast, chain] at hchain
      obtain rfl := Option.some.inj hchain
      rw [neededReads, if_neg (by omega), List.append_nil] at hreads
      obtain ⟨p', hrun, hdone⟩ :=
        readClusters_last hanswers g hvalid hfit hpos hreads hlast budget
      exact ⟨p', hrun, by simpa [fileData] using hdone⟩
    · have hmore := Nat.not_le.mp hlast
      obtain ⟨next, clusters, hlink, htail, rfl⟩ := (chain_cons_iff g hmore).mp hchain
      obtain ⟨s₁, hfirst, hread, hrest⟩ := (readAll_neededReads_iff hmore).mp hreads
      obtain ⟨p₁, hdone, hstep⟩ :=
        readClusters_follow hanswers g hvalid hfit hfirst hmore budget
      have hsame₁ := readAll_sameVolume hfirst
      have g₁ : Geometry s₁.fs device total := g.of_sameVolume hsame₁
      obtain ⟨hnext, hmarker⟩ := (g₁.nextCluster_ok_iff hanswers
        (hsame₁.validCluster_eq cluster ▸ hvalid)).mpr
        ⟨hread, by rw [link_of_sameVolume hsame₁]; exact hlink, rfl⟩
      have hsame₂ := hsame₁.trans (readInto_sameVolume s₁ device (fatSector s₁.fs cluster))
      have hdone₂ := hdone.withState (s₁.readInto device (fatSector s₁.fs cluster)).2
      have hleft := hdone.remaining
      rw [clusterData_length] at hleft
      have hleftPos : p₁.remaining ≠ 0 := by
        intro hzero
        rw [hzero, UInt32.toNat_zero] at hleft
        omega
      -- the walk goes on from the next cluster, on the same volume
      obtain ⟨p', hrun, hdone'⟩ := ih
        (p := { p₁ with state := (s₁.readInto device (fatSector s₁.fs cluster)).2 })
        (g.of_sameVolume hsame₂) (hsame₂.validCluster_eq next ▸ (link_eq_some hlink).2.2)
        (by rw [hdone₂.copied, hdone₂.remaining]; omega) hleftPos
        (by rw [hleft, clustersFor_of_sameVolume hsame₂]
            have := clustersFor_of_lt g.clusterBytes_pos hmore
            omega)
        (by rw [hleft, clustersFor_of_sameVolume hsame₂, chain_of_sameVolume hsame₂]; exact htail)
        (by rw [hleft, neededReads_of_sameVolume hsame₂]; exact hrest) (by rw [hleft]; omega)
      refine ⟨p', ?_, ?_⟩
      · rw [hstep, hnext]
        simp only [if_neg hmarker]
        exact hrun
      · have hall := hdone₂.append hdone'
        rw [fileData_of_sameVolume hsame₂] at hall
        exact hall

/-- A read that succeeds has followed a chain that is long enough, and none of
its reads failed. -/
theorem chain_of_readClusters_ok (hanswers : Answers device contents) {budget : Nat}
    {cluster : UInt32} {p p' : Progress ω} (g : Geometry p.state.fs device total)
    (hvalid : validCluster p.state.fs cluster = true)
    (hfit : p.copied.toNat + p.remaining.toNat < 2 ^ 32) (hpos : p.remaining ≠ 0)
    (h : readClusters budget cluster p = (.ok, p')) :
    clustersFor p.state.fs p.remaining.toNat ≤ budget ∧
      ∃ clusters s', chain p.state.fs contents (clustersFor p.state.fs p.remaining.toNat) cluster =
          some clusters ∧
        readAll device (neededReads p.state.fs clusters p.remaining.toNat) p.state = some s' := by
  have hnat : 0 < p.remaining.toNat :=
    Nat.pos_of_ne_zero fun hzero => hpos (UInt32.toNat_inj.mp hzero)
  induction budget generalizing cluster p with
  | zero =>
    rw [readClusters, if_neg hpos] at h
    cases h
  | succ budget ih =>
    cases hfirst : readAll device (clusterPlan p cluster) p.state with
    | none =>
      have hfailed := readClusters_failed hanswers g hvalid hfit hpos hfirst budget
      rw [h] at hfailed
      cases hfailed
    | some s₁ =>
      -- the last cluster needs no link
      by_cases hlast : p.remaining.toNat ≤ clusterBytes p.state.fs
      · rw [clustersFor_of_le hnat hlast]
        refine ⟨by omega, [cluster], s₁, rfl, ?_⟩
        rw [neededReads, if_neg (by omega), List.append_nil]
        exact hfirst
      · have hmore := Nat.not_le.mp hlast
        obtain ⟨p₁, hdone, hstep⟩ :=
          readClusters_follow hanswers g hvalid hfit hfirst hmore budget
        have hsame₁ := readAll_sameVolume hfirst
        have g₁ : Geometry s₁.fs device total := g.of_sameVolume hsame₁
        rw [hstep] at h
        split at h
        · rename_i result s₂ hnext
          obtain rfl := (Prod.mk.inj h).1
          exact absurd (congrArg Prod.fst hnext) (nextCluster_ne_error_ok _ _)
        · rename_i next s₂ hnext
          split_ifs at h with hmarker
          · cases h
          -- the link was read and is valid, and what is left needs one cluster less
          obtain ⟨hread, hlink, rfl⟩ := (g₁.nextCluster_ok_iff hanswers
            (hsame₁.validCluster_eq cluster ▸ hvalid)).mp ⟨hnext, hmarker⟩
          have hsame₂ := hsame₁.trans (readInto_sameVolume s₁ device (fatSector s₁.fs cluster))
          have hdone₂ := hdone.withState (s₁.readInto device (fatSector s₁.fs cluster)).2
          have hleft := hdone.remaining
          rw [clusterData_length] at hleft
          have hleftPos : p₁.remaining ≠ 0 := by
            intro hzero
            rw [hzero, UInt32.toNat_zero] at hleft
            omega
          rw [link_of_sameVolume hsame₁] at hlink
          obtain ⟨hbudget, clusters, s', hchain, hreads⟩ := ih
            (p := { p₁ with state := (s₁.readInto device (fatSector s₁.fs cluster)).2 })
            (g.of_sameVolume hsame₂) (hsame₂.validCluster_eq next ▸ (link_eq_some hlink).2.2)
            (by rw [hdone₂.copied, hdone₂.remaining]; omega) hleftPos h (by rw [hleft]; omega)
          rw [hleft, clustersFor_of_sameVolume hsame₂] at hbudget hchain
          rw [chain_of_sameVolume hsame₂] at hchain
          rw [hleft, neededReads_of_sameVolume hsame₂] at hreads
          refine ⟨?_, cluster :: clusters, s', ?_, ?_⟩
          · rw [clustersFor_of_lt g.clusterBytes_pos hmore]
            omega
          · exact (chain_cons_iff g hmore).mpr ⟨next, clusters, hlink, hchain, rfl⟩
          · exact (readAll_neededReads_iff hmore).mpr ⟨s₁, hfirst, hread, hreads⟩

end Loops

/-! ## The whole read -/

/-- The condition under which a file of `n` bytes from a first cluster can be
delivered, starting in a given state. -/
def Deliverable (device : BlockDevice ω) (contents : Contents) (s : FsState ω) (first : UInt32)
    (n : Nat) (clusters : List UInt32) : Prop :=
  validCluster s.fs first = true ∧
    chain s.fs contents (clustersFor s.fs n) first = some clusters ∧
    clustersFor s.fs n ≤ s.fs.clusterCount.toNat ∧
    (readAll device (neededReads s.fs clusters n) s).isSome

theorem chain_length {fs : Fat32Fs ω} {contents : Contents} {count : Nat} {cluster : UInt32}
    {clusters : List UInt32} (h : chain fs contents count cluster = some clusters) :
    clusters.length = count := by
  fun_induction chain fs contents count cluster generalizing clusters with
  | case1 => rw [← Option.some.inj h]; rfl
  | case2 => rw [← Option.some.inj h]; rfl
  | case3 count cluster ih =>
    obtain ⟨next, -, hmap⟩ := Option.bind_eq_some_iff.mp h
    obtain ⟨tail, htail, rfl⟩ := Option.map_eq_some_iff.mp hmap
    rw [List.length_cons, ih next htail]

theorem fileData_length (fs : Fat32Fs ω) (contents : Contents) (clusters : List UInt32) :
    (fileData fs contents clusters).length = clusters.length * clusterBytes fs := by
  simp [fileData, List.length_flatMap, List.map_const']

theorem le_clustersFor_mul {fs : Fat32Fs ω} (hbytes : 0 < clusterBytes fs) (n : Nat) :
    n ≤ clustersFor fs n * clusterBytes fs := by
  have hmod := Nat.mod_lt (n + clusterBytes fs - 1) hbytes
  have hdiv := Nat.div_add_mod (n + clusterBytes fs - 1) (clusterBytes fs)
  unfold clustersFor
  rw [Nat.mul_comm]
  omega

/-- The clusters that a deliverable file names hold all its bytes. -/
theorem Deliverable.le_length {device : BlockDevice ω} {contents : Contents} {s : FsState ω}
    {first : UInt32} {n : Nat} {clusters : List UInt32}
    (h : Deliverable device contents s first n clusters) (hbytes : 0 < clusterBytes s.fs) :
    n ≤ (fileData s.fs contents clusters).length := by
  rw [fileData_length, chain_length h.2.1]
  exact le_clustersFor_mul hbytes n

section Whole

variable {device : BlockDevice ω} {contents : Contents} {total : Nat} {s : FsState ω}
  {first size : UInt32}

/-- A deliverable file is delivered: the buffer starts with its bytes. -/
theorem Deliverable.readClusters (hanswers : Answers device contents)
    (g : Geometry s.fs device total) (hsize : size ≠ 0) {clusters : List UInt32}
    (h : Deliverable device contents s first size.toNat clusters) (buffer : Buffer) :
    ∃ p, readClusters s.fs.clusterCount.toNat first ⟨s, buffer, 0, size⟩ = (.ok, p) ∧
      p.copied = size ∧
      p.buffer = overlay buffer 0 ((fileData s.fs contents clusters).take size.toNat) := by
  have hlength := h.le_length g.clusterBytes_pos
  obtain ⟨hvalid, hchain, hbudget, hreads⟩ := h
  obtain ⟨s', hreads⟩ := Option.isSome_iff_exists.mp hreads
  obtain ⟨p, hrun, hdone⟩ := readClusters_ok (p := ⟨s, buffer, 0, size⟩) hanswers g hvalid
    (by simpa using size.toNat_lt) hsize hbudget hchain hreads
  refine ⟨p, hrun, UInt32.toNat_inj.mp ?_, hdone.buffer⟩
  have hcopied := hdone.copied
  simp only [UInt32.toNat_zero, Nat.zero_add] at hcopied
  rw [hcopied, Nat.min_eq_left hlength]

/-- Only a deliverable file is read to its end. -/
theorem deliverable_of_readClusters (hanswers : Answers device contents)
    (g : Geometry s.fs device total) (hvalid : validCluster s.fs first = true) (hsize : size ≠ 0)
    {buffer : Buffer} {p : Progress ω}
    (h : readClusters s.fs.clusterCount.toNat first ⟨s, buffer, 0, size⟩ = (.ok, p)) :
    ∃ clusters, Deliverable device contents s first size.toNat clusters := by
  obtain ⟨hbudget, clusters, s', hchain, hreads⟩ := chain_of_readClusters_ok hanswers g hvalid
    (by simpa using size.toNat_lt) hsize h
  exact ⟨clusters, hvalid, hchain, hbudget, Option.isSome_iff_exists.mpr ⟨s', hreads⟩⟩

/-- The caller's buffer after a successful read of `size` bytes. -/
structure ReadResult (device : BlockDevice ω) (contents : Contents) (s : FsState ω)
    (entry : Dirent) (before after : Buffer) : Prop where
  data : entry.size ≠ 0 → ∃ clusters,
    Deliverable device contents s entry.firstCluster entry.size.toNat clusters ∧
      (List.range entry.size.toNat).map after =
        (fileData s.fs contents clusters).take entry.size.toNat
  unchanged : ∀ i, entry.size.toNat ≤ i → after i = before i

theorem Deliverable.readResult {entry : Dirent} {clusters : List UInt32}
    (h : Deliverable device contents s entry.firstCluster entry.size.toNat clusters)
    (hbytes : 0 < clusterBytes s.fs) (buffer : Buffer) :
    ReadResult device contents s entry buffer
      (overlay buffer 0 ((fileData s.fs contents clusters).take entry.size.toNat)) := by
  have hlength : ((fileData s.fs contents clusters).take entry.size.toNat).length =
      entry.size.toNat := by
    rw [List.length_take, Nat.min_eq_left (h.le_length hbytes)]
  refine ⟨fun _ => ⟨clusters, h, ?_⟩, fun i hi => overlay_of_le _ _ _ (by omega)⟩
  have hread := map_overlay_range buffer ((fileData s.fs contents clusters).take entry.size.toNat)
  rwa [hlength] at hread

end Whole

/-- File contents: on a mounted volume with fixed contents, reading a file
succeeds exactly when the buffer is present and large enough and the chain and
its reads supply the bytes. Then the buffer starts with the bytes of the chain
and is unchanged behind them. -/
theorem fat32ReadFile_contents {device : BlockDevice ω} {contents : Contents}
    {s₀ s₁ s s' : FsState ω} {path : CString} {entry : Dirent}
    (hmount : fat32Mount (some device) s₀ = (.ok, s₁)) (hsame : SameVolume s₁.fs s.fs)
    (hanswers : Answers device contents) (hlookup : lookup path s = (.ok entry, s'))
    (hfile : entry.attributes &&& 0x10 = 0) (buffer : Option Buffer) (capacity count : UInt32) :
    ((fat32ReadFile (some path) buffer capacity (some count) s).result = .ok ↔
      entry.size ≤ capacity ∧ (entry.size ≠ 0 → buffer.isSome) ∧
        (entry.size = 0 ∨ ∃ clusters,
          Deliverable device contents s' entry.firstCluster entry.size.toNat clusters)) ∧
    ((fat32ReadFile (some path) buffer capacity (some count) s).result = .ok →
      (fat32ReadFile (some path) buffer capacity (some count) s).bytesRead = some entry.size ∧
      ∀ before ∈ buffer,
        ∃ after ∈ (fat32ReadFile (some path) buffer capacity (some count) s).buffer,
          ReadResult device contents s' entry before after) := by
  have g := (fat32Mount_ok hmount).1.of_sameVolume hsame
  have g' := g.of_sameVolume (hlookup ▸ (lookup_confined path s g).same)
  unfold fat32ReadFile
  simp only [g.mounted, hlookup, hfile, ne_eq, not_true_eq_false, if_false, Bool.true_eq_false]
  -- the checks of the call, in its order: size, buffer, capacity, first cluster
  by_cases hempty : entry.size = 0
  · have hcapacity : ¬ capacity < 0 := UInt32.not_lt.mpr UInt32.zero_le
    simp only [hempty, hcapacity, not_true_eq_false, false_and, if_false, if_true, true_and]
    refine ⟨iff_of_true trivial ⟨UInt32.zero_le, by simp⟩, fun _ before hbefore => ?_⟩
    exact ⟨before, hbefore, fun hne => absurd hempty hne, fun _ _ => rfl⟩
  simp only [hempty, not_false_eq_true, true_and, if_false, false_or, forall_const]
  cases buffer with
  | none => simp
  | some bytes =>
    simp only [Option.isNone_some, Bool.false_eq_true, if_false, Option.isSome_some, true_and]
    by_cases hcapacity : capacity < entry.size
    · rw [if_pos hcapacity]
      refine ⟨iff_of_false (by simp) fun h => UInt32.not_lt.mpr h.1 hcapacity, fun h => ?_⟩
      cases h
    rw [if_neg hcapacity]
    by_cases hvalid : validCluster s'.fs entry.firstCluster = true
    · rw [if_neg (by simp [hvalid])]
      split
      · -- the two runs of the same loop are one
        rename_i p hrun
        obtain ⟨clusters, hfile⟩ := deliverable_of_readClusters hanswers g' hvalid hempty hrun
        obtain ⟨p', hrun', hcopied, hbuffer⟩ := hfile.readClusters hanswers g' hempty bytes
        obtain rfl := (Prod.mk.inj (hrun.symm.trans hrun')).2
        refine ⟨iff_of_true rfl ⟨UInt32.not_lt.mp hcapacity, clusters, hfile⟩, fun _ => ?_⟩
        refine ⟨congrArg some hcopied, fun before hbefore => ?_⟩
        obtain rfl := Option.some.inj hbefore
        exact ⟨p.buffer, rfl, hbuffer ▸ hfile.readResult g'.clusterBytes_pos _⟩
      · rename_i result p hfailed hrun
        refine ⟨iff_of_false hfailed ?_, fun hok => absurd hok hfailed⟩
        rintro ⟨-, clusters, hfile⟩
        obtain ⟨p', hrun', -⟩ := hfile.readClusters hanswers g' hempty bytes
        exact hfailed (Prod.mk.inj (hrun.symm.trans hrun')).1
    · rw [if_pos (Bool.eq_false_iff.mpr hvalid)]
      refine ⟨iff_of_false (by simp) ?_, fun h => by cases h⟩
      rintro ⟨-, clusters, hfile⟩
      exact hvalid hfile.1

/-- The entry of the file on the sample disk. -/
def sampleEntry : Dirent := ⟨[0x41], 0, 600, 3⟩

/-- The file `A` of the sample disk is read from both of its clusters. -/
theorem fat32ReadFile_contents_sample :
    let s := (fat32Mount (some sampleDevice) unmounted).2
    let path : CString := ⟨[0x41], by decide⟩
    (lookup path s).1 = .ok sampleEntry ∧
      (fat32ReadFile (some path) (some fun _ => 0) 1024 (some 0) s).result = .ok ∧
      ∃ after ∈ (fat32ReadFile (some path) (some fun _ => 0) 1024 (some 0) s).buffer,
        ReadResult sampleDevice sampleDisk (lookup path s).2 sampleEntry (fun _ => 0) after := by
  intro s path
  have hmount : (fat32Mount (some sampleDevice) unmounted).1 = .ok := by decide +kernel
  have hlookup : (lookup path s).1 = .ok sampleEntry := by decide +kernel
  have hok : (fat32ReadFile (some path) (some fun _ => 0) 1024 (some 0) s).result = .ok := by
    decide +kernel
  have hread := fat32ReadFile_contents (Prod.ext hmount rfl) (SameVolume.refl s.fs)
    sampleDevice_answers (Prod.ext hlookup rfl) (by decide) (some fun _ => 0) 1024 0
  exact ⟨hlookup, hok, (hread.2 hok).2 _ rfl⟩

end LevOS.Filesystem
