import LevOS.Filesystem.FileContents
import LevOS.Filesystem.Loops

/-!
# Files on a chain that comes back

`fat32_read_file` stops following the chain of a file as soon as it has supplied the
bytes that the entry promises. If the chain comes back to an earlier cluster before, the
data of that cluster is copied again, and only the number of clusters of the whole volume
puts an end to it: the file is rejected if it is too large for the volume, and assembled
from the loop otherwise.

## Main definitions

* `Copied`, the clusters whose sectors a file read has asked for

## Main results

* `fat32ReadFile_copies`, a successful read has asked for the sectors of its chain
* `fat32ReadFile_distinct_iff`
-/

namespace LevOS.Filesystem

open LevOS.Drivers LevOS.Foundation

variable {ω : Type}

section Requests

variable {device : BlockDevice ω}

/-- A read that succeeds has been handed to the device. -/
theorem readInto_requests {s : FsState ω} {sector : UInt32}
    (h : (s.readInto device sector).1 = 0) :
    (s.readInto device sector).2.bus.requests = s.bus.requests ++ [⟨sector, 0⟩] := by
  unfold FsState.readInto blockReadSector at h ⊢
  cases hcallback : device.readSector with
  | none => simp [hcallback] at h
  | some read =>
    simp only [hcallback] at h ⊢
    split_ifs at h ⊢
    · simp at h
    · simp at h
    · simp only at h ⊢
      rw [h]

theorem readAll_requests {sectors : List UInt32} {s s' : FsState ω}
    (h : readAll device sectors s = some s') :
    s'.bus.requests = s.bus.requests ++ sectors.map fun sector => ⟨sector, 0⟩ := by
  induction sectors generalizing s with
  | nil =>
    obtain rfl := Option.some.inj h
    simp
  | cons sector sectors ih =>
    rw [readAll] at h
    split_ifs at h with hread
    rw [ih h, readInto_requests hread, List.append_assoc, List.map_cons]
    rfl

end Requests

/-- The clusters whose sectors have been asked for between two states: the first
clusters of a chain, as many as a file of `size` bytes takes, and the table sectors
between them. -/
structure Copied (contents : Contents) (s s' : FsState ω) (first : UInt32) (size : Nat)
    (clusters : List UInt32) : Prop where
  chain_eq : chain s.fs contents (clustersFor s.fs size) first = some clusters
  requests : s'.bus.requests = s.bus.requests ++
    (neededReads s.fs clusters size).map fun sector => ⟨sector, 0⟩

theorem Copied.of_sameVolume {contents : Contents} {fs : Fat32Fs ω} {s s' : FsState ω}
    {first : UInt32} {size : Nat} {clusters : List UInt32}
    (h : Copied contents s s' first size clusters) (hsame : SameVolume fs s.fs) :
    chain fs contents (clustersFor fs size) first = some clusters := by
  rw [← clustersFor_of_sameVolume hsame, ← chain_of_sameVolume hsame]
  exact h.chain_eq

/-- The files that fit into a number of clusters. -/
theorem clustersFor_le_iff {fs : Fat32Fs ω} (hbytes : 0 < clusterBytes fs) (size count : Nat) :
    clustersFor fs size ≤ count ↔ size ≤ count * clusterBytes fs := by
  unfold clustersFor
  rw [← Nat.lt_succ_iff, Nat.div_lt_iff_lt_mul hbytes, Nat.succ_mul]
  omega

section Whole

variable {device : BlockDevice ω} {contents : Contents} {s₀ s₁ s : FsState ω}

/-- A read that succeeds has found a file. -/
theorem lookup_of_read_ok {path : CString} {buffer : Option Buffer} {capacity count : UInt32}
    (hmounted : s.fs.mounted = true)
    (hok : (fat32ReadFile (some path) buffer capacity (some count) s).result = .ok) :
    ∃ entry s', lookup path s = (.ok entry, s') ∧ entry.attributes &&& 0x10 = 0 := by
  obtain ⟨found, s', hlookup⟩ : ∃ found s', lookup path s = (found, s') := ⟨_, _, rfl⟩
  simp only [fat32ReadFile, hmounted, hlookup, Bool.true_eq_false, if_false] at hok
  cases found with
  | error result =>
    -- a lookup that fails does not fail with the code for success
    obtain rfl : result = .ok := hok
    exact absurd (congrArg Prod.fst hlookup) (lookup_ne_error_ok path s)
  | ok entry =>
    refine ⟨entry, s', hlookup, ?_⟩
    simp only at hok
    by_contra hdirectory
    rw [if_pos hdirectory] at hok
    cases hok

/-- A file read that succeeds has asked for the sectors of its chain, and no others. -/
theorem fat32ReadFile_copies (hmount : fat32Mount (some device) s₀ = (.ok, s₁))
    (hsame : SameVolume s₁.fs s.fs) (hanswers : Answers device contents) {path : CString}
    {entry : Dirent} {s' : FsState ω} (hlookup : lookup path s = (.ok entry, s'))
    {buffer : Option Buffer} {capacity count : UInt32}
    (hok : (fat32ReadFile (some path) buffer capacity (some count) s).result = .ok) :
    ∃ clusters, Copied contents s'
      (fat32ReadFile (some path) buffer capacity (some count) s).state entry.firstCluster
      entry.size.toNat clusters := by
  have g := (fat32Mount_ok hmount).1.of_sameVolume hsame
  have hsame' := lookup_sameVolume g hlookup
  have g' := g.of_sameVolume hsame'
  simp only [fat32ReadFile, g.mounted, hlookup, Bool.true_eq_false, if_false] at hok ⊢
  split_ifs at hok ⊢ with hdirectory hnull hcapacity hempty hinvalid
  · -- nothing is read of an empty file
    have hnone : clustersFor s'.fs entry.size.toNat = 0 := by
      have hpos := g'.clusterBytes_pos
      rw [hempty, clustersFor, UInt32.toNat_zero]
      exact Nat.div_eq_of_lt (by omega)
    refine ⟨[], ?_, by simp [neededReads]⟩
    rw [hnone]
    rfl
  · cases buffer with
    | none => exact absurd ⟨hempty, rfl⟩ hnull
    | some bytes =>
      have hvalid : validCluster s'.fs entry.firstCluster = true := by simpa using hinvalid
      simp only at hok ⊢
      split at hok
      · rename_i p hrun
        obtain ⟨clusters, -, hchain, hbudget, hreads⟩ :=
          deliverable_of_readClusters hanswers g' hvalid hempty hrun
        obtain ⟨s'', hreads⟩ := Option.isSome_iff_exists.mp hreads
        obtain ⟨p', hrun', hdone⟩ := readClusters_ok (p := ⟨s', bytes, 0, entry.size⟩) hanswers g'
          hvalid (by simpa using entry.size.toNat_lt) hempty hbudget hchain hreads
        obtain rfl := (Prod.mk.inj (hrun.symm.trans hrun')).2
        refine ⟨clusters, hchain, ?_⟩
        simp only [hdone.state]
        exact readAll_requests hreads
      · rename_i hfailed _
        exact absurd hok hfailed

/-- Loops in files: on a mounted volume with fixed contents, the clusters whose data a
successful read copies are different just in case there is no way to go around a loop. If
the chain of the file comes back after `r` clusters, the file must have at most the bytes
of these, or more bytes than all clusters of the volume; or else it does not fit into the
buffer, or a read that it needs fails. -/
theorem fat32ReadFile_distinct_iff (hmount : fat32Mount (some device) s₀ = (.ok, s₁))
    (hsame : SameVolume s₁.fs s.fs) (hanswers : Answers device contents) (path : CString)
    (buffer : Option Buffer) (capacity count : UInt32) :
    let read := fat32ReadFile (some path) buffer capacity (some count) s
    (read.result = .ok → ∃ entry s' clusters, lookup path s = (.ok entry, s') ∧
        Copied contents s' read.state entry.firstCluster entry.size.toNat clusters ∧
        clusters.Nodup) ↔
      ∀ entry s', lookup path s = (.ok entry, s') → entry.attributes &&& 0x10 = 0 →
        validCluster s.fs entry.firstCluster = true →
        ∀ r, Returns (link s.fs contents) entry.firstCluster r →
          entry.size.toNat ≤ r * clusterBytes s.fs ∨
          s.fs.clusterCount.toNat * clusterBytes s.fs < entry.size.toNat ∨
          capacity < entry.size ∨ buffer = none ∨
          ∃ clusters,
            chain s.fs contents (clustersFor s.fs entry.size.toNat) entry.firstCluster =
              some clusters ∧
            readAll device (neededReads s.fs clusters entry.size.toNat) s' = none := by
  intro read
  have g := (fat32Mount_ok hmount).1.of_sameVolume hsame
  constructor
  · rintro hdistinct entry s' hlookup hfile hvalid r hreturns
    have hsame' := lookup_sameVolume g hlookup
    -- a file that goes around the loop, fits into the buffer and is read without failures
    by_contra hnot
    push Not at hnot
    obtain ⟨hlong, hsmall, hcapacity, hbuffer, hreads⟩ := hnot
    obtain ⟨clusters, hclusters⟩ := Option.isSome_iff_exists.mp
      (hreturns.trail_isSome (clustersFor s.fs entry.size.toNat))
    have hchain := (chain_eq_trail s.fs contents _ _).trans hclusters
    -- so the file is delivered
    have hdeliverable : Deliverable device contents s' entry.firstCluster entry.size.toNat clusters := by
      refine ⟨hsame'.validCluster_eq _ ▸ hvalid, ?_, ?_, ?_⟩
      · rw [clustersFor_of_sameVolume hsame', chain_of_sameVolume hsame']
        exact hchain
      · rw [clustersFor_of_sameVolume hsame', ← hsame'.clusterCount_eq,
          clustersFor_le_iff g.clusterBytes_pos]
        exact hsmall
      · rw [neededReads_of_sameVolume hsame', Option.isSome_iff_ne_none]
        exact hreads clusters hchain
    have hok : read.result = .ok :=
      ((fat32ReadFile_contents hmount hsame hanswers hlookup hfile buffer capacity count).1).mpr
        ⟨UInt32.not_lt.mp hcapacity, fun _ => Option.isSome_iff_ne_none.mpr hbuffer,
          Or.inr ⟨clusters, hdeliverable⟩⟩
    obtain ⟨entry', s'', clusters', hlookup', hcopied, hnodup⟩ := hdistinct hok
    obtain ⟨hentry, rfl⟩ := Prod.mk.inj (hlookup.symm.trans hlookup')
    obtain rfl := Except.ok.inj hentry
    have hagain := hcopied.of_sameVolume hsame'
    rw [chain_eq_trail] at hagain
    -- its clusters come back, although they should be different
    have hle := (trail_nodup_iff hagain).mp hnodup r hreturns
    rw [clustersFor_le_iff g.clusterBytes_pos] at hle
    exact absurd hle (Nat.not_le.mpr hlong)
  · intro hcondition hok
    obtain ⟨entry, s', hlookup, hfile⟩ := lookup_of_read_ok g.mounted hok
    have hsame' := lookup_sameVolume g hlookup
    obtain ⟨clusters, hcopied⟩ := fat32ReadFile_copies hmount hsame hanswers hlookup hok
    refine ⟨entry, s', clusters, hlookup, hcopied, ?_⟩
    have hchain := hcopied.of_sameVolume hsame'
    have htrail := (chain_eq_trail s.fs contents _ _).symm.trans hchain
    rw [trail_nodup_iff htrail]
    intro r hreturns
    rw [clustersFor_le_iff g.clusterBytes_pos]
    by_cases hempty : entry.size = 0
    · rw [hempty]
      exact Nat.zero_le _
    -- the file has been delivered, so only the first alternative is left
    obtain ⟨hcapacity, hbuffer, hdeliverable⟩ :=
      (fat32ReadFile_contents hmount hsame hanswers hlookup hfile buffer capacity count).1.mp hok
    obtain ⟨clusters', hvalid, hchain', hbudget, hreads⟩ := hdeliverable.resolve_left hempty
    rcases hcondition entry s' hlookup hfile (hsame'.validCluster_eq _ ▸ hvalid) r hreturns with
      hfits | hlarge | hfull | hnull | ⟨clusters'', hchain'', hfails⟩
    · exact hfits
    · rw [clustersFor_of_sameVolume hsame', ← hsame'.clusterCount_eq,
        clustersFor_le_iff g.clusterBytes_pos] at hbudget
      exact absurd hbudget (Nat.not_le.mpr hlarge)
    · exact absurd hcapacity (UInt32.not_le.mpr hfull)
    · have hpresent := hbuffer hempty
      rw [hnull] at hpresent
      cases hpresent
    · rw [clustersFor_of_sameVolume hsame', chain_of_sameVolume hsame'] at hchain'
      obtain rfl := Option.some.inj (hchain'.symm.trans hchain'')
      rw [neededReads_of_sameVolume hsame', hfails] at hreads
      cases hreads

end Whole

/-- The volume with a ring, with a file `F` of two clusters. -/
def shortRingDisk (sector : UInt32) : Buffer := fun i =>
  if sector = 2 ∧ i = 61 then 4 else ringDisk sector i

/-- The file goes around the ring once, and is read from different clusters. -/
theorem fat32ReadFile_distinct_iff_sample :
    let device := faultyDevice 512 12 shortRingDisk fun _ => false
    let s := (fat32Mount (some device) unmounted).2
    let path : CString := ⟨[0x46], by decide⟩
    let read := fat32ReadFile (some path) (some fun _ => 0) 1024 (some 0) s
    read.result = .ok ∧ ∃ entry s' clusters, lookup path s = (.ok entry, s') ∧
      Copied shortRingDisk s' read.state entry.firstCluster entry.size.toNat clusters ∧
      clusters.Nodup := by
  intro device s path read
  have hmount : (fat32Mount (some device) unmounted).1 = .ok := by decide +kernel
  have hlookup : (lookup path s).1 = .ok ⟨[0x46], 0, 1024, 3⟩ := by decide +kernel
  have hok : read.result = .ok := by decide +kernel
  have hanswers : Answers device shortRingDisk :=
    (faultyDevice_readable (by decide) 12 shortRingDisk).answers
  refine ⟨hok, (fat32ReadFile_distinct_iff (Prod.ext hmount rfl) (SameVolume.refl s.fs)
    hanswers path (some fun _ => 0) 1024 0).mpr ?_ hok⟩
  intro entry s' hfound _ _ r hreturns
  obtain rfl := Except.ok.inj (hlookup.symm.trans (congrArg Prod.fst hfound))
  -- the chain comes back after two clusters
  have htrail : trail (link s.fs shortRingDisk) 2 3 = some [3, 4] := by decide +kernel
  have htwo : 2 ≤ r := (trail_nodup_iff htrail).mp (by decide) r hreturns
  have hbytes : clusterBytes s.fs = 512 := by decide +kernel
  left
  rw [hbytes]
  exact Nat.mul_le_mul_right 512 htwo

/-- On the volume with a ring the file `F` of three clusters is read with success: from
cluster three, cluster four and cluster three again. -/
theorem fat32ReadFile_reads_ring_again :
    let s := (fat32Mount (some ringDevice) unmounted).2
    let path : CString := ⟨[0x46], by decide⟩
    let read := fat32ReadFile (some path) (some fun _ => 0) 1536 (some 0) s
    (fat32Mount (some ringDevice) unmounted).1 = .ok ∧
      (lookup path s).1 = .ok ⟨[0x46], 0, 1536, 3⟩ ∧ read.result = .ok ∧
      chain s.fs ringDisk (clustersFor s.fs 1536) 3 = some [3, 4, 3] ∧
      read.state.bus.requests = (lookup path s).2.bus.requests ++
        [⟨3, 0⟩, ⟨1, 0⟩, ⟨4, 0⟩, ⟨1, 0⟩, ⟨3, 0⟩] := by
  intro s path read
  exact ⟨by decide +kernel, by decide +kernel, by decide +kernel, by decide +kernel,
    by decide +kernel⟩

end LevOS.Filesystem
