import LevOS.Filesystem.FileContents
import LevOS.Filesystem.Loops

/-!
# Disks that lie

The size of a file, its first cluster and every link come from the disk, and any read may
fail. Whatever the device answers, `fat32_read_file` makes a bounded number of reads,
stays inside the part of the caller's buffer that the capacity and the entry allow, and
does not leave a count behind when it fails.

## Main definitions

* `isDataSector`, the physical sectors from the data area of a volume on
* `Bounded`, what the loops of a file read may do between two of their states

## Main results

* `readSectors_bounded`, `readClusters_bounded`
* `fat32ReadFile_hostile`
-/

namespace LevOS.Filesystem

open LevOS.Drivers

variable {ω : Type}

/-- A physical sector of the data area, or one behind it. -/
def isDataSector (fs : Fat32Fs ω) (sector : UInt32) : Bool :=
  fs.volumeStart.toNat + fs.dataStart.toNat ≤ sector.toNat

theorem isDataSector_of_sameVolume {fs fs' : Fat32Fs ω} (h : SameVolume fs fs') :
    isDataSector fs' = isDataSector fs := by
  unfold SameVolume at h
  rw [← h]
  rfl

/-- The requests between two states: at most so many, and so many for data sectors. -/
def Requests (fs : Fat32Fs ω) (s s' : FsState ω) (all data : Nat) : Prop :=
  ∃ new, s'.bus.requests = s.bus.requests ++ new ∧ new.length ≤ all ∧
    new.countP (fun request => isDataSector fs request.sector) ≤ data

theorem Requests.refl (fs : Fat32Fs ω) (s : FsState ω) : Requests fs s s 0 0 :=
  ⟨[], by simp, by simp, by simp⟩

theorem Requests.trans {fs : Fat32Fs ω} {s s' s'' : FsState ω} {all all' data data' : Nat}
    (h : Requests fs s s' all data) (h' : Requests fs s' s'' all' data') :
    Requests fs s s'' (all + all') (data + data') := by
  obtain ⟨new, hnew, hall, hdata⟩ := h
  obtain ⟨new', hnew', hall', hdata'⟩ := h'
  refine ⟨new ++ new', by rw [hnew', hnew, List.append_assoc], ?_, ?_⟩
  · rw [List.length_append]
    omega
  · rw [List.countP_append]
    omega

theorem Requests.mono {fs : Fat32Fs ω} {s s' : FsState ω} {all all' data data' : Nat}
    (h : Requests fs s s' all data) (hall : all ≤ all') (hdata : data ≤ data') :
    Requests fs s s' all' data' := by
  obtain ⟨new, hnew, hlength, hcount⟩ := h
  exact ⟨new, hnew, hlength.trans hall, hcount.trans hdata⟩

/-- A volume-relative read makes at most one request, for the sector asked for. -/
theorem readSector_requests (s : FsState ω) (sector : UInt32) :
    ∃ new, (readSector s sector).2.bus.requests = s.bus.requests ++ new ∧ new.length ≤ 1 ∧
      ∀ request ∈ new, request.sector = s.fs.volumeStart + sector := by
  unfold readSector
  split
  · exact ⟨[], by simp, by simp, by simp⟩
  · rename_i device _
    split_ifs
    · exact ⟨[], by simp, by simp, by simp⟩
    · -- the block layer hands the request on or refuses it
      rcases blockReadSector_requests device (s.fs.volumeStart + sector) s.fs.sectorBuffer s.bus with
        hnone | ⟨status, hone⟩
      · exact ⟨[], by rw [List.append_nil]; exact hnone, by simp, by simp⟩
      · refine ⟨_, hone, by simp, fun request hmem => ?_⟩
        rw [List.mem_singleton.mp hmem]

section Loops

variable {device : BlockDevice ω} {total : Nat}

/-- Following a link asks for a table sector at most. -/
theorem nextCluster_requests {s : FsState ω} (g : Geometry s.fs device total) (cluster : UInt32) :
    Requests s.fs s (nextCluster s cluster).2 1 0 := by
  by_cases hvalid : validCluster s.fs cluster = true
  · obtain ⟨hsectors, hstraddle, -⟩ := g.link_guards hvalid
    obtain ⟨new, hnew, hlength, hsector⟩ :=
      readSector_requests s (s.fs.fatStart + cluster * 4 / s.fs.bytesPerSector)
    -- what the entry says makes no difference to the requests
    have hstate : (nextCluster s cluster).2 =
        (readSector s (s.fs.fatStart + cluster * 4 / s.fs.bytesPerSector)).2 := by
      unfold nextCluster
      rw [if_neg (by simp [hvalid])]
      simp only [if_neg hsectors, if_neg hstraddle]
      split <;> rename_i hread <;> rw [hread]
    rw [hstate]
    refine ⟨new, hnew, hlength, le_of_eq (List.countP_eq_zero.mpr fun request hmem => ?_)⟩
    -- the table lies before the data area
    have hlink := g.link_lt hvalid
    have hfat := g.fat_le
    have hdata := g.data_le
    have htotal := g.total_lt
    have hexact := g.fatSector_toNat hvalid
    have hinside := g.fatSector_lt hvalid
    rw [hsector request hmem, isDataSector, UInt32.toNat_add, Nat.mod_eq_of_lt (by omega)]
    simp only [decide_eq_true_eq]
    omega
  · have hstate : (nextCluster s cluster).2 = s := by
      unfold nextCluster
      rw [if_pos (Bool.eq_false_iff.mpr hvalid)]
    rw [hstate]
    exact (Requests.refl s.fs s).mono (by omega) le_rfl

/-- What the loops of a file read may do: ask for so many sectors, and fill the buffer up
to the end of the file. -/
structure Bounded (p p' : Progress ω) (all data : Nat) : Prop where
  requests : Requests p.state.fs p.state p'.state all data
  end_eq : p'.copied.toNat + p'.remaining.toNat = p.copied.toNat + p.remaining.toNat
  buffer : ∀ i, p.copied.toNat + p.remaining.toNat ≤ i → p'.buffer i = p.buffer i

theorem Bounded.refl (p : Progress ω) : Bounded p p 0 0 :=
  ⟨.refl _ _, rfl, fun _ _ => rfl⟩

theorem Bounded.trans {p p' p'' : Progress ω} {all all' data data' : Nat}
    (hsame : SameVolume p.state.fs p'.state.fs) (h : Bounded p p' all data)
    (h' : Bounded p' p'' all' data') : Bounded p p'' (all + all') (data + data') := by
  have hrequests := h'.requests
  unfold Requests at hrequests
  rw [isDataSector_of_sameVolume hsame] at hrequests
  refine ⟨h.requests.trans hrequests, h'.end_eq.trans h.end_eq, fun i hi => ?_⟩
  rw [h'.buffer i (by rw [h.end_eq]; exact hi), h.buffer i hi]

theorem Bounded.mono {p p' : Progress ω} {all all' data data' : Nat} (h : Bounded p p' all data)
    (hall : all ≤ all') (hdata : data ≤ data') : Bounded p p' all' data' :=
  ⟨h.requests.mono hall hdata, h.end_eq, h.buffer⟩

theorem copyBytes_of_le (source : Buffer) (copied amount : Nat) (buffer : Buffer) {i : Nat}
    (hi : copied + amount ≤ i) : copyBytes source copied amount buffer i = buffer i := by
  induction amount with
  | zero => rfl
  | succ amount ih =>
    rw [copyBytes, Function.update_of_ne (by omega), ih (by omega)]

/-- The sector loop asks for each of its sectors at most once. -/
theorem readSectors_bounded (cluster : UInt32) (indices : List Nat) (p : Progress ω)
    (hfit : p.copied.toNat + p.remaining.toNat < 2 ^ 32) :
    Bounded p (readSectors cluster indices p).2 indices.length indices.length := by
  induction indices generalizing p with
  | nil => exact Bounded.refl p
  | cons index indices ih =>
    rw [readSectors]
    by_cases hdone : p.remaining = 0
    · rw [if_pos hdone]
      exact (Bounded.refl p).mono (Nat.zero_le _) (Nat.zero_le _)
    rw [if_neg hdone]
    obtain ⟨new, hnew, hlength, -⟩ :=
      readSector_requests p.state (clusterSector p.state.fs cluster index)
    obtain ⟨result, s, hread⟩ : ∃ result s,
      readSector p.state (clusterSector p.state.fs cluster index) = (result, s) := ⟨_, _, rfl⟩
    have hsame : SameVolume p.state.fs s.fs := by
      have hsame := readSector_sameVolume p.state (clusterSector p.state.fs cluster index)
      rwa [hread] at hsame
    rw [hread] at hnew ⊢
    have hone : Requests p.state.fs p.state s 1 1 :=
      ⟨new, hnew, hlength, List.countP_le_length.trans hlength⟩
    cases result with
    | ok =>
      have hamount := p.amount_toNat
      have hcopied : (p.advance s).copied.toNat = p.copied.toNat + p.amount.toNat := by
        change (p.copied + p.amount).toNat = _
        rw [UInt32.toNat_add, Nat.mod_eq_of_lt (by omega)]
      have hremaining : (p.advance s).remaining.toNat = p.remaining.toNat - p.amount.toNat :=
        UInt32.toNat_sub_of_le _ _ (UInt32.le_iff_toNat_le.mpr (by omega))
      -- one sector is copied behind the bytes copied so far
      have hstep : Bounded p (p.advance s) 1 1 :=
        ⟨hone, by omega, fun i hi => copyBytes_of_le _ _ _ _ (by omega)⟩
      have hrest := ih (p.advance s) (by omega)
      exact (Bounded.trans hsame hstep hrest).mono (by rw [List.length_cons]; omega)
        (by rw [List.length_cons]; omega)
    | _ =>
      -- a read that fails is a request like any other
      have hstep : Bounded p { p with state := s } 1 1 := ⟨hone, rfl, fun _ _ => rfl⟩
      exact hstep.mono (by rw [List.length_cons]; omega) (by rw [List.length_cons]; omega)

/-- The cluster loop asks for the sectors of each cluster and its link at most once. -/
theorem readClusters_bounded (budget : Nat) (cluster : UInt32) (p : Progress ω)
    (g : Geometry p.state.fs device total) (hvalid : validCluster p.state.fs cluster = true)
    (hfit : p.copied.toNat + p.remaining.toNat < 2 ^ 32) :
    Bounded p (readClusters budget cluster p).2
      (budget * (p.state.fs.sectorsPerCluster.toNat + 1))
      (budget * p.state.fs.sectorsPerCluster.toNat) := by
  induction budget generalizing cluster p with
  | zero => exact (Bounded.refl p).mono (Nat.zero_le _) (Nat.zero_le _)
  | succ budget ih =>
    have hsectors := readSectors_bounded cluster (List.range p.state.fs.sectorsPerCluster.toNat) p hfit
    have hsame := (readSectors_confined (List.range p.state.fs.sectorsPerCluster.toNat) p g hvalid
      fun _ => List.mem_range.mp).same
    rw [List.length_range] at hsectors
    -- one cluster more: its sectors and its link
    have hall : (budget + 1) * (p.state.fs.sectorsPerCluster.toNat + 1) =
        p.state.fs.sectorsPerCluster.toNat + 1 +
          budget * (p.state.fs.sectorsPerCluster.toNat + 1) := by ring
    have hdata : (budget + 1) * p.state.fs.sectorsPerCluster.toNat =
        p.state.fs.sectorsPerCluster.toNat + budget * p.state.fs.sectorsPerCluster.toNat := by ring
    rw [readClusters]
    by_cases hdone : p.remaining = 0
    · rw [if_pos hdone]
      exact (Bounded.refl p).mono (Nat.zero_le _) (Nat.zero_le _)
    rw [if_neg hdone]
    generalize readSectors cluster (List.range p.state.fs.sectorsPerCluster.toNat) p = out
      at hsectors hsame
    obtain ⟨stop, p₁⟩ := out
    have hshort := hsectors.mono (by omega : _ ≤ (budget + 1) *
      (p.state.fs.sectorsPerCluster.toNat + 1)) (by omega : _ ≤ (budget + 1) *
      p.state.fs.sectorsPerCluster.toNat)
    cases stop with
    | some result => exact hshort
    | none =>
      simp only at hsectors hsame hshort ⊢
      split_ifs with hlast
      · exact hshort
      have g₁ := g.of_sameVolume hsame
      have hnext := nextCluster_requests g₁ cluster
      have hsame₁ := (nextCluster_confined g₁ cluster).same
      obtain ⟨next, s, hrun⟩ : ∃ next s, nextCluster p₁.state cluster = (next, s) := ⟨_, _, rfl⟩
      rw [hrun] at hnext hsame₁ ⊢
      have hstep : Bounded p₁ { p₁ with state := s } 1 0 := ⟨hnext, rfl, fun _ _ => rfl⟩
      have hboth := Bounded.trans hsame hsectors hstep
      cases next with
      | error result => exact hboth.mono (by omega) (by omega)
      | ok next =>
        simp only
        split_ifs with hmarker
        · exact hboth.mono (by omega) (by omega)
        · have hsame₂ : SameVolume p.state.fs s.fs := hsame.trans hsame₁
          have hrest := ih next { p₁ with state := s } (g.of_sameVolume hsame₂)
            ((nextCluster_valid hrun).resolve_left hmarker)
            (by simp only [hsectors.end_eq]; exact hfit)
          simp only [← hsame₂.sectorsPerCluster_eq] at hrest
          exact (Bounded.trans hsame₂ hboth hrest).mono (by omega) (by omega)

end Loops

/-- Hostile disks: on a mounted volume, whatever the device answers, a file read asks for
at most as many data sectors as the volume has once its path is resolved, and for at most
one table sector for each cluster besides. It leaves the buffer alone behind the capacity
and behind the size of the entry, and altogether if the path is not resolved. Unless it
succeeds it leaves the count zero. -/
theorem fat32ReadFile_hostile {device : BlockDevice ω} {s₀ s₁ s : FsState ω}
    (hmount : fat32Mount (some device) s₀ = (.ok, s₁)) (hsame : SameVolume s₁.fs s.fs)
    (path : CString) (buffer : Option Buffer) (capacity count : UInt32) :
    let read := fat32ReadFile (some path) buffer capacity (some count) s
    let clusters := s.fs.clusterCount.toNat
    let sectors := s.fs.sectorsPerCluster.toNat
    (∀ entry s', lookup path s = (.ok entry, s') →
        Requests s.fs s' read.state (clusters * (sectors + 1)) (clusters * sectors) ∧
        (∀ before ∈ buffer, ∃ after ∈ read.buffer, ∀ i,
          ¬ (i < capacity.toNat ∧ i < entry.size.toNat) → after i = before i)) ∧
      (∀ result s', lookup path s = (.error result, s') →
        read.state = s' ∧ read.buffer = buffer) ∧
      (read.result ≠ .ok → read.bytesRead = some 0) := by
  intro read clusters sectors
  have g := (fat32Mount_ok hmount).1.of_sameVolume hsame
  obtain ⟨found, s', hlookup⟩ : ∃ found s', lookup path s = (found, s') := ⟨_, _, rfl⟩
  have hsame' := lookup_sameVolume g hlookup
  have hread : read = fat32ReadFile (some path) buffer capacity (some count) s := rfl
  simp only [fat32ReadFile, g.mounted, hlookup, Bool.true_eq_false, if_false] at hread
  cases found with
  | error result =>
    rw [hread]
    refine ⟨fun entry s'' h => ?_, fun result' s'' h => ?_, fun _ => rfl⟩
    · cases (Prod.mk.inj (hlookup.symm.trans h)).1
    · exact ⟨(Prod.mk.inj (hlookup.symm.trans h)).2, rfl⟩
  | ok entry =>
    have hnot : ∀ result s'', lookup path s = (.error result, s'') →
        read.state = s'' ∧ read.buffer = buffer := by
      intro result s'' h
      cases (Prod.mk.inj (hlookup.symm.trans h)).1
    suffices hentry : Requests s.fs s' read.state (clusters * (sectors + 1)) (clusters * sectors) ∧
        (∀ before ∈ buffer, ∃ after ∈ read.buffer, ∀ i,
          ¬ (i < capacity.toNat ∧ i < entry.size.toNat) → after i = before i) ∧
        (read.result ≠ .ok → read.bytesRead = some 0) by
      obtain ⟨hrequests, hbuffer, hcount⟩ := hentry
      refine ⟨fun entry' s'' h => ?_, hnot, hcount⟩
      obtain ⟨hentry, rfl⟩ := Prod.mk.inj (hlookup.symm.trans h)
      obtain rfl := Except.ok.inj hentry
      exact ⟨hrequests, hbuffer⟩
    -- most ways out ask for nothing and leave the buffer alone
    have hidle : Requests s.fs s' s' (clusters * (sectors + 1)) (clusters * sectors) ∧
        ∀ before ∈ buffer, ∃ after ∈ buffer, ∀ i,
          ¬ (i < capacity.toNat ∧ i < entry.size.toNat) → after i = before i :=
      ⟨(Requests.refl s.fs s').mono (Nat.zero_le _) (Nat.zero_le _),
        fun before hbefore => ⟨before, hbefore, fun _ _ => rfl⟩⟩
    simp only at hread
    split_ifs at hread with hdirectory hnull hcapacity hempty hinvalid
    · rw [hread]
      exact ⟨hidle.1, hidle.2, fun _ => rfl⟩
    · rw [hread]
      exact ⟨hidle.1, hidle.2, fun _ => rfl⟩
    · rw [hread]
      exact ⟨hidle.1, hidle.2, fun _ => rfl⟩
    · rw [hread]
      exact ⟨hidle.1, hidle.2, fun _ => rfl⟩
    · rw [hread]
      exact ⟨hidle.1, hidle.2, fun _ => rfl⟩
    · cases buffer with
      | none => exact absurd ⟨hempty, rfl⟩ hnull
      | some bytes =>
        have hle := UInt32.le_iff_toNat_le.mp (UInt32.not_lt.mp hcapacity)
        have hbounded := readClusters_bounded s'.fs.clusterCount.toNat entry.firstCluster
          ⟨s', bytes, 0, entry.size⟩ (g.of_sameVolume hsame') (by simpa using hinvalid)
          (by simpa using entry.size.toNat_lt)
        obtain ⟨result, p, hrun⟩ : ∃ result p, readClusters s'.fs.clusterCount.toNat
          entry.firstCluster ⟨s', bytes, 0, entry.size⟩ = (result, p) := ⟨_, _, rfl⟩
        rw [hrun] at hbounded
        obtain ⟨hrequests, -, hbuffer⟩ := hbounded
        unfold Requests at hrequests
        simp only [isDataSector_of_sameVolume hsame', ← hsame'.clusterCount_eq,
          ← hsame'.sectorsPerCluster_eq, UInt32.toNat_zero, Nat.zero_add] at hrequests hbuffer
        simp only [hrun] at hread
        -- behind the end of the file, which lies in the capacity, nothing is written
        have hbehind : ∀ i, ¬ (i < capacity.toNat ∧ i < entry.size.toNat) → p.buffer i = bytes i :=
          fun i hi => hbuffer i (by omega)
        cases result <;> rw [hread] <;>
          refine ⟨hrequests, fun before hbefore => ⟨p.buffer, rfl, ?_⟩, by simp⟩ <;>
          · obtain rfl := Option.some.inj hbefore
            exact hbehind

/-- The file `F` of the volume with a ring, with cluster four unreadable: the read fails
after a cluster has been copied, and leaves no count. -/
theorem fat32ReadFile_hostile_ring :
    let device := faultyDevice 512 12 ringDisk (· == 4)
    let s := (fat32Mount (some device) unmounted).2
    let path : CString := ⟨[0x46], by decide⟩
    let read := fat32ReadFile (some path) (some fun _ => 0) 1536 (some 7) s
    read.result = .eio ∧ read.bytesRead = some 0 ∧
      ∃ after ∈ read.buffer, after 0 = 0xE5 ∧ after 1536 = 0 := by
  intro device s path read
  have hmount : (fat32Mount (some device) unmounted).1 = .ok := by decide +kernel
  have hlookup : (lookup path s).1 = .ok ⟨[0x46], 0, 1536, 3⟩ := by decide +kernel
  have hresult : read.result = .eio := by decide +kernel
  obtain ⟨hfile, -, hcount⟩ := fat32ReadFile_hostile (Prod.ext hmount rfl) (SameVolume.refl s.fs) path
    (some fun _ => 0) 1536 7
  obtain ⟨-, hbuffer⟩ := hfile _ _ (Prod.ext hlookup rfl)
  obtain ⟨after, hafter, hbehind⟩ := hbuffer _ rfl
  have hfirst : (read.buffer.map (· 0)) = some 0xE5 := by decide +kernel
  refine ⟨hresult, hcount (by rw [hresult]; decide), after, hafter, ?_, hbehind 1536 (by decide)⟩
  rw [Option.mem_def.mp hafter] at hfirst
  exact Option.some.inj hfirst

end LevOS.Filesystem
