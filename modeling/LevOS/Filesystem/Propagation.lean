import LevOS.Filesystem.FileContents
import LevOS.Filesystem.Loops

/-!
# Calls as sequences of reads

A listing or a file read asks for sectors of the volume one after the other and stops at
the first that it does not get. So whatever holds of each read of a sector, and goes on
behind reads that have not failed, holds of a whole call. The loops are followed here for
any such relation once.

## Main definitions

* `Respects`, a relation between two states that the reads of a volume respect
* `Allows`, a callback that respects it

## Main results

* `Respects.scanDirectory`, `Respects.walk`, `Respects.readClusters`
* `Respects.exec`, what holds of a call
-/

namespace LevOS.Filesystem

open LevOS.Drivers

variable {ω γ : Type}

/-- A relation between two states and the question whether a read has failed in between:
it holds of every read in the volume, and goes on behind reads that did not fail. -/
structure Respects (device : BlockDevice ω) (total : Nat)
    (P : FsState ω → FsState ω → Prop → Prop) : Prop where
  refl : ∀ s, P s s False
  trans : ∀ {s s' s'' failed}, P s s' False → P s' s'' failed → P s s'' failed
  read : ∀ {s : FsState ω} {sector : UInt32}, Geometry s.fs device total → sector.toNat < total →
    P s (readSector s sector).2 ((readSector s sector).1 = .eio)

/-- A callback after which the relation goes on. -/
def Allows (P : FsState ω → FsState ω → Prop → Prop) (callback : DirCallback ω γ) : Prop :=
  ∀ entry context (s : FsState ω),
    P s ⟨s.fs, { s.bus with outside := (callback entry context s.bus.outside).2.2 }⟩ False

/-- The question may be put differently. -/
theorem respects_congr {P : FsState ω → FsState ω → Prop → Prop} {s s' : FsState ω}
    {failed failed' : Prop} (h : P s s' failed) (hiff : failed' ↔ failed) : P s s' failed' := by
  rwa [propext hiff]

/-- What an entry of the table stands for never means that a read has failed. -/
theorem decodeLink_ne_eio (fs : Fat32Fs ω) (value : UInt32) : decodeLink fs value ≠ .error .eio := by
  unfold decodeLink
  split_ifs <;> simp

section Rules

variable {device : BlockDevice ω} {total : Nat} {P : FsState ω → FsState ω → Prop → Prop}

/-- Following the link of a cluster passes on that its read has failed. -/
theorem Respects.nextCluster (hP : Respects device total P) {s : FsState ω}
    (g : Geometry s.fs device total) {cluster : UInt32} (hvalid : validCluster s.fs cluster = true) :
    P s (nextCluster s cluster).2 ((nextCluster s cluster).1 = .error .eio) := by
  obtain ⟨hsectors, hstraddle, -⟩ := g.link_guards hvalid
  have hread := hP.read g (g.fatSector_lt hvalid)
  have hresult := readSector_result s (s.fs.fatStart + cluster * 4 / s.fs.bytesPerSector)
  unfold Filesystem.nextCluster
  rw [if_neg (by simp [hvalid])]
  simp only [if_neg hsectors, if_neg hstraddle]
  obtain ⟨result, s', hsector⟩ : ∃ result s',
    readSector s (s.fs.fatStart + cluster * 4 / s.fs.bytesPerSector) = (result, s') := ⟨_, _, rfl⟩
  rw [hsector] at hread hresult ⊢
  -- only the read can fail with this code; what the table entry holds cannot
  rcases hresult with rfl | rfl
  · exact respects_congr hread (by simp [decodeLink_ne_eio])
  · exact respects_congr hread (by simp)

/-- The lookup callback leaves the outside world alone. -/
theorem Respects.allows_find (hP : Respects device total P) :
    Allows P (findCallback : DirCallback ω FindContext) := by
  rw [findCallback_eq]
  exact fun _ _ s => hP.refl s

/-! ## Scans -/

/-- The record loop reads nothing. -/
theorem Respects.scanRecords (hP : Respects device total P) {callback : DirCallback ω γ}
    (hcallback : Allows P callback) (offsets : List Nat) (s : FsState ω) (context : γ) :
    P s (scanRecords callback offsets s context).2.1 False := by
  induction offsets generalizing s context with
  | nil => exact hP.refl s
  | cons offset offsets ih =>
    rw [Filesystem.scanRecords]
    simp only
    split_ifs
    · exact hP.refl s
    · cases entryFromRaw fun i => s.fs.sectorBuffer (offset + i) with
      | none => exact ih s context
      | some entry =>
        have hcall := hcallback entry context s
        simp only
        split_ifs
        · exact hcall
        · exact hP.trans hcall (ih _ _)

theorem Respects.scanSectors (hP : Respects device total P) {callback : DirCallback ω γ}
    (hcallback : Allows P callback) {cluster : UInt32} (indices : List Nat) (s : FsState ω)
    (context : γ) (g : Geometry s.fs device total) (hvalid : validCluster s.fs cluster = true)
    (hindices : ∀ index ∈ indices, index < s.fs.sectorsPerCluster.toNat) :
    P s (scanSectors callback cluster indices s context).2.1
      ((scanSectors callback cluster indices s context).1 = some .eio) := by
  induction indices generalizing s context with
  | nil => exact respects_congr (hP.refl s) (by simp [Filesystem.scanSectors])
  | cons index indices ih =>
    rw [Filesystem.scanSectors]
    have hindex := hindices index List.mem_cons_self
    have hsector := g.clusterSector_lt hvalid hindex
    have hread := hP.read g hsector
    have hsame := readSector_sameVolume s (clusterSector s.fs cluster index)
    have hresult := readSector_result s (clusterSector s.fs cluster index)
    obtain ⟨result, s₁, hone⟩ : ∃ result s₁,
      readSector s (clusterSector s.fs cluster index) = (result, s₁) := ⟨_, _, rfl⟩
    rw [hone] at hread hsame hresult ⊢
    rcases hresult with rfl | rfl
    · have hread : P s s₁ False := respects_congr hread (by simp)
      have hrecords := hP.scanRecords hcallback (recordOffsets s₁.fs.bytesPerSector) s₁ context
      have hstop (result : Fat32Result) (h : (Filesystem.scanRecords callback
          (recordOffsets s₁.fs.bytesPerSector) s₁ context).1 = some result) : result = .ok :=
        scanRecords_result callback (recordOffsets s₁.fs.bytesPerSector) s₁ context h
      have hconfined : Confined total s₁ _ :=
        scanRecords_confined callback (recordOffsets s₁.fs.bytesPerSector) s₁ context
      have hkept := hconfined.same
      obtain ⟨stop, s₂, context₂, hrun⟩ : ∃ stop s₂ context₂,
        Filesystem.scanRecords callback (recordOffsets s₁.fs.bytesPerSector) s₁ context =
          (stop, s₂, context₂) := ⟨_, _, _, rfl⟩
      simp only [hrun] at hrecords hstop hkept ⊢
      cases stop with
      -- a record can only end the scan well
      | some result =>
        obtain rfl := hstop result rfl
        exact respects_congr (hP.trans hread hrecords) (by simp)
      | none =>
        have hsame₂ := SameVolume.trans hsame hkept
        exact hP.trans (hP.trans hread hrecords) (ih s₂ context₂ (g.of_sameVolume hsame₂)
          (hsame₂.validCluster_eq cluster ▸ hvalid)
          fun i hi => hsame₂.sectorsPerCluster_eq ▸ hindices i (List.mem_cons_of_mem _ hi))
    · exact respects_congr hread (by simp)

/-- A scan goes from read to read up to one that fails; it does not succeed then, and says
that it has failed in no other case. -/
theorem Respects.scanClusters (hP : Respects device total P) {callback : DirCallback ω γ}
    (hcallback : Allows P callback) (budget : Nat) (cluster : UInt32) (s : FsState ω) (context : γ)
    (g : Geometry s.fs device total) :
    ∃ failed, P s (scanClusters callback budget cluster s context).2.1 failed ∧
      ((scanClusters callback budget cluster s context).1 = .ok → ¬ failed) ∧
      ((scanClusters callback budget cluster s context).1 = .eio → failed) := by
  induction budget generalizing cluster s context with
  | zero =>
    refine ⟨False, hP.refl s, fun _ => id, ?_⟩
    rw [Filesystem.scanClusters]
    split_ifs <;> simp
  | succ budget ih =>
    rw [Filesystem.scanClusters]
    by_cases hinvalid : validCluster s.fs cluster = false
    · rw [if_pos hinvalid]
      exact ⟨False, hP.refl s, fun _ => id, by simp⟩
    rw [if_neg hinvalid]
    have hvalid : validCluster s.fs cluster = true := by simpa using hinvalid
    have hreads := hP.scanSectors hcallback (List.range s.fs.sectorsPerCluster.toNat) s context g
      hvalid fun _ => List.mem_range.mp
    have hsame := (scanSectors_confined callback (List.range s.fs.sectorsPerCluster.toNat) s context
      g hvalid fun _ => List.mem_range.mp).same
    obtain ⟨stop, s₁, context₁, hsectors⟩ : ∃ stop s₁ context₁, Filesystem.scanSectors callback cluster
      (List.range s.fs.sectorsPerCluster.toNat) s context = (stop, s₁, context₁) := ⟨_, _, _, rfl⟩
    rw [hsectors] at hreads hsame ⊢
    cases stop with
    | some result =>
      simp only [Option.some.injEq] at hreads ⊢
      refine ⟨result = .eio, hreads, ?_, id⟩
      rintro rfl
      simp
    | none =>
      have hreads : P s s₁ False := respects_congr hreads (by simp)
      have g₁ := g.of_sameVolume hsame
      have hvalid₁ : validCluster s₁.fs cluster = true := hsame.validCluster_eq cluster ▸ hvalid
      have hlink := hP.nextCluster g₁ hvalid₁
      have hsame₁ := (nextCluster_confined g₁ cluster).same
      obtain ⟨found, s₂, hnext⟩ : ∃ found s₂, Filesystem.nextCluster s₁ cluster = (found, s₂) :=
        ⟨_, _, rfl⟩
      simp only [hnext] at hlink hsame₁ ⊢
      cases found with
      -- whatever kept the link from being followed is called a bad file system
      | error result => exact ⟨_, hP.trans hreads hlink, by simp, by simp⟩
      | ok next =>
        have hlink : P s₁ s₂ False := respects_congr hlink (by simp)
        simp only
        split_ifs
        · exact ⟨False, hP.trans hreads hlink, fun _ => id, by simp⟩
        · obtain ⟨failed, hrest, hok, heio⟩ := ih next s₂ context₁ (g₁.of_sameVolume hsame₁)
          exact ⟨failed, hP.trans (hP.trans hreads hlink) hrest, hok, heio⟩

theorem Respects.scanDirectory (hP : Respects device total P) {callback : DirCallback ω γ}
    (hcallback : Allows P callback) (first : UInt32) (s : FsState ω) (context : γ)
    (g : Geometry s.fs device total) :
    ∃ failed, P s (scanDirectory callback first s context).2.1 failed ∧
      ((scanDirectory callback first s context).1 = .ok → ¬ failed) ∧
      ((scanDirectory callback first s context).1 = .eio → failed) := by
  unfold Filesystem.scanDirectory
  split_ifs
  · exact ⟨False, hP.refl s, fun _ => id, by simp⟩
  · exact hP.scanClusters hcallback _ first s context g

/-! ## Paths -/

/-- The walk along a path scans one directory after the other. -/
theorem Respects.walk (hP : Respects device total P) (parts : List (List UInt8))
    (directory : UInt32) (s : FsState ω) (g : Geometry s.fs device total) :
    ∃ failed, P s (walk parts directory s).2 failed ∧
      (∀ entry, (walk parts directory s).1 = .ok entry → ¬ failed) ∧
      ((walk parts directory s).1 = .error .eio → failed) := by
  induction parts generalizing directory s with
  | nil =>
    rw [Filesystem.walk]
    split_ifs
    · exact ⟨False, hP.refl s, fun _ _ => id, by simp⟩
    · exact ⟨False, hP.refl s, by simp, by simp⟩
  | cons part parts ih =>
    rw [Filesystem.walk]
    by_cases hlong : 13 ≤ part.length
    · rw [if_pos hlong]
      exact ⟨False, hP.refl s, by simp, by simp⟩
    rw [if_neg hlong]
    by_cases hdot : namesEqual part dot = true
    · rw [if_pos hdot]
      exact ih directory s g
    rw [if_neg hdot]
    have hsame := (scanDirectory_confined findCallback directory s ⟨part, none⟩ g).same
    obtain ⟨failed, hscan, hok, heio⟩ := hP.scanDirectory hP.allows_find directory s ⟨part, none⟩ g
    obtain ⟨result, s', find, hrun⟩ : ∃ result s' find,
      Filesystem.scanDirectory findCallback directory s ⟨part, none⟩ = (result, s', find) :=
        ⟨_, _, _, rfl⟩
    rw [hrun] at hsame hscan hok heio ⊢
    by_cases hfound : result = .ok
    · subst hfound
      have hscan : P s s' False := respects_congr hscan (iff_of_false id (hok rfl))
      cases hentry : find.found with
      | none =>
        simp only [hentry]
        exact ⟨False, hscan, by simp, by simp⟩
      | some entry =>
        simp only [hentry]
        split_ifs
        · exact ⟨False, hscan, by simp, by simp⟩
        · exact ⟨False, hscan, by simp, by simp⟩
        · obtain ⟨failed, hrest, hok, heio⟩ := ih entry.firstCluster s' (g.of_sameVolume hsame)
          exact ⟨failed, hP.trans hscan hrest, hok, heio⟩
        · exact ⟨False, hscan, fun _ _ => id, by simp⟩
    · -- the scan has not succeeded, and its result is passed on
      cases result
      case ok => exact absurd rfl hfound
      case eio => exact ⟨failed, hscan, by simp, fun _ => heio rfl⟩
      all_goals exact ⟨failed, hscan, by simp, by simp⟩

theorem Respects.lookup (hP : Respects device total P) (path : CString) (s : FsState ω)
    (g : Geometry s.fs device total) :
    ∃ failed, P s (lookup path s).2 failed ∧
      (∀ entry, (lookup path s).1 = .ok entry → ¬ failed) ∧
      ((lookup path s).1 = .error .eio → failed) := by
  rw [lookup_eq_walk]
  exact hP.walk _ _ s g

/-! ## File reads -/

/-- The sector loop of a file read passes on that a read has failed. -/
theorem Respects.readSectors (hP : Respects device total P) {cluster : UInt32} (indices : List Nat)
    (p : Progress ω) (g : Geometry p.state.fs device total)
    (hvalid : validCluster p.state.fs cluster = true)
    (hindices : ∀ index ∈ indices, index < p.state.fs.sectorsPerCluster.toNat) :
    P p.state (readSectors cluster indices p).2.state
      ((readSectors cluster indices p).1 = some .eio) := by
  induction indices generalizing p with
  | nil => exact respects_congr (hP.refl p.state) (by simp [Filesystem.readSectors])
  | cons index indices ih =>
    rw [Filesystem.readSectors]
    by_cases hdone : p.remaining = 0
    · rw [if_pos hdone]
      exact respects_congr (hP.refl p.state) (by simp)
    rw [if_neg hdone]
    have hindex := hindices index List.mem_cons_self
    have hsector := g.clusterSector_lt hvalid hindex
    have hread := hP.read g hsector
    have hsame := readSector_sameVolume p.state (clusterSector p.state.fs cluster index)
    have hresult := readSector_result p.state (clusterSector p.state.fs cluster index)
    obtain ⟨result, s, hone⟩ : ∃ result s,
      readSector p.state (clusterSector p.state.fs cluster index) = (result, s) := ⟨_, _, rfl⟩
    rw [hone] at hread hsame hresult ⊢
    rcases hresult with rfl | rfl
    · exact hP.trans (respects_congr hread (by simp)) (ih (p.advance s) (g.of_sameVolume hsame)
        (hsame.validCluster_eq cluster ▸ hvalid)
        fun i hi => hsame.sectorsPerCluster_eq ▸ hindices i (List.mem_cons_of_mem _ hi))
    · exact respects_congr hread (by simp)

/-- The cluster loop of a file read passes on that a read has failed. -/
theorem Respects.readClusters (hP : Respects device total P) (budget : Nat) (cluster : UInt32)
    (p : Progress ω) (g : Geometry p.state.fs device total)
    (hvalid : validCluster p.state.fs cluster = true) :
    P p.state (readClusters budget cluster p).2.state
      ((readClusters budget cluster p).1 = .eio) := by
  induction budget generalizing cluster p with
  | zero =>
    refine respects_congr (hP.refl p.state) ?_
    rw [Filesystem.readClusters]
    split_ifs <;> simp
  | succ budget ih =>
    rw [Filesystem.readClusters]
    by_cases hdone : p.remaining = 0
    · rw [if_pos hdone]
      exact respects_congr (hP.refl p.state) (by simp)
    rw [if_neg hdone]
    have hreads := hP.readSectors (List.range p.state.fs.sectorsPerCluster.toNat) p g hvalid
      fun _ => List.mem_range.mp
    have hsame := (readSectors_confined (List.range p.state.fs.sectorsPerCluster.toNat) p g hvalid
      fun _ => List.mem_range.mp).same
    obtain ⟨stop, p₁, hsectors⟩ : ∃ stop p₁, Filesystem.readSectors cluster
      (List.range p.state.fs.sectorsPerCluster.toNat) p = (stop, p₁) := ⟨_, _, rfl⟩
    rw [hsectors] at hreads hsame ⊢
    cases stop with
    | some result => exact respects_congr hreads (by simp)
    | none =>
      have hreads : P p.state p₁.state False := respects_congr hreads (by simp)
      simp only
      by_cases hlast : p₁.remaining = 0
      · rw [if_pos hlast]
        exact respects_congr hreads (by simp)
      rw [if_neg hlast]
      have g₁ := g.of_sameVolume hsame
      have hvalid₁ : validCluster p₁.state.fs cluster = true :=
        hsame.validCluster_eq cluster ▸ hvalid
      have hlink := hP.nextCluster g₁ hvalid₁
      have hsame₁ := (nextCluster_confined g₁ cluster).same
      obtain ⟨found, s₂, hnext⟩ : ∃ found s₂, Filesystem.nextCluster p₁.state cluster = (found, s₂) :=
        ⟨_, _, rfl⟩
      rw [hnext] at hlink hsame₁ ⊢
      cases found with
      -- here the result of `next_cluster` is passed on
      | error result => exact respects_congr (hP.trans hreads hlink) (by simp)
      | ok next =>
        have hlinked : P p.state s₂ False := hP.trans hreads (respects_congr hlink (by simp))
        simp only
        by_cases hmarker : next = endMarker
        · rw [if_pos hmarker]
          exact respects_congr hlinked (by simp)
        · rw [if_neg hmarker]
          exact hP.trans hlinked (ih next { p₁ with state := s₂ } (g₁.of_sameVolume hsame₁)
            ((nextCluster_valid hnext).resolve_left hmarker))

/-! ## Calls -/

/-- A listing says that it has failed only if a read has. -/
theorem Respects.fat32ListDirectory (hP : Respects device total P) (path : Option CString)
    {callback : Option (DirCallback ω γ)} (hcallback : ∀ f ∈ callback, Allows P f) (s : FsState ω)
    (context : γ) (g : Geometry s.fs device total) :
    ∃ failed, P s (fat32ListDirectory path callback s context).2.1 failed ∧
      ((fat32ListDirectory path callback s context).1 = .eio → failed) := by
  cases callback with
  | none => exact ⟨False, hP.refl s, by simp [Filesystem.fat32ListDirectory]⟩
  | some callback =>
    have hsame := (lookup_confined (path.getD rootPath) s g).same
    obtain ⟨failed, hlookup, hok, heio⟩ := hP.lookup (path.getD rootPath) s g
    obtain ⟨found, s', hrun⟩ : ∃ found s', Filesystem.lookup (path.getD rootPath) s = (found, s') :=
      ⟨_, _, rfl⟩
    rw [hrun] at hsame hlookup hok heio
    simp only [Filesystem.fat32ListDirectory, g.mounted, hrun, Bool.true_eq_false, if_false]
    cases found with
    | error result => exact ⟨failed, hlookup, fun h => heio (congrArg Except.error h)⟩
    | ok entry =>
      have hlookup : P s s' False := respects_congr hlookup (iff_of_false id (hok entry rfl))
      simp only
      split_ifs
      · exact ⟨False, hlookup, by simp⟩
      · obtain ⟨failed, hscan, -, heio⟩ := hP.scanDirectory (hcallback callback rfl)
          entry.firstCluster s' context (g.of_sameVolume hsame)
        exact ⟨failed, hP.trans hlookup hscan, heio⟩

/-- A file read says that it has failed only if a read of a sector has. -/
theorem Respects.fat32ReadFile (hP : Respects device total P) (path : Option CString)
    (buffer : Option Buffer) (capacity : UInt32) (bytesRead : Option UInt32) (s : FsState ω)
    (g : Geometry s.fs device total) :
    ∃ failed, P s (fat32ReadFile path buffer capacity bytesRead s).state failed ∧
      ((fat32ReadFile path buffer capacity bytesRead s).result = .eio → failed) := by
  cases bytesRead with
  | none => exact ⟨False, hP.refl s, by simp [Filesystem.fat32ReadFile]⟩
  | some count =>
  cases path with
  | none => exact ⟨False, hP.refl s, by simp [Filesystem.fat32ReadFile]⟩
  | some path =>
    have hsame := (lookup_confined path s g).same
    obtain ⟨failed, hlookup, hok, heio⟩ := hP.lookup path s g
    obtain ⟨found, s', hrun⟩ : ∃ found s', Filesystem.lookup path s = (found, s') := ⟨_, _, rfl⟩
    rw [hrun] at hsame hlookup hok heio
    simp only [Filesystem.fat32ReadFile, g.mounted, hrun, Bool.true_eq_false, if_false]
    cases found with
    | error result => exact ⟨failed, hlookup, fun h => heio (congrArg Except.error h)⟩
    | ok entry =>
      have hlookup : P s s' False := respects_congr hlookup (iff_of_false id (hok entry rfl))
      simp only
      -- nothing is read between the lookup and the first sector of the file
      split_ifs with hdirectory hnull hcapacity hempty hinvalid
      · exact ⟨False, hlookup, by simp⟩
      · exact ⟨False, hlookup, by simp⟩
      · exact ⟨False, hlookup, by simp⟩
      · exact ⟨False, hlookup, by simp⟩
      · exact ⟨False, hlookup, by simp⟩
      · cases buffer with
        | none => exact ⟨False, hlookup, by simp⟩
        | some bytes =>
          have hfile := hP.readClusters s'.fs.clusterCount.toNat entry.firstCluster
            ⟨s', bytes, 0, entry.size⟩ (g.of_sameVolume hsame) (by simpa using hinvalid)
          obtain ⟨result, p, hclusters⟩ : ∃ result p, Filesystem.readClusters s'.fs.clusterCount.toNat
            entry.firstCluster ⟨s', bytes, 0, entry.size⟩ = (result, p) := ⟨_, _, rfl⟩
          rw [hclusters] at hfile
          simp only [hclusters]
          cases result <;> exact ⟨_, hP.trans hlookup hfile, by simp⟩

/-- The callback of a listing lets the relation go on. -/
def FsCall.Allowed (P : FsState ω → FsState ω → Prop → Prop) : FsCall ω → Prop
  | .list _ callback _ => ∀ f ∈ callback, Allows P f
  | _ => True

/-- A call on a mounted volume goes from read to read, and says that it has failed only if
a read has. -/
theorem Respects.exec (hP : Respects device total P) {call : FsCall ω}
    (hcall : call.isMount = false) (hallowed : call.Allowed P) (s : FsState ω)
    (g : Geometry s.fs device total) :
    ∃ failed, P s (call.exec s).2 failed ∧ ((call.exec s).1 = .eio → failed) := by
  cases call with
  | mount device => cases hcall
  | list path callback context => exact hP.fat32ListDirectory path hallowed s context g
  | read path buffer capacity bytesRead =>
    exact hP.fat32ReadFile path buffer capacity bytesRead s g

end Rules

end LevOS.Filesystem
