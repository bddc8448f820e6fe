import LevOS.Filesystem.File
import LevOS.Filesystem.Geometry

/-!
# Reads stay inside the mounted volume

Every operation on a mounted volume changes nothing of the object but the
sector buffer, and asks the device only for sectors of the first allocation
table or of the data area. Both are stated by one relation between the states
before and after, `Confined`, which is reflexive and transitive; each loop of
the source is confined because its body is.

Over whole runs of mounts, listings and reads the geometry in force is that of
the last successful mount.

## Main definitions

* `InVolume`, `Confined`
* `FsCall`, `FsCall.exec`, `FsRun`, the calls of a run and what they do

## Main results

* `scanDirectory_confined`, `lookup_confined`, `fat32ReadFile_confined`
* `fsRun_confines`, the invariant of every run from the zero object
-/

namespace LevOS.Filesystem

open LevOS.Drivers

variable {ω γ : Type}

/-! ## One relation for every operation -/

/-- A physical sector of the first table or of the data area of a volume. -/
def InVolume (fs : Fat32Fs ω) (total : Nat) (sector : UInt32) : Prop :=
  (fs.volumeStart.toNat + fs.fatStart.toNat ≤ sector.toNat ∧
      sector.toNat < fs.volumeStart.toNat + (fs.fatStart.toNat + fs.fatSectors.toNat)) ∨
    (fs.volumeStart.toNat + fs.dataStart.toNat ≤ sector.toNat ∧
      sector.toNat < fs.volumeStart.toNat + total)

theorem InVolume.of_sameVolume {fs fs' : Fat32Fs ω} {total : Nat} {sector : UInt32}
    (h : SameVolume fs fs') (hin : InVolume fs' total sector) : InVolume fs total sector := by
  unfold SameVolume at h
  rw [← h] at hin
  exact hin

/-- What an operation on a mounted volume may do: change the sector buffer, and
make further requests inside the volume. -/
structure Confined (total : Nat) (s s' : FsState ω) : Prop where
  same : SameVolume s.fs s'.fs
  requests : ∃ new, s'.bus.requests = s.bus.requests ++ new ∧
    ∀ request ∈ new, InVolume s.fs total request.sector

theorem Confined.refl (total : Nat) (s : FsState ω) : Confined total s s :=
  ⟨SameVolume.refl _, [], (List.append_nil _).symm, by simp⟩

theorem Confined.trans {total : Nat} {s s' s'' : FsState ω} (h : Confined total s s')
    (h' : Confined total s' s'') : Confined total s s'' := by
  obtain ⟨hsame, first, hfirst, hinFirst⟩ := h
  obtain ⟨hsame', second, hsecond, hinSecond⟩ := h'
  refine ⟨hsame.trans hsame', first ++ second, ?_, ?_⟩
  · rw [hsecond, hfirst, List.append_assoc]
  · intro request hmem
    rcases List.mem_append.mp hmem with hleft | hright
    · exact hinFirst request hleft
    · exact (hinSecond request hright).of_sameVolume hsame

/-- A callback may change the outside world, which confinement does not see. -/
theorem Confined.of_outside (total : Nat) (s : FsState ω) (outside : ω) :
    Confined total s ⟨s.fs, { s.bus with outside := outside }⟩ :=
  ⟨SameVolume.refl _, [], (List.append_nil _).symm, by simp⟩

section Operations

variable {device : BlockDevice ω} {total : Nat} {s : FsState ω}

/-- A read of a volume-relative sector whose physical number is in the volume. -/
theorem readSector_confined {sector : UInt32}
    (hin : InVolume s.fs total (s.fs.volumeStart + sector)) :
    Confined total s (readSector s sector).2 := by
  unfold readSector
  split
  · exact Confined.refl _ _
  · rename_i found _
    split_ifs
    · exact Confined.refl _ _
    · refine ⟨readInto_sameVolume s found _, ?_⟩
      rcases blockReadSector_requests found (s.fs.volumeStart + sector) s.fs.sectorBuffer s.bus with
        hnone | ⟨status, hone⟩
      · exact ⟨[], by rw [List.append_nil]; exact hnone, by simp⟩
      · refine ⟨_, hone, ?_⟩
        intro request hmem
        rw [List.mem_singleton.mp hmem]
        exact hin

/-- The sectors of a valid cluster are in the data area. -/
theorem Geometry.clusterSector_inVolume {fs : Fat32Fs ω} (g : Geometry fs device total)
    {cluster : UInt32} (hvalid : validCluster fs cluster = true) {index : Nat}
    (hindex : index < fs.sectorsPerCluster.toNat) :
    InVolume fs total (fs.volumeStart + clusterSector fs cluster index) := by
  have hcell := g.cell_lt hvalid hindex
  have htotal := g.total_lt
  right
  rw [UInt32.toNat_add, g.clusterSector_toNat hvalid hindex, Nat.mod_eq_of_lt (by omega)]
  omega

/-- The link of a valid cluster is in the first table. -/
theorem Geometry.fatSector_inVolume {fs : Fat32Fs ω} (g : Geometry fs device total)
    {cluster : UInt32} (hvalid : validCluster fs cluster = true) :
    InVolume fs total (fs.volumeStart + (fs.fatStart + cluster * 4 / fs.bytesPerSector)) := by
  have hlink := g.link_lt hvalid
  have hfat := g.fat_le
  have hdata := g.data_le
  have htotal := g.total_lt
  left
  rw [UInt32.toNat_add, g.fatSector_toNat hvalid]
  generalize 4 * cluster.toNat / fs.bytesPerSector.toNat = link at hlink
  rw [Nat.mod_eq_of_lt (by omega)]
  omega

theorem nextCluster_confined (g : Geometry s.fs device total) (cluster : UInt32) :
    Confined total s (nextCluster s cluster).2 := by
  unfold nextCluster
  split_ifs with hvalid
  · exact Confined.refl _ _
  · have hcluster : validCluster s.fs cluster = true := by simpa using hvalid
    have hread := readSector_confined (g.fatSector_inVolume hcluster)
    simp only
    split_ifs
    · exact Confined.refl _ _
    · exact Confined.refl _ _
    · split <;> rename_i hres <;> rw [hres] at hread <;> exact hread

theorem decodeLink_valid {fs : Fat32Fs ω} {value next : UInt32}
    (h : decodeLink fs value = .ok next) : next = endMarker ∨ validCluster fs next = true := by
  unfold decodeLink at h
  split_ifs at h with hend hbad hlink
  · exact Or.inl (Except.ok.inj h).symm
  · rw [← Except.ok.inj h]
    exact Or.inr (by simpa using hlink)

/-- A link that is followed is the end marker or a valid cluster. -/
theorem nextCluster_valid {s' : FsState ω} {cluster next : UInt32}
    (h : nextCluster s cluster = (.ok next, s')) :
    next = endMarker ∨ validCluster s'.fs next = true := by
  unfold nextCluster at h
  split_ifs at h with hvalid
  · cases h
  · simp only at h
    split_ifs at h with hsector hinside
    · cases h
    · cases h
    · split at h
      · obtain ⟨hnext, rfl⟩ := Prod.mk.inj h
        exact decodeLink_valid hnext
      · cases h

theorem scanRecords_confined (callback : DirCallback ω γ) (offsets : List Nat)
    (s : FsState ω) (context : γ) :
    Confined total s (scanRecords callback offsets s context).2.1 := by
  induction offsets generalizing s context with
  | nil => exact Confined.refl _ _
  | cons offset offsets ih =>
    rw [scanRecords]
    split_ifs
    · exact Confined.refl _ _
    · split
      · exact ih s context
      · simp only
        split_ifs
        · exact Confined.of_outside _ _ _
        · exact (Confined.of_outside total s _).trans (ih _ _)

theorem scanSectors_confined (callback : DirCallback ω γ) {cluster : UInt32}
    (indices : List Nat) (s : FsState ω) (context : γ) (g : Geometry s.fs device total)
    (hvalid : validCluster s.fs cluster = true)
    (hindices : ∀ index ∈ indices, index < s.fs.sectorsPerCluster.toNat) :
    Confined total s (scanSectors callback cluster indices s context).2.1 := by
  induction indices generalizing s context with
  | nil => exact Confined.refl _ _
  | cons index indices ih =>
    have hread := readSector_confined
      (g.clusterSector_inVolume hvalid (hindices index List.mem_cons_self))
    rw [scanSectors]
    split
    · rename_i s₁ hok
      rw [hok] at hread
      have hrecords : Confined total s₁ _ :=
        scanRecords_confined callback (recordOffsets s₁.fs.bytesPerSector) s₁ context
      split
      · rename_i result s₂ context₂ hstop
        rw [hstop] at hrecords
        exact hread.trans hrecords
      · rename_i s₂ context₂ hgo
        rw [hgo] at hrecords
        have hboth := hread.trans hrecords
        refine hboth.trans (ih s₂ context₂ (g.of_sameVolume hboth.same) ?_ ?_)
        · exact hboth.same.validCluster_eq cluster ▸ hvalid
        · intro i hi
          rw [← hboth.same.sectorsPerCluster_eq]
          exact hindices i (List.mem_cons_of_mem _ hi)
    · rename_i result s₁ _ hfail
      rw [hfail] at hread
      exact hread

theorem scanClusters_confined (callback : DirCallback ω γ) (budget : Nat) (cluster : UInt32)
    (s : FsState ω) (context : γ) (g : Geometry s.fs device total) :
    Confined total s (scanClusters callback budget cluster s context).2.1 := by
  induction budget generalizing cluster s context with
  | zero => exact Confined.refl _ _
  | succ budget ih =>
    rw [scanClusters]
    split_ifs with hvalid
    · exact Confined.refl _ _
    · have hcluster : validCluster s.fs cluster = true := by simpa using hvalid
      have hsectors := scanSectors_confined callback (List.range s.fs.sectorsPerCluster.toNat) s
        context g hcluster (fun index hindex => List.mem_range.mp hindex)
      split
      · rename_i result s₁ context₁ hstop
        rw [hstop] at hsectors
        exact hsectors
      · rename_i s₁ context₁ hgo
        rw [hgo] at hsectors
        have g₁ := g.of_sameVolume hsectors.same
        have hnext := nextCluster_confined g₁ cluster
        split
        · rename_i error s₂ hfail
          rw [hfail] at hnext
          exact hsectors.trans hnext
        · rename_i next s₂ hlink
          rw [hlink] at hnext
          split_ifs
          · exact hsectors.trans hnext
          · exact (hsectors.trans hnext).trans
              (ih next s₂ context₁ (g₁.of_sameVolume hnext.same))

/-- A directory scan is confined, whatever cluster it starts from. -/
theorem scanDirectory_confined (callback : DirCallback ω γ) (first : UInt32)
    (s : FsState ω) (context : γ) (g : Geometry s.fs device total) :
    Confined total s (scanDirectory callback first s context).2.1 := by
  unfold scanDirectory
  split_ifs
  · exact Confined.refl _ _
  · exact scanClusters_confined callback _ first s context g

theorem lookupFrom_confined (path : CString) (position : Nat) (directory : UInt32)
    (s : FsState ω) (g : Geometry s.fs device total) :
    Confined total s (lookupFrom path position directory s).2 := by
  -- every case with a scan ends in the state that scan left, or goes on from it
  have hscan {directory : UInt32} {s s' : FsState ω} {part : List UInt8} {result : Fat32Result}
      {find : FindContext} (g : Geometry s.fs device total)
      (h : scanDirectory findCallback directory s ⟨part, none⟩ = (result, s', find)) :
      Confined total s s' := by
    have := scanDirectory_confined findCallback directory s ⟨part, none⟩ g
    rw [h] at this
    exact this
  fun_induction lookupFrom path position directory s with
  | case1 => exact Confined.refl _ _
  | case2 => exact Confined.refl _ _
  | case3 => exact Confined.refl _ _
  | case4 _ _ _ _ _ _ _ ih => exact ih g
  | case5 _ _ _ _ _ _ _ _ _ h => exact hscan g h
  | case6 _ _ _ _ _ _ _ _ _ h => exact hscan g h
  | case7 _ _ _ _ _ _ _ _ _ h => exact hscan g h
  | case8 _ _ _ _ _ _ _ _ _ h _ _ _ _ _ _ ih =>
    exact (hscan g h).trans (ih (g.of_sameVolume (hscan g h).same))
  | case9 _ _ _ _ _ _ _ _ _ h => exact hscan g h
  | case10 _ _ _ _ _ _ _ _ _ _ _ h => exact hscan g h

/-- Path lookup is confined. -/
theorem lookup_confined (path : CString) (s : FsState ω) (g : Geometry s.fs device total) :
    Confined total s (lookup path s).2 :=
  lookupFrom_confined path 0 s.fs.rootCluster s g

/-- Path lookup leaves the volume as it is. -/
theorem lookup_sameVolume (g : Geometry s.fs device total) {path : CString}
    {found : Except Fat32Result Dirent} {s' : FsState ω} (h : lookup path s = (found, s')) :
    SameVolume s.fs s'.fs := by
  have hsame := (lookup_confined path s g).same
  rwa [h] at hsame

/-- Listing a directory is confined. -/
theorem fat32ListDirectory_confined (path : Option CString)
    (callback : Option (DirCallback ω γ)) (s : FsState ω) (context : γ)
    (g : Geometry s.fs device total) :
    Confined total s (fat32ListDirectory path callback s context).2.1 := by
  unfold fat32ListDirectory
  split
  · exact Confined.refl _ _
  · rename_i callback
    split_ifs
    · exact Confined.refl _ _
    · have hlookup := lookup_confined (path.getD rootPath) s g
      split
      · rename_i result s₁ hfail
        rw [hfail] at hlookup
        exact hlookup
      · rename_i entry s₁ hfound
        rw [hfound] at hlookup
        split_ifs
        · exact hlookup
        · exact hlookup.trans
            (scanDirectory_confined callback _ s₁ context (g.of_sameVolume hlookup.same))

theorem readSectors_confined {cluster : UInt32} (indices : List Nat) (p : Progress ω)
    (g : Geometry p.state.fs device total) (hvalid : validCluster p.state.fs cluster = true)
    (hindices : ∀ index ∈ indices, index < p.state.fs.sectorsPerCluster.toNat) :
    Confined total p.state (readSectors cluster indices p).2.state := by
  induction indices generalizing p with
  | nil => exact Confined.refl _ _
  | cons index indices ih =>
    have hread := readSector_confined
      (g.clusterSector_inVolume hvalid (hindices index List.mem_cons_self))
    rw [readSectors]
    split_ifs
    · exact Confined.refl _ _
    · split
      · rename_i s₁ hok
        rw [hok] at hread
        refine hread.trans (ih ⟨s₁, _, _, _⟩ (g.of_sameVolume hread.same) ?_ ?_)
        · exact hread.same.validCluster_eq cluster ▸ hvalid
        · intro i hi
          simp only
          rw [← hread.same.sectorsPerCluster_eq]
          exact hindices i (List.mem_cons_of_mem _ hi)
      · rename_i result s₁ _ hfail
        rw [hfail] at hread
        exact hread

theorem readClusters_confined (budget : Nat) (cluster : UInt32) (p : Progress ω)
    (g : Geometry p.state.fs device total) (hvalid : validCluster p.state.fs cluster = true) :
    Confined total p.state (readClusters budget cluster p).2.state := by
  induction budget generalizing cluster p with
  | zero => exact Confined.refl _ _
  | succ budget ih =>
    have hsectors := readSectors_confined (List.range p.state.fs.sectorsPerCluster.toNat) p g
      hvalid (fun index hindex => List.mem_range.mp hindex)
    rw [readClusters]
    split_ifs
    · exact Confined.refl _ _
    · split
      · rename_i result p₁ hstop
        rw [hstop] at hsectors
        exact hsectors
      · rename_i p₁ hgo
        rw [hgo] at hsectors
        split_ifs
        · exact hsectors
        · have g₁ := g.of_sameVolume hsectors.same
          have hnext := nextCluster_confined g₁ cluster
          split
          · rename_i result s₂ hfail
            rw [hfail] at hnext
            exact hsectors.trans hnext
          · rename_i next s₂ hlink
            rw [hlink] at hnext
            split_ifs with hend
            · exact hsectors.trans hnext
            · exact (hsectors.trans hnext).trans
                (ih next ⟨s₂, _, _, _⟩ (g₁.of_sameVolume hnext.same)
                  ((nextCluster_valid hlink).resolve_left hend))

/-- Reading a file is confined. -/
theorem fat32ReadFile_confined (path : Option CString) (buffer : Option Buffer)
    (capacity : UInt32) (bytesRead : Option UInt32) (s : FsState ω)
    (g : Geometry s.fs device total) :
    Confined total s (fat32ReadFile path buffer capacity bytesRead s).state := by
  unfold fat32ReadFile
  split
  · exact Confined.refl _ _
  · exact Confined.refl _ _
  · rename_i count path
    split_ifs
    · exact Confined.refl _ _
    · have hlookup := lookup_confined path s g
      split
      · rename_i result s₁ hfail
        rw [hfail] at hlookup
        exact hlookup
      · rename_i entry s₁ hfound
        rw [hfound] at hlookup
        split_ifs with _ _ _ _ hvalid
        · exact hlookup
        · exact hlookup
        · exact hlookup
        · exact hlookup
        · exact hlookup
        · split
          · exact hlookup
          · rename_i bytes
            have hclusters := readClusters_confined s₁.fs.clusterCount.toNat entry.firstCluster
              ⟨s₁, bytes, 0, entry.size⟩ (g.of_sameVolume hlookup.same) (by simpa using hvalid)
            split <;> rename_i hres <;> rw [hres] at hclusters <;>
              exact hlookup.trans hclusters

end Operations

/-! ## Runs -/

/-- One call on the file system object. -/
inductive FsCall (ω : Type) : Type 1
  | mount (device : Option (BlockDevice ω))
  | list {γ : Type} (path : Option CString) (callback : Option (DirCallback ω γ)) (context : γ)
  | read (path : Option CString) (buffer : Option Buffer) (capacity : UInt32)
      (bytesRead : Option UInt32)

namespace FsCall

/-- The result code and the state a call leaves. -/
def exec : FsCall ω → FsState ω → Fat32Result × FsState ω
  | .mount device, s => fat32Mount device s
  | .list path callback context, s =>
    ((fat32ListDirectory path callback s context).1,
      (fat32ListDirectory path callback s context).2.1)
  | .read path buffer capacity bytesRead, s =>
    ((fat32ReadFile path buffer capacity bytesRead s).result,
      (fat32ReadFile path buffer capacity bytesRead s).state)

/-- The calls of `fat32_mount`. -/
def isMount : FsCall ω → Bool
  | .mount _ => true
  | _ => false

/-- The pointers that a listing or a read insists on are not null. -/
def argumentsPresent : FsCall ω → Bool
  | .mount device => device.isSome
  | .list _ callback _ => callback.isSome
  | .read path _ _ bytesRead => path.isSome && bytesRead.isSome

end FsCall

/-- A run so far: the state, the object as the last successful mount left it,
and whether a mount has failed since with anything but `FAT32_EINVAL`. -/
structure FsRun (ω : Type) where
  state : FsState ω
  lastMount : Option (Fat32Fs ω)
  failedSince : Bool

namespace FsRun

/-- Runs start from the zero-initialised object, in any outside world. -/
def start (outside : ω) : FsRun ω := ⟨⟨Fat32Fs.zero, ⟨outside, []⟩⟩, none, false⟩

/-- Perform one call and keep the record of mounts. -/
def step (run : FsRun ω) (call : FsCall ω) : FsRun ω where
  state := (call.exec run.state).2
  lastMount :=
    if call.isMount ∧ (call.exec run.state).1 = .ok then some (call.exec run.state).2.fs
    else run.lastMount
  failedSince :=
    if call.isMount ∧ (call.exec run.state).1 = .ok then false
    else if call.isMount ∧ (call.exec run.state).1 ≠ .einval then true
    else run.failedSince

/-- The run that performs the calls in order. -/
def after (outside : ω) (calls : List (FsCall ω)) : FsRun ω := calls.foldl step (start outside)

/-- What holds between the calls of a run. -/
structure Sound (run : FsRun ω) : Prop where
  mounted_iff : run.state.fs.mounted = true ↔ run.lastMount.isSome ∧ run.failedSince = false
  same : ∀ fs, run.lastMount = some fs → run.failedSince = false →
    SameVolume fs run.state.fs
  geometry : ∀ fs, run.lastMount = some fs →
    ∃ device, Geometry fs device (fat32 fs.sectorBuffer 32).toNat

end FsRun

theorem establishGeometry_fails {device : BlockDevice ω} {volume : VolumeExtent} {s : FsState ω}
    (h : (establishGeometry device volume s).1 ≠ .ok) :
    (establishGeometry device volume s).1 = .ebadfs ∧
      (establishGeometry device volume s).2.fs.mounted = s.fs.mounted := by
  revert h
  unfold establishGeometry
  simp only
  split_ifs <;> intro h
  all_goals first | exact ⟨rfl, rfl⟩ | exact absurd rfl h

/-- A mount fails with `FAT32_EINVAL` before it touches the object, and any
other failure leaves the object unmounted. -/
theorem fat32Mount_fails {device : Option (BlockDevice ω)} {s : FsState ω}
    (h : (fat32Mount device s).1 ≠ .ok) :
    ((fat32Mount device s).1 = .einval ∧ (fat32Mount device s).2 = s) ∨
      ((fat32Mount device s).1 ≠ .einval ∧ (fat32Mount device s).2.fs.mounted = false) := by
  unfold fat32Mount at h ⊢
  cases device with
  | none => exact Or.inl ⟨rfl, rfl⟩
  | some device =>
    simp only at h ⊢
    split_ifs at h ⊢ with hargs hread
    · exact Or.inl ⟨rfl, rfl⟩
    · exact Or.inr ⟨by simp, rfl⟩
    · right
      have hsame := locateVolume_sameVolume device
        (FsState.readInto { s with fs := { s.fs with mounted := false, device := some device } }
          device 0).2
      rcases hlocate : locateVolume device (FsState.readInto
          { s with fs := { s.fs with mounted := false, device := some device } } device 0).2 with
        ⟨_ | volume, s₁⟩ <;> rw [hlocate] at hsame <;> simp only [hlocate] at h ⊢ <;>
        have hmounted := (congrArg Fat32Fs.mounted hsame).symm
      · exact ⟨by simp, hmounted⟩
      · obtain ⟨hbad, hkept⟩ := establishGeometry_fails h
        rw [hbad, hkept]
        exact ⟨by simp, hmounted⟩

/-- Without a mounted volume a listing or a read does nothing at all, and says
so when its pointers are present. -/
theorem FsCall.exec_unmounted {call : FsCall ω} {s : FsState ω} (hcall : call.isMount = false)
    (hunmounted : s.fs.mounted = false) :
    (call.exec s).2 = s ∧ (call.argumentsPresent = true → (call.exec s).1 = .ebadfs) := by
  cases call with
  | mount device => cases hcall
  | list path callback context =>
    cases callback with
    | none => exact ⟨rfl, fun h => by simp [FsCall.argumentsPresent] at h⟩
    | some callback => simp [FsCall.exec, fat32ListDirectory, hunmounted]
  | read path buffer capacity bytesRead =>
    cases bytesRead with
    | none => exact ⟨rfl, fun h => by simp [FsCall.argumentsPresent] at h⟩
    | some count =>
      cases path with
      | none => exact ⟨rfl, fun h => by simp [FsCall.argumentsPresent] at h⟩
      | some path => simp [FsCall.exec, fat32ReadFile, hunmounted]

/-- A listing or a read of a mounted volume is confined. -/
theorem FsCall.exec_confined {call : FsCall ω} {s : FsState ω} {device : BlockDevice ω}
    {total : Nat} (hcall : call.isMount = false) (g : Geometry s.fs device total) :
    Confined total s (call.exec s).2 := by
  cases call with
  | mount device => cases hcall
  | list path callback context => exact fat32ListDirectory_confined path callback s context g
  | read path buffer capacity bytesRead =>
    exact fat32ReadFile_confined path buffer capacity bytesRead s g

namespace FsRun

/-- A sound run that is mounted has the geometry of its last mount. -/
theorem Sound.of_mounted {run : FsRun ω} (h : run.Sound) (hmounted : run.state.fs.mounted = true) :
    ∃ fs device, run.lastMount = some fs ∧ SameVolume fs run.state.fs ∧
      Geometry run.state.fs device (fat32 fs.sectorBuffer 32).toNat := by
  obtain ⟨hsome, hfailed⟩ := h.mounted_iff.mp hmounted
  obtain ⟨fs, hfs⟩ := Option.isSome_iff_exists.mp hsome
  obtain ⟨device, g⟩ := h.geometry fs hfs
  have hsame := h.same fs hfs hfailed
  exact ⟨fs, device, hfs, hsame, g.of_sameVolume hsame⟩

/-- Whatever call comes next, a listing or a read keeps the volume. -/
theorem Sound.exec_same {run : FsRun ω} (h : run.Sound) {call : FsCall ω}
    (hcall : call.isMount = false) : SameVolume run.state.fs (call.exec run.state).2.fs := by
  cases hmounted : run.state.fs.mounted with
  | false =>
    rw [(FsCall.exec_unmounted hcall hmounted).1]
    exact SameVolume.refl _
  | true =>
    obtain ⟨fs, device, -, -, g⟩ := h.of_mounted hmounted
    exact (FsCall.exec_confined hcall g).same

theorem sound_start (outside : ω) : (start outside).Sound where
  mounted_iff := by simp [start, Fat32Fs.zero]
  same := by simp [start]
  geometry := by simp [start]

/-- Each call keeps the record of mounts sound. -/
theorem Sound.step {run : FsRun ω} (h : run.Sound) (call : FsCall ω) : (run.step call).Sound := by
  -- only a mount changes the volume, and leaves the record of the last one that succeeded
  cases hcall : call.isMount with
  | false =>
    have hsame := h.exec_same hcall
    have hmounted : (call.exec run.state).2.fs.mounted = run.state.fs.mounted :=
      (congrArg Fat32Fs.mounted hsame).symm
    refine ⟨?_, ?_, ?_⟩ <;> simp only [FsRun.step, hcall, Bool.false_eq_true, false_and, if_false]
    · rw [hmounted]
      exact h.mounted_iff
    · exact fun fs hfs hfailed => (h.same fs hfs hfailed).trans hsame
    · exact h.geometry
  | true =>
    cases call with
    | list path callback context => cases hcall
    | read path buffer capacity bytesRead => cases hcall
    | mount device =>
      by_cases hok : (fat32Mount device run.state).1 = .ok
      · cases device with
        | none => cases hok
        | some device =>
          obtain ⟨g, -⟩ := fat32Mount_ok (Prod.ext hok rfl :
            fat32Mount (some device) run.state = (.ok, (fat32Mount (some device) run.state).2))
          refine ⟨?_, ?_, ?_⟩ <;>
            simp only [FsRun.step, FsCall.exec, FsCall.isMount, hok, true_and, if_true]
          · simpa using g.mounted
          · intro fs hfs _
            rw [← Option.some.inj hfs]
            exact SameVolume.refl _
          · intro fs hfs
            rw [← Option.some.inj hfs]
            exact ⟨device, g⟩
      · -- refused at once, it leaves the state alone; later on, the volume is unmounted
        rcases fat32Mount_fails hok with ⟨hinval, hstate⟩ | ⟨hinval, hmounted⟩
        · refine ⟨?_, ?_, ?_⟩ <;>
            simp only [FsRun.step, FsCall.exec, FsCall.isMount, hinval, hstate, and_false,
              if_false, ne_eq, not_true]
          · exact h.mounted_iff
          · exact h.same
          · exact h.geometry
        · refine ⟨?_, ?_, ?_⟩ <;>
            simp only [FsRun.step, FsCall.exec, FsCall.isMount, hok, hinval, and_false, if_false,
              ne_eq, not_false_eq_true, and_true, if_true]
          · rw [hmounted]
            simp
          · intro fs _ hfailed
            cases hfailed
          · exact h.geometry

/-- The record of mounts is sound along every run. -/
theorem sound_after (outside : ω) (calls : List (FsCall ω)) : (after outside calls).Sound :=
  List.foldlRecOn calls FsRun.step (sound_start outside) fun _ h call _ => h.step call

end FsRun

/-- What read confinement says about the call that follows a run. -/
structure FsRun.Confines (run : FsRun ω) (call : FsCall ω) : Prop where
  /-- A mounted object carries exactly the fields of the last successful mount. -/
  mounted_volume : run.state.fs.mounted = true →
    ∃ fs, run.lastMount = some fs ∧ SameVolume fs run.state.fs
  /-- A listing or a read changes no field but the sector buffer. -/
  frame : call.isMount = false → SameVolume run.state.fs (call.exec run.state).2.fs
  /-- A mount that fails with anything but `FAT32_EINVAL` unmounts the object. -/
  failed_mount : call.isMount = true → (call.exec run.state).1 ≠ .ok →
    (call.exec run.state).1 ≠ .einval → (call.exec run.state).2.fs.mounted = false
  /-- Only a successful mount mounts the object again. -/
  remount : run.state.fs.mounted = false → (call.exec run.state).2.fs.mounted = true →
    call.isMount = true ∧ (call.exec run.state).1 = .ok
  /-- Until then listings and reads leave everything alone, the request log
  included, and report a bad file system when their pointers are present. -/
  unmounted : run.state.fs.mounted = false → call.isMount = false →
    (call.exec run.state).2 = run.state ∧
      (call.argumentsPresent = true → (call.exec run.state).1 = .ebadfs)
  /-- Every sector a listing or a read requests lies in the mounted volume, in
  its first table or in its data area. -/
  requests : call.isMount = false →
    ∃ new, (call.exec run.state).2.bus.requests = run.state.bus.requests ++ new ∧
      ∀ request ∈ new, ∃ fs, run.lastMount = some fs ∧
        fs.volumeStart.toNat ≤ request.sector.toNat ∧
        request.sector.toNat < fs.volumeStart.toNat + (fat32 fs.sectorBuffer 32).toNat ∧
        InVolume fs (fat32 fs.sectorBuffer 32).toNat request.sector

/-- Read confinement over whole runs from the zero-initialised object: after any
sequence of calls with any devices, callbacks and paths, the next call is
confined, whatever it is. The calls are total functions, so each one terminates. -/
theorem fsRun_confines (outside : ω) (calls : List (FsCall ω)) (call : FsCall ω) :
    (FsRun.after outside calls).Confines call := by
  have hsound := FsRun.sound_after outside calls
  generalize FsRun.after outside calls = run at hsound
  refine ⟨?_, fun hcall => hsound.exec_same hcall, ?_, ?_,
    fun hunmounted hcall => FsCall.exec_unmounted hcall hunmounted, ?_⟩
  · intro hmounted
    obtain ⟨fs, device, hfs, hsame, -⟩ := hsound.of_mounted hmounted
    exact ⟨fs, hfs, hsame⟩
  · intro hcall hok hinval
    cases call with
    | mount device => exact ((fat32Mount_fails hok).resolve_left fun h => hinval h.1).2
    | list path callback context => cases hcall
    | read path buffer capacity bytesRead => cases hcall
  · intro hunmounted hmounted
    cases hcall : call.isMount with
    | false =>
      rw [(FsCall.exec_unmounted hcall hunmounted).1, hunmounted] at hmounted
      cases hmounted
    | true =>
      refine ⟨rfl, by_contra fun hok => ?_⟩
      cases call with
      | mount device =>
        rcases fat32Mount_fails hok with ⟨-, hstate⟩ | ⟨-, hfailed⟩
        · rw [FsCall.exec, hstate, hunmounted] at hmounted
          cases hmounted
        · rw [FsCall.exec, hfailed] at hmounted
          cases hmounted
      | list path callback context => cases hcall
      | read path buffer capacity bytesRead => cases hcall
  · intro hcall
    -- without a volume there are no requests
    cases hmounted : run.state.fs.mounted with
    | false =>
      rw [(FsCall.exec_unmounted hcall hmounted).1]
      exact ⟨[], (List.append_nil _).symm, by simp⟩
    | true =>
      obtain ⟨fs, device, hfs, hsame, g⟩ := hsound.of_mounted hmounted
      obtain ⟨-, new, hnew, hin⟩ := FsCall.exec_confined hcall g
      refine ⟨new, hnew, fun request hrequest => ?_⟩
      have hvolume := (hin request hrequest).of_sameVolume hsame
      have g' := g.of_sameVolume hsame.symm
      have hfat := g'.fat_le
      have hdata := g'.data_le
      refine ⟨fs, hfs, ?_, ?_, hvolume⟩ <;> rcases hvolume with hfirst | hsecond <;> omega

end LevOS.Filesystem
