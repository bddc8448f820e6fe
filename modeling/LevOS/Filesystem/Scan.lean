import LevOS.Filesystem.Chain
import LevOS.Filesystem.Directory

/-!
# What a directory scan sees

`scan_directory` visits the records of the directory's cluster chain in order, up
to the first record that marks the end. The callback sees the decoded records; the
scan's own status only matters when neither the end record nor the callback stops
it. What the records are and how they run out does not depend on the callback: a
survey of the chain says it, on a disk of which some sectors may be unreadable.

## Main definitions

* `Readable`, a device that answers every read inside its size
* `Faulty`, a device that fails exactly the reads of certain sectors
* `directoryRecords`, `directoryStatus`, the records of a directory and the
  status of a scan that runs out of them
* `visitRecords`, the record loop on a list of records
* `Visits`, the same for a callback of which only a relation is known
* `surveyClusters`, the records that a scan can come to and how they run out

## Main results

* `scanClusters_surveys`: a scan visits the surveyed records
* `scanDirectory_visits`, `scanDirectory_eq`: on a readable disk it visits the
  directory's records
* `visitRecords_find`: the lookup callback finds the first entry of its name
-/

namespace LevOS.Filesystem

open LevOS.Drivers

variable {ω γ : Type}

/-- A device with fixed contents that fails no read of a sector it has. -/
structure Readable (device : BlockDevice ω) (contents : Contents) : Prop where
  answers : Answers device contents
  succeeds : ∀ (sector : UInt32) (buffer : Buffer) (bus : Bus ω),
    (device.sectorCount ≠ 0 → sector < device.sectorCount) →
      (blockReadSector device sector buffer bus).1 = 0

/-- A device with fixed contents that fails the reads of certain sectors, and no
other read of a sector it has. -/
structure Faulty (device : BlockDevice ω) (contents : Contents) (unreadable : UInt32 → Bool) :
    Prop where
  answers : Answers device contents
  present : device.readSector.isSome
  status_iff : ∀ (sector : UInt32) (buffer : Buffer) (bus : Bus ω),
    (device.sectorCount ≠ 0 → sector < device.sectorCount) →
      ((blockReadSector device sector buffer bus).1 = 0 ↔ unreadable sector = false)

theorem Readable.faulty {device : BlockDevice ω} {contents : Contents}
    (h : Readable device contents) (bus : Bus ω) : Faulty device contents fun _ => false where
  answers := h.answers
  present := by
    have hread := h.succeeds 0 (fun _ => 0) bus
      fun hknown => UInt32.lt_iff_toNat_lt.mpr (Nat.pos_of_ne_zero fun hzero =>
        hknown (UInt32.toNat_inj.mp hzero))
    cases hcallback : device.readSector with
    | none => simp [blockReadSector, hcallback] at hread
    | some _ => rfl
  status_iff sector buffer bus hinside := iff_of_true (h.succeeds sector buffer bus hinside) rfl

/-- A device of fixed contents with the given unreadable sectors. -/
def faultyDevice (sectorSize sectorCount : UInt32) (contents : Contents)
    (unreadable : UInt32 → Bool) : BlockDevice Unit where
  sectorSize := sectorSize
  sectorCount := sectorCount
  readSector := some fun sector buffer outside =>
    if unreadable sector then (1, buffer, outside) else (0, contents sector, outside)

theorem faultyDevice_faulty {sectorSize : UInt32} (hsize : sectorSize ≠ 0) (sectorCount : UInt32)
    (contents : Contents) (unreadable : UInt32 → Bool) :
    Faulty (faultyDevice sectorSize sectorCount contents unreadable) contents unreadable where
  answers := by
    intro sector buffer bus hread i _
    unfold blockReadSector faultyDevice at hread ⊢
    simp only [if_neg hsize] at hread ⊢
    split_ifs at hread ⊢
    · simp at hread
    · simp at hread
    · rfl
  present := rfl
  status_iff := by
    intro sector buffer bus hinside
    have hpast : ¬ (sectorCount ≠ 0 ∧ sectorCount ≤ sector) := by
      rintro ⟨hknown, hle⟩
      exact UInt32.not_lt.mpr hle (hinside hknown)
    unfold blockReadSector faultyDevice
    simp only [if_neg hsize, if_neg hpast]
    cases unreadable sector <;> simp

/-- Without unreadable sectors the device can be read throughout. -/
theorem faultyDevice_readable {sectorSize : UInt32} (hsize : sectorSize ≠ 0) (sectorCount : UInt32)
    (contents : Contents) :
    Readable (faultyDevice sectorSize sectorCount contents fun _ => false) contents where
  answers := (faultyDevice_faulty hsize sectorCount contents _).answers
  succeeds sector buffer bus hinside :=
    ((faultyDevice_faulty hsize sectorCount contents _).status_iff sector buffer bus hinside).mpr rfl

/-- The sample disk can be read throughout. -/
theorem sampleDevice_readable : Readable sampleDevice sampleDisk :=
  faultyDevice_readable (by decide) 13 sampleDisk

/-! ## Records -/

/-- The records of one sector of a cluster. -/
def sectorRecords (fs : Fat32Fs ω) (contents : Contents) (cluster : UInt32) (index : Nat) :
    List Buffer :=
  (recordOffsets fs.bytesPerSector).map fun offset i =>
    contents (dataSector fs cluster index) (offset + i)

/-- The records of a cluster, in order. -/
def clusterRecords (fs : Fat32Fs ω) (contents : Contents) (cluster : UInt32) : List Buffer :=
  (List.range fs.sectorsPerCluster.toNat).flatMap (sectorRecords fs contents cluster)

/-- The clusters of a directory and how its chain ends: at an end marker, at an
entry that leads nowhere, or not within the given number of clusters. -/
def directoryChain (fs : Fat32Fs ω) (contents : Contents) :
    Nat → UInt32 → List UInt32 × Fat32Result
  | 0, _ => ([], .eloop)
  | budget + 1, cluster =>
    if 0x0FFFFFF8 ≤ fatValue fs contents cluster then ([cluster], .ok)
    else
      match link fs contents cluster with
      | none => ([cluster], .ebadfs)
      | some next =>
        (cluster :: (directoryChain fs contents budget next).1,
          (directoryChain fs contents budget next).2)

theorem sectorRecords_of_sameVolume {fs fs' : Fat32Fs ω} (h : SameVolume fs fs')
    (contents : Contents) : sectorRecords fs' contents = sectorRecords fs contents := by
  unfold SameVolume at h
  rw [← h]
  rfl

theorem clusterRecords_of_sameVolume {fs fs' : Fat32Fs ω} (h : SameVolume fs fs')
    (contents : Contents) : clusterRecords fs' contents = clusterRecords fs contents := by
  unfold SameVolume at h
  rw [← h]
  rfl

theorem directoryChain_of_sameVolume {fs fs' : Fat32Fs ω} (h : SameVolume fs fs')
    (contents : Contents) (budget : Nat) (cluster : UInt32) :
    directoryChain fs' contents budget cluster = directoryChain fs contents budget cluster := by
  induction budget generalizing cluster with
  | zero => rfl
  | succ budget ih =>
    rw [directoryChain, directoryChain, fatValue_of_sameVolume h, link_of_sameVolume h]
    simp only [ih]

/-- All records of a directory. -/
def directoryRecords (fs : Fat32Fs ω) (contents : Contents) (first : UInt32) : List Buffer :=
  (directoryChain fs contents fs.clusterCount.toNat first).1.flatMap (clusterRecords fs contents)

/-- The status of a scan that nothing stops before the records run out. -/
def directoryStatus (fs : Fat32Fs ω) (contents : Contents) (first : UInt32) : Fat32Result :=
  (directoryChain fs contents fs.clusterCount.toNat first).2

theorem directoryRecords_of_sameVolume {fs fs' : Fat32Fs ω} (h : SameVolume fs fs')
    (contents : Contents) (first : UInt32) :
    directoryRecords fs' contents first = directoryRecords fs contents first := by
  rw [directoryRecords, directoryChain_of_sameVolume h, clusterRecords_of_sameVolume h,
    ← h.clusterCount_eq, directoryRecords]

theorem directoryStatus_of_sameVolume {fs fs' : Fat32Fs ω} (h : SameVolume fs fs')
    (contents : Contents) (first : UInt32) :
    directoryStatus fs' contents first = directoryStatus fs contents first := by
  rw [directoryStatus, directoryChain_of_sameVolume h, ← h.clusterCount_eq, directoryStatus]

/-- The entries in a list of records: what can be decoded before the end record. -/
def entries (records : List Buffer) : List Dirent :=
  (records.takeWhile fun raw => raw 0 != 0).filterMap entryFromRaw

/-- A callback that leaves the outside world alone. -/
def quiet (f : Dirent → γ → Int × γ) : DirCallback ω γ := fun entry context outside =>
  ((f entry context).1, (f entry context).2, outside)

/-- `find_callback` as a function of the entry and the context. -/
def findEntry (entry : Dirent) (find : FindContext) : Int × FindContext :=
  if namesEqual entry.name find.target then (1, { find with found := some entry }) else (0, find)

theorem findCallback_eq : (findCallback : DirCallback ω FindContext) = quiet findEntry := by
  funext entry find outside
  unfold findCallback quiet findEntry
  split_ifs <;> rfl

/-- The record loop on a list of records: whether it stops the scan, and the
callback's context. -/
def visitRecords (f : Dirent → γ → Int × γ) : List Buffer → γ → Bool × γ
  | [], context => (false, context)
  | raw :: records, context =>
    if raw 0 = 0 then (true, context)
    else
      match entryFromRaw raw with
      | none => visitRecords f records context
      | some entry =>
        if (f entry context).1 ≠ 0 then (true, (f entry context).2)
        else visitRecords f records (f entry context).2

/-- The record loop on a list of records, with a relation in place of the callback
between an entry, the context before, what is returned and the context after. -/
inductive Visits (R : Dirent → γ → Int → γ → Prop) : List Buffer → γ → Bool → γ → Prop
  | nil (context : γ) : Visits R [] context false context
  | terminator {raw : Buffer} (records : List Buffer) (context : γ) : raw 0 = 0 →
      Visits R (raw :: records) context true context
  | skip {raw : Buffer} {records : List Buffer} {context context' : γ} {stop : Bool} : raw 0 ≠ 0 →
      entryFromRaw raw = none → Visits R records context stop context' →
      Visits R (raw :: records) context stop context'
  | stop {raw : Buffer} (records : List Buffer) {entry : Dirent} {context context' : γ}
      {status : Int} : raw 0 ≠ 0 → entryFromRaw raw = some entry →
      R entry context status context' → status ≠ 0 → Visits R (raw :: records) context true context'
  | deliver {raw : Buffer} {records : List Buffer} {entry : Dirent} {context context' context'' : γ}
      {stop : Bool} : raw 0 ≠ 0 → entryFromRaw raw = some entry → R entry context 0 context' →
      Visits R records context' stop context'' → Visits R (raw :: records) context stop context''

/-- A visit that stops leaves the records behind it alone. -/
theorem Visits.append_left {R : Dirent → γ → Int → γ → Prop} {first : List Buffer}
    {context context' : γ} (h : Visits R first context true context') (second : List Buffer) :
    Visits R (first ++ second) context true context' := by
  generalize hstop : true = stop at h
  induction h with
  | nil => cases hstop
  | terminator records context hend => exact .terminator _ context hend
  | skip hend hnone _ ih => exact .skip hend hnone (ih hstop)
  | stop records hend hentry hR hstatus => exact .stop _ hend hentry hR hstatus
  | deliver hend hentry hR _ ih => exact .deliver hend hentry hR (ih hstop)

/-- A visit that does not stop goes on with the records behind it. -/
theorem Visits.append {R : Dirent → γ → Int → γ → Prop} {first second : List Buffer} {stop : Bool}
    {context context' context'' : γ} (h : Visits R first context false context')
    (hrest : Visits R second context' stop context'') :
    Visits R (first ++ second) context stop context'' := by
  generalize hgo : false = went at h
  induction h with
  | nil => exact hrest
  | terminator => cases hgo
  | skip hend hnone _ ih => exact .skip hend hnone (ih hrest hgo)
  | stop => cases hgo
  | deliver hend hentry hR _ ih => exact .deliver hend hentry hR (ih hrest hgo)

/-- For a callback that is a function of the entry and the context the visit is one. -/
theorem Visits.eq_visitRecords {f : Dirent → γ → Int × γ} {records : List Buffer}
    {context context' : γ} {stop : Bool}
    (h : Visits (fun entry context status context' => f entry context = (status, context'))
      records context stop context') : visitRecords f records context = (stop, context') := by
  induction h with
  | nil => rfl
  | terminator records context hend => rw [visitRecords, if_pos hend]
  | skip hend hnone _ ih => rw [visitRecords, if_neg hend, hnone, ih]
  | stop records hend hentry hR hstatus =>
    simp only [visitRecords, if_neg hend, hentry, hR]
    rw [if_pos hstatus]
  | deliver hend hentry hR _ ih =>
    simp only [visitRecords, if_neg hend, hentry, hR]
    rw [if_neg (not_not.mpr rfl), ih]

theorem entries_cons {raw : Buffer} (h : raw 0 ≠ 0) (records : List Buffer) :
    entries (raw :: records) = (entryFromRaw raw).toList ++ entries records := by
  simp only [entries, List.takeWhile_cons, bne_iff_ne, ne_eq, h, not_false_eq_true, if_true,
    List.filterMap_cons]
  cases entryFromRaw raw <;> rfl

/-- The lookup callback finds the first entry of its name. -/
theorem visitRecords_find (target : List UInt8) (records : List Buffer) :
    visitRecords findEntry records ⟨target, none⟩ =
      match (entries records).find? (namesEqual ·.name target) with
      | some entry => (true, ⟨target, some entry⟩)
      | none => (records.any (· 0 == 0), ⟨target, none⟩) := by
  induction records with
  | nil => rfl
  | cons raw records ih =>
    rw [visitRecords]
    by_cases hend : raw 0 = 0
    · simp [hend, entries]
    · rw [if_neg hend, entries_cons hend, List.any_cons, beq_false_of_ne hend, Bool.false_or]
      cases entryFromRaw raw with
      | none => exact ih
      | some entry =>
        by_cases hname : namesEqual entry.name target = true
        · simp [findEntry, hname]
        · simpa [findEntry, hname] using ih

/-! ## Records of equal bytes -/

theorem trimEnd_congr {p q : Buffer} {low : Nat} {e : Nat} (h : ∀ i < e, p i = q i) :
    trimEnd p low e = trimEnd q low e := by
  induction e with
  | zero => rfl
  | succ e ih => rw [trimEnd, trimEnd, h e (by omega), ih fun i hi => h i (by omega)]

theorem trimEnd_le (p : Buffer) (low e : Nat) : trimEnd p low e ≤ e := by
  induction e with
  | zero => exact le_rfl
  | succ e ih =>
    rw [trimEnd]
    split_ifs <;> omega

/-- Decoding looks at the 32 bytes of the record only. -/
theorem entryFromRaw_congr {p q : Buffer} (h : ∀ i < 32, p i = q i) :
    entryFromRaw p = entryFromRaw q := by
  have hbase : trimEnd p 0 8 = trimEnd q 0 8 := trimEnd_congr fun i hi => h i (by omega)
  have hext : trimEnd p 8 11 = trimEnd q 8 11 := trimEnd_congr fun i hi => h i (by omega)
  have hbaseLe := trimEnd_le q 0 8
  have hextLe := trimEnd_le q 8 11
  have hname : (List.range (trimEnd q 0 8)).map p = (List.range (trimEnd q 0 8)).map q := by
    apply List.map_congr_left
    intro i hi
    exact h i (by have := List.mem_range.mp hi; omega)
  have hextension : (List.range' 8 (trimEnd q 8 11 - 8)).map p =
      (List.range' 8 (trimEnd q 8 11 - 8)).map q := by
    apply List.map_congr_left
    intro i hi
    exact h i (by have := List.mem_range'_1.mp hi; omega)
  have hword (offset : Nat) (hoffset : offset + 4 ≤ 32) : fat32 p offset = fat32 q offset :=
    fat32_congr fun i hi => h _ (by omega)
  have hhalf (offset : Nat) (hoffset : offset + 2 ≤ 32) : fat16 p offset = fat16 q offset := by
    unfold fat16
    rw [h offset (by omega), h (offset + 1) (by omega)]
  unfold entryFromRaw
  simp only [hbase, hext, hname, hextension, hword 28 (by decide), hhalf 20 (by decide),
    hhalf 26 (by decide), h 0 (by decide), h 11 (by decide)]

/-! ## The survey of a chain -/

/-- How the records of a chain run out: at the end of the chain, with a status, at a
data sector that cannot be read, or at the table sector of a link. -/
inductive Ending
  | status (result : Fat32Result)
  | dataFault
  | linkFault
  deriving DecidableEq, Repr

/-- What a scan returns that comes to the end of its records. -/
def Ending.result : Ending → Fat32Result
  | .status result => result
  | .dataFault => .eio
  | .linkFault => .ebadfs

/-- The records run out at a sector that cannot be read. -/
def Ending.isFault : Ending → Bool
  | .status _ => false
  | .dataFault => true
  | .linkFault => true

/-- The records in a cluster up to its first unreadable sector, and whether there is
such a sector. -/
def surveySectors (unreadable : UInt32 → Bool) (fs : Fat32Fs ω) (contents : Contents)
    (cluster : UInt32) : List Nat → List Buffer × Bool
  | [] => ([], false)
  | index :: indices =>
    if unreadable (dataSector fs cluster index) then ([], true)
    else
      (sectorRecords fs contents cluster index ++
          (surveySectors unreadable fs contents cluster indices).1,
        (surveySectors unreadable fs contents cluster indices).2)

/-- The records in a chain of at most the given number of clusters, and how they run
out. -/
def surveyClusters (unreadable : UInt32 → Bool) (fs : Fat32Fs ω) (contents : Contents) :
    Nat → UInt32 → List Buffer × Ending
  | 0, _ => ([], .status .eloop)
  | budget + 1, cluster =>
    match surveySectors unreadable fs contents cluster (List.range fs.sectorsPerCluster.toNat) with
    | (records, true) => (records, .dataFault)
    | (records, false) =>
      if unreadable (fatSector fs cluster) then (records, .linkFault)
      else if 0x0FFFFFF8 ≤ fatValue fs contents cluster then (records, .status .ok)
      else
        match link fs contents cluster with
        | none => (records, .status .ebadfs)
        | some next =>
          (records ++ (surveyClusters unreadable fs contents budget next).1,
            (surveyClusters unreadable fs contents budget next).2)

theorem surveySectors_of_sameVolume {fs fs' : Fat32Fs ω} (h : SameVolume fs fs')
    (unreadable : UInt32 → Bool) (contents : Contents) :
    surveySectors unreadable fs' contents = surveySectors unreadable fs contents := by
  funext cluster indices
  induction indices with
  | nil => rfl
  | cons index indices ih =>
    rw [surveySectors, surveySectors, dataSector_of_sameVolume h, sectorRecords_of_sameVolume h, ih]

theorem surveyClusters_of_sameVolume {fs fs' : Fat32Fs ω} (h : SameVolume fs fs')
    (unreadable : UInt32 → Bool) (contents : Contents) (budget : Nat) (cluster : UInt32) :
    surveyClusters unreadable fs' contents budget cluster =
      surveyClusters unreadable fs contents budget cluster := by
  induction budget generalizing cluster with
  | zero => rfl
  | succ budget ih =>
    rw [surveyClusters, surveyClusters, surveySectors_of_sameVolume h, fatSector_of_sameVolume h,
      fatValue_of_sameVolume h, link_of_sameVolume h, h.sectorsPerCluster_eq]
    simp only [ih]

theorem surveySectors_readable (fs : Fat32Fs ω) (contents : Contents) (cluster : UInt32)
    (indices : List Nat) :
    surveySectors (fun _ => false) fs contents cluster indices =
      (indices.flatMap (sectorRecords fs contents cluster), false) := by
  induction indices with
  | nil => rfl
  | cons index indices ih =>
    rw [surveySectors, ih, if_neg Bool.false_ne_true]
    rfl

/-- On a readable disk the survey gives the records of the directory. -/
theorem surveyClusters_readable (fs : Fat32Fs ω) (contents : Contents) (budget : Nat)
    (cluster : UInt32) :
    surveyClusters (fun _ => false) fs contents budget cluster =
      ((directoryChain fs contents budget cluster).1.flatMap (clusterRecords fs contents),
        .status (directoryChain fs contents budget cluster).2) := by
  induction budget generalizing cluster with
  | zero => rfl
  | succ budget ih =>
    rw [surveyClusters, surveySectors_readable, directoryChain]
    simp only [Bool.false_eq_true, if_false]
    split_ifs
    · simp [clusterRecords]
    · cases link fs contents cluster with
      | none => simp [clusterRecords]
      | some next => simp [ih, clusterRecords]

/-! ## The three loops -/

/-- The requests between two states of the system, and whether one of them failed. -/
def Reads (s s' : FsState ω) (failed : Prop) : Prop :=
  ∃ new, s'.bus.requests = s.bus.requests ++ new ∧ (failed ↔ ∃ request ∈ new, request.status ≠ 0)

theorem Reads.refl (s : FsState ω) : Reads s s False := ⟨[], by simp, by simp⟩

theorem Reads.trans {s s' s'' : FsState ω} {failed failed' : Prop} (h : Reads s s' failed)
    (h' : Reads s' s'' failed') : Reads s s'' (failed ∨ failed') := by
  obtain ⟨new, hnew, hfailed⟩ := h
  obtain ⟨new', hnew', hfailed'⟩ := h'
  refine ⟨new ++ new', by rw [hnew', hnew, List.append_assoc], ?_⟩
  simp only [List.mem_append, or_and_right, exists_or, hfailed, hfailed']

theorem Reads.congr {s s' : FsState ω} {failed failed' : Prop} (h : Reads s s' failed)
    (hiff : failed' ↔ failed) : Reads s s' failed' := by
  obtain ⟨new, hnew, hfailed⟩ := h
  exact ⟨new, hnew, hiff.trans hfailed⟩

/-- What is known of a callback, whatever the outside world. -/
def Obeys (callback : DirCallback ω γ) (R : Dirent → γ → Int → γ → Prop) : Prop :=
  ∀ entry context outside,
    R entry context (callback entry context outside).1 (callback entry context outside).2.1

section Loops

variable {device : BlockDevice ω} {total : Nat} {contents : Contents} {s : FsState ω}

/-- Inside the volume a read fails just in case the sector is unreadable. -/
theorem Faulty.readInto {unreadable : UInt32 → Bool} (hfaulty : Faulty device contents unreadable)
    (g : Geometry s.fs device total) {sector : UInt32} (hsector : sector.toNat < total) :
    ((s.readInto device (s.fs.volumeStart + sector)).1 = 0 ↔
        unreadable (s.fs.volumeStart + sector) = false) ∧
      Reads s (s.readInto device (s.fs.volumeStart + sector)).2
        (unreadable (s.fs.volumeStart + sector) = true) := by
  have hinside : device.sectorCount ≠ 0 → s.fs.volumeStart + sector < device.sectorCount := by
    intro hknown
    have hfits := g.fits hknown
    have htotal := g.total_lt
    rw [UInt32.lt_iff_toNat_lt, UInt32.toNat_add, Nat.mod_eq_of_lt (by omega)]
    omega
  have hstatus := hfaulty.status_iff _ s.fs.sectorBuffer s.bus hinside
  refine ⟨hstatus, ⟨[⟨s.fs.volumeStart + sector, (s.readInto device (s.fs.volumeStart + sector)).1⟩],
    ?_, ?_⟩⟩
  · obtain ⟨read, hread⟩ := Option.isSome_iff_exists.mp hfaulty.present
    unfold FsState.readInto
    rw [g.blockReadSector_eq hsector hread]
  · simp only [List.mem_singleton, exists_eq_left]
    change _ ↔ ¬ (blockReadSector device _ s.fs.sectorBuffer s.bus).1 = 0
    rw [hstatus, Bool.not_eq_false]

/-- Inside the volume a readable device fails no read. -/
theorem Readable.readInto (hreadable : Readable device contents) (g : Geometry s.fs device total)
    {sector : UInt32} (hsector : sector.toNat < total) :
    (s.readInto device (s.fs.volumeStart + sector)).1 = 0 :=
  ((hreadable.faulty s.bus).readInto g hsector).1.mpr rfl

/-- A sequence of sectors of the volume is read to its end just in case none is unreadable. -/
theorem Faulty.readAll_eq_none_iff {unreadable : UInt32 → Bool}
    (hfaulty : Faulty device contents unreadable) (sectors : List UInt32) (s : FsState ω)
    (g : Geometry s.fs device total)
    (hinside : ∀ sector ∈ sectors, ∃ inside : UInt32, inside.toNat < total ∧
      sector = s.fs.volumeStart + inside) :
    readAll device sectors s = none ↔ sectors.any unreadable = true := by
  induction sectors generalizing s with
  | nil => simp [readAll]
  | cons sector sectors ih =>
    obtain ⟨inside, hlt, rfl⟩ := hinside _ List.mem_cons_self
    have hread := (hfaulty.readInto g hlt).1
    have hsame : SameVolume s.fs (s.readInto device (s.fs.volumeStart + inside)).2.fs :=
      readInto_sameVolume _ _ _
    have hrest := ih (s.readInto device (s.fs.volumeStart + inside)).2 (g.of_sameVolume hsame)
      fun sector hmem => hinside sector (List.mem_cons_of_mem _ hmem)
    rw [readAll, List.any_cons]
    split_ifs with hok
    · rw [hrest, hread.mp hok, Bool.false_or]
    · have hbad : unreadable (s.fs.volumeStart + inside) = true := by
        rw [← Bool.not_eq_false, ← hread]
        exact hok
      simp [hbad]

/-- The link of a cluster is read from its table sector. -/
theorem Faulty.nextCluster_eq {unreadable : UInt32 → Bool}
    (hfaulty : Faulty device contents unreadable) (g : Geometry s.fs device total)
    {cluster : UInt32} (hvalid : validCluster s.fs cluster = true) :
    ∃ s', SameVolume s.fs s'.fs ∧ nextCluster s cluster =
      (if unreadable (fatSector s.fs cluster) = true then .error .eio
        else if 0x0FFFFFF8 ≤ fatValue s.fs contents cluster then .ok endMarker
        else match link s.fs contents cluster with
          | some next => .ok next
          | none => .error .ebadfs, s') := by
  have htable : (s.readInto device (fatSector s.fs cluster)).1 = 0 ↔
      unreadable (fatSector s.fs cluster) = false :=
    (hfaulty.readInto g (g.fatSector_lt hvalid)).1
  refine ⟨(s.readInto device (fatSector s.fs cluster)).2, readInto_sameVolume _ _ _, ?_⟩
  rw [g.nextCluster_eq hfaulty.answers hvalid, Prod.mk.injEq]
  refine ⟨?_, rfl⟩
  cases hbad : unreadable (fatSector s.fs cluster) with
  | true => exact if_pos (by simp [htable, hbad])
  | false => exact if_neg (not_not.mpr (htable.mpr hbad))

theorem mem_recordOffsets {bytes : UInt32} {offset : Nat} (h : offset ∈ recordOffsets bytes) :
    offset + 32 ≤ bytes.toNat := by
  obtain ⟨index, hindex, rfl⟩ := List.mem_map.mp h
  have := List.mem_range.mp hindex
  omega

variable {callback : DirCallback ω γ} {R : Dirent → γ → Int → γ → Prop}

/-- The record loop visits the records in the buffer. -/
theorem scanRecords_visits (hcallback : Obeys callback R) {sector : Buffer} {bytes : Nat}
    {offsets : List Nat} (hoffsets : ∀ offset ∈ offsets, offset + 32 ≤ bytes) (s : FsState ω)
    (hbuffer : ∀ i < bytes, s.fs.sectorBuffer i = sector i) (context : γ) :
    ∃ stop outside' context',
      Visits R (offsets.map fun offset i => sector (offset + i)) context stop context' ∧
        scanRecords callback offsets s context =
          (if stop then some .ok else none, ⟨s.fs, { s.bus with outside := outside' }⟩, context') := by
  induction offsets generalizing s context with
  | nil => exact ⟨false, s.bus.outside, context, .nil context, rfl⟩
  | cons offset offsets ih =>
    have hbound := hoffsets offset List.mem_cons_self
    have ih := ih fun o ho => hoffsets o (List.mem_cons_of_mem _ ho)
    have hfirst : s.fs.sectorBuffer (offset + 0) = sector (offset + 0) := hbuffer _ (by omega)
    have hraw : entryFromRaw (fun i => s.fs.sectorBuffer (offset + i)) =
        entryFromRaw fun i => sector (offset + i) :=
      entryFromRaw_congr fun i hi => hbuffer _ (by omega)
    rw [scanRecords, List.map_cons]
    simp only [hfirst, hraw]
    by_cases hend : sector (offset + 0) = 0
    · rw [if_pos hend]
      exact ⟨true, s.bus.outside, context, .terminator _ context hend, rfl⟩
    · rw [if_neg hend]
      -- a record that is no entry is skipped
      cases hentry : entryFromRaw fun i => sector (offset + i) with
      | none =>
        obtain ⟨stop, outside', context', hvisits, hrun⟩ := ih s hbuffer context
        exact ⟨stop, outside', context', .skip hend hentry hvisits, hrun⟩
      | some entry =>
        have hR := hcallback entry context s.bus.outside
        simp only
        generalize callback entry context s.bus.outside = answer at hR
        obtain ⟨status, context₁, outside₁⟩ := answer
        -- the callback has seen it, and may stop the scan
        by_cases hstop : status = 0
        · rw [if_neg (not_not.mpr hstop)]
          obtain ⟨stop, outside', context', hvisits, hrun⟩ :=
            ih ⟨s.fs, { s.bus with outside := outside₁ }⟩ hbuffer context₁
          exact ⟨stop, outside', context', .deliver hend hentry (hstop ▸ hR) hvisits, hrun⟩
        · rw [if_pos hstop]
          exact ⟨true, outside₁, context₁, .stop _ hend hentry hR hstop, rfl⟩

variable {unreadable : UInt32 → Bool}

/-- The sector loop visits the records of its sectors up to the first unreadable one. -/
theorem scanSectors_surveys (hfaulty : Faulty device contents unreadable)
    (hcallback : Obeys callback R) {cluster : UInt32} (indices : List Nat) (s : FsState ω)
    (g : Geometry s.fs device total) (hvalid : validCluster s.fs cluster = true)
    (hindices : ∀ index ∈ indices, index < s.fs.sectorsPerCluster.toNat) (context : γ) :
    let survey := surveySectors unreadable s.fs contents cluster indices
    ∃ stop s' context', SameVolume s.fs s'.fs ∧ Visits R survey.1 context stop context' ∧
      Reads s s' (stop = false ∧ survey.2 = true) ∧
      scanSectors callback cluster indices s context =
        (if stop then some .ok else if survey.2 then some .eio else none, s', context') := by
  induction indices generalizing s context with
  | nil =>
    exact ⟨false, s, context, .refl _, .nil context,
      (Reads.refl s).congr (by simp [surveySectors]), rfl⟩
  | cons index indices ih =>
    intro survey
    have hindex := hindices index List.mem_cons_self
    have hsector := g.clusterSector_lt hvalid hindex
    obtain ⟨hstatus, hreads⟩ := hfaulty.readInto g hsector
    rw [← dataSector] at hstatus hreads
    have hsame : SameVolume s.fs (s.readInto device (dataSector s.fs cluster index)).2.fs :=
      readInto_sameVolume _ _ _
    rw [scanSectors, g.readSector_eq hsector, ← dataSector]
    -- an unreadable sector ends the loop
    by_cases hbad : unreadable (dataSector s.fs cluster index) = true
    · have hsurvey : survey = ([], true) := by
        change surveySectors unreadable s.fs contents cluster (index :: indices) = _
        rw [surveySectors, if_pos hbad]
      rw [if_neg (by rw [hstatus, hbad]; simp), hsurvey]
      exact ⟨false, _, context, hsame, .nil context, hreads.congr (by simp [hbad]), rfl⟩
    · have hgood := Bool.eq_false_iff.mpr hbad
      have hread := hstatus.mpr hgood
      have hsurvey : survey = (sectorRecords s.fs contents cluster index ++
          (surveySectors unreadable s.fs contents cluster indices).1,
          (surveySectors unreadable s.fs contents cluster indices).2) := by
        change surveySectors unreadable s.fs contents cluster (index :: indices) = _
        rw [surveySectors, if_neg hbad]
      -- a readable one is visited, and unless the callback stops there the rest follows
      obtain ⟨stop, outside', context', hvisits, hrecords⟩ := scanRecords_visits hcallback
        (fun _ => mem_recordOffsets) (s.readInto device (dataSector s.fs cluster index)).2
        (fun i hi => hfaulty.answers.sectorBuffer g hread hi) context
      rw [if_pos hread, hsurvey]
      simp only
      rw [← hsame.bytesPerSector_eq, hrecords]
      set s₁ : FsState ω := ⟨(s.readInto device (dataSector s.fs cluster index)).2.fs,
        { (s.readInto device (dataSector s.fs cluster index)).2.bus with outside := outside' }⟩
      have hreads₁ : Reads s s₁ False := hreads.congr (by simp [hgood])
      cases stop with
      | true =>
        exact ⟨true, s₁, context', hsame, hvisits.append_left _, hreads₁.congr (by simp), rfl⟩
      | false =>
        obtain ⟨stop, s', context'', hsame', hrest, hreads', hrun⟩ := ih s₁ (g.of_sameVolume hsame)
          (hsame.validCluster_eq cluster ▸ hvalid)
          (fun i hi => hsame.sectorsPerCluster_eq ▸ hindices i (List.mem_cons_of_mem _ hi)) context'
        rw [surveySectors_of_sameVolume hsame] at hrest hreads' hrun
        exact ⟨stop, s', context'', hsame.trans hsame', hvisits.append hrest,
          (hreads₁.trans hreads').congr (by simp), hrun⟩

/-- Whatever comes after a cluster, its records come first. -/
theorem surveyClusters_append (unreadable : UInt32 → Bool) (fs : Fat32Fs ω) (contents : Contents)
    (budget : Nat) (cluster : UInt32) :
    ∃ rest, (surveyClusters unreadable fs contents (budget + 1) cluster).1 =
      (surveySectors unreadable fs contents cluster
        (List.range fs.sectorsPerCluster.toNat)).1 ++ rest := by
  rw [surveyClusters]
  generalize surveySectors unreadable fs contents cluster
    (List.range fs.sectorsPerCluster.toNat) = sectors
  obtain ⟨records, fault⟩ := sectors
  cases fault with
  | true => exact ⟨[], (List.append_nil records).symm⟩
  | false =>
    simp only
    split_ifs with hbad hend
    · exact ⟨[], (List.append_nil records).symm⟩
    · exact ⟨[], (List.append_nil records).symm⟩
    · cases link fs contents cluster with
      | none => exact ⟨[], (List.append_nil records).symm⟩
      | some next => exact ⟨_, rfl⟩

/-- The cluster loop visits the surveyed records; if nothing stops it, it ends as the
survey does. A read fails just in case it ends at a fault. -/
theorem scanClusters_surveys (hfaulty : Faulty device contents unreadable)
    (hcallback : Obeys callback R) (budget : Nat) (cluster : UInt32) (s : FsState ω)
    (g : Geometry s.fs device total) (hvalid : validCluster s.fs cluster = true) (context : γ) :
    let survey := surveyClusters unreadable s.fs contents budget cluster
    ∃ stop s' context', SameVolume s.fs s'.fs ∧ Visits R survey.1 context stop context' ∧
      Reads s s' (stop = false ∧ survey.2.isFault = true) ∧
      scanClusters callback budget cluster s context =
        (if stop then .ok else survey.2.result, s', context') := by
  induction budget generalizing cluster s context with
  | zero =>
    refine ⟨false, s, context, .refl _, .nil context, (Reads.refl s).congr ?_, ?_⟩
    · simp [surveyClusters, Ending.isFault]
    · rw [scanClusters, if_pos hvalid]
      rfl
  | succ budget ih =>
    intro survey
    have hinvalid : ¬ validCluster s.fs cluster = false := by simp [hvalid]
    -- the sectors of the cluster, with what the callback and the disk make of them
    obtain ⟨stop, s₁, context₁, hsame, hvisits, hreads, hsectors⟩ := scanSectors_surveys hfaulty
      hcallback (List.range s.fs.sectorsPerCluster.toNat) s g hvalid (fun _ => List.mem_range.mp)
      context
    have g₁ := g.of_sameVolume hsame
    have hvalid₁ : validCluster s₁.fs cluster = true := hsame.validCluster_eq cluster ▸ hvalid
    have hsurvey : survey = surveyClusters unreadable s.fs contents (budget + 1) cluster := rfl
    obtain ⟨rest, hrest⟩ := surveyClusters_append unreadable s.fs contents budget cluster
    rw [← hsurvey] at hrest
    rw [surveyClusters] at hsurvey
    rw [scanClusters, if_neg hinvalid, hsectors]
    generalize surveySectors unreadable s.fs contents cluster
      (List.range s.fs.sectorsPerCluster.toNat) = sectors at hvisits hreads hsurvey hrest
    obtain ⟨records, fault⟩ := sectors
    cases stop with
    | true =>
      refine ⟨true, s₁, context₁, hsame, ?_, hreads.congr (by simp), rfl⟩
      rw [hrest]
      exact hvisits.append_left rest
    | false =>
    cases fault with
    | true =>
      simp only at hsurvey
      rw [hsurvey]
      exact ⟨false, s₁, context₁, hsame, hvisits, hreads.congr (by simp [Ending.isFault]), rfl⟩
    | false =>
    simp only [Bool.false_eq_true, if_false] at hsurvey hreads ⊢
    -- then the link, which takes a read of the table
    obtain ⟨hstatus, hreads₁⟩ := hfaulty.readInto g₁ (g₁.fatSector_lt hvalid₁)
    have hfat : fatSector s.fs cluster = s₁.fs.volumeStart +
        (s₁.fs.fatStart + cluster * 4 / s₁.fs.bytesPerSector) :=
      (fatSector_of_sameVolume hsame cluster).symm
    rw [← hfat] at hstatus hreads₁
    rw [g₁.nextCluster_eq hfaulty.answers hvalid₁, fatSector_of_sameVolume hsame,
      fatValue_of_sameVolume hsame, link_of_sameVolume hsame]
    have hsame₂ := hsame.trans (readInto_sameVolume s₁ device (fatSector s.fs cluster))
    have hreads₂ : Reads s (s₁.readInto device (fatSector s.fs cluster)).2
        (unreadable (fatSector s.fs cluster) = true) := (hreads.trans hreads₁).congr (by simp)
    generalize s₁.readInto device (fatSector s.fs cluster) = out at hstatus hreads₂ hsame₂
    obtain ⟨status, s₂⟩ := out
    simp only at hstatus hreads₂ hsame₂ ⊢
    by_cases hbad : unreadable (fatSector s.fs cluster) = true
    · have hfailed : status ≠ 0 := by
        rw [ne_eq, hstatus, hbad]
        simp
      rw [if_pos hbad] at hsurvey
      rw [if_pos hfailed, hsurvey]
      exact ⟨false, s₂, context₁, hsame₂, hvisits, hreads₂.congr (by simp [Ending.isFault, hbad]), rfl⟩
    · have hread : ¬ status ≠ 0 := not_not.mpr (hstatus.mpr (Bool.eq_false_iff.mpr hbad))
      have hreads₂ := hreads₂.congr (iff_of_false id hbad)
      rw [if_neg hbad] at hsurvey
      rw [if_neg hread]
      -- the last cluster, no valid link, or the next cluster
      by_cases hend : 0x0FFFFFF8 ≤ fatValue s.fs contents cluster
      · rw [if_pos hend] at hsurvey
        rw [if_pos hend, hsurvey]
        exact ⟨false, s₂, context₁, hsame₂, hvisits, hreads₂.congr (by simp [Ending.isFault]), rfl⟩
      · rw [if_neg hend] at hsurvey
        rw [if_neg hend]
        cases hlink : link s.fs contents cluster with
        | none =>
          rw [hlink] at hsurvey
          rw [hsurvey]
          exact ⟨false, s₂, context₁, hsame₂, hvisits, hreads₂.congr (by simp [Ending.isFault]), rfl⟩
        | some next =>
          rw [hlink] at hsurvey
          have hmarker := ne_endMarker_of_link hlink
          obtain ⟨stop, s', context', hsame', hrest, hreads', hscan⟩ := ih next s₂
            (g.of_sameVolume hsame₂)
            (hsame₂.validCluster_eq next ▸ (link_eq_some hlink).2.2) context₁
          rw [surveyClusters_of_sameVolume hsame₂] at hrest hreads' hscan
          rw [hsurvey]
          simp only [if_neg hmarker]
          exact ⟨stop, s', context', hsame₂.trans hsame', hvisits.append hrest,
            (hreads₂.trans hreads').congr (by simp), hscan⟩

/-- On a readable disk a scan visits the records of the directory, in order, and
nothing else. -/
theorem scanDirectory_visits (hreadable : Readable device contents) (hcallback : Obeys callback R)
    (s : FsState ω) (g : Geometry s.fs device total) {first : UInt32}
    (hvalid : validCluster s.fs first = true) (context : γ) :
    ∃ stop s' context', SameVolume s.fs s'.fs ∧
      Visits R (directoryRecords s.fs contents first) context stop context' ∧
      scanDirectory callback first s context =
        (if stop then .ok else directoryStatus s.fs contents first, s', context') := by
  obtain ⟨stop, s', context', hsame, hvisits, -, hscan⟩ :=
    scanClusters_surveys (hreadable.faulty s.bus) hcallback s.fs.clusterCount.toNat first s g hvalid
      context
  rw [surveyClusters_readable] at hvisits hscan
  rw [scanDirectory, if_neg (by simp [hvalid])]
  exact ⟨stop, s', context', hsame, hvisits, hscan⟩

/-- With a callback that leaves the outside world alone the visit is a function. -/
theorem scanDirectory_eq (f : Dirent → γ → Int × γ) (hreadable : Readable device contents)
    (s : FsState ω) (g : Geometry s.fs device total) {first : UInt32}
    (hvalid : validCluster s.fs first = true) (context : γ) :
    ∃ s', SameVolume s.fs s'.fs ∧
      scanDirectory (quiet f) first s context =
        (if (visitRecords f (directoryRecords s.fs contents first) context).1 then .ok
          else directoryStatus s.fs contents first, s',
          (visitRecords f (directoryRecords s.fs contents first) context).2) := by
  have hquiet : Obeys (quiet f : DirCallback ω γ) fun entry context status context' =>
    f entry context = (status, context') := fun _ _ _ => rfl
  obtain ⟨stop, s', context', hsame, hvisits, hscan⟩ :=
    scanDirectory_visits hreadable hquiet s g hvalid context
  refine ⟨s', hsame, ?_⟩
  rw [hvisits.eq_visitRecords]
  exact hscan

end Loops

end LevOS.Filesystem
