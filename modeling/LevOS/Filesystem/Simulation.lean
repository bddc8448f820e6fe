import LevOS.Filesystem.File
import LevOS.Filesystem.Mount
import LevOS.Filesystem.Resolution
import LevOS.Foundation.Coupling

/-!
# Devices that cannot be told apart

The file system sees of a block device its geometry and the answers to its reads. Two
devices of one geometry whose reads answer alike, each in a world of its own, are alike
for every call: the results, the bytes delivered and the requests made are the same.

## Main definitions

* `Simulates`, two devices whose reads answer alike
* `FsState.Matches`, two states that differ only in the worlds behind the devices
* `DiskCall`, the calls a client makes, with all that they return

## Main results

* `Matches.fat32Mount`, `Matches.fat32ListDirectory`, `Matches.fat32ReadFile`
* `Matches.exec`, one call
-/

namespace LevOS.Filesystem

open LevOS.Drivers LevOS.Foundation

variable {ω ω' γ γ' : Type}

/-! ## Devices and states -/

/-- Two devices of one geometry whose reads answer alike on related buses. -/
structure Simulates (R : Bus ω → Bus ω' → Prop) (device : BlockDevice ω)
    (device' : BlockDevice ω') : Prop where
  sectorSize : device.sectorSize = device'.sectorSize
  sectorCount : device.sectorCount = device'.sectorCount
  isNone : device.readSector.isNone = device'.readSector.isNone
  read : ∀ sector buffer bus bus', R bus bus' →
    Alike (Alike R) (blockReadSector device sector buffer bus)
      (blockReadSector device' sector buffer bus')

/-- Two buses with the same requests in the log, related by what is outside. -/
structure OnBus (R : ω → ω' → Prop) (bus : Bus ω) (bus' : Bus ω') : Prop where
  outside : R bus.outside bus'.outside
  requests : bus.requests = bus'.requests

/-- Two devices whose callbacks answer alike from related worlds. -/
theorem Simulates.of_answers {R : ω → ω' → Prop} {device : BlockDevice ω}
    {device' : BlockDevice ω'} (hsize : device.sectorSize = device'.sectorSize)
    (hcount : device.sectorCount = device'.sectorCount)
    {read : UInt32 → Buffer → ω → Int × Buffer × ω} (hread : device.readSector = some read)
    {read' : UInt32 → Buffer → ω' → Int × Buffer × ω'} (hread' : device'.readSector = some read')
    (hanswer : ∀ sector buffer outside outside', R outside outside' →
      Alike (Alike R) (read sector buffer outside) (read' sector buffer outside')) :
    Simulates (OnBus R) device device' where
  sectorSize := hsize
  sectorCount := hcount
  isNone := by rw [hread, hread']; rfl
  read := by
    intro sector buffer bus bus' hbus
    unfold blockReadSector
    simp only [hread, hread', hsize, hcount]
    split_ifs
    · exact ⟨rfl, rfl, hbus⟩
    · exact ⟨rfl, rfl, hbus⟩
    · obtain ⟨hstatus, hbuffer, houtside⟩ := hanswer sector buffer _ _ hbus.outside
      exact ⟨hstatus, hbuffer, houtside, by rw [hbus.requests, hstatus]⟩

/-- What every read of a device keeps true of the bus. -/
def BusInvariant (device : BlockDevice ω) (I : Bus ω → Prop) : Prop :=
  ∀ sector buffer bus, I bus → I (blockReadSector device sector buffer bus).2.2

/-- A device answers like itself, and keeps its invariants. -/
theorem BusInvariant.simulates {device : BlockDevice ω} {I : Bus ω → Prop}
    (h : BusInvariant device I) :
    Simulates (fun bus bus' => bus = bus' ∧ I bus) device device where
  sectorSize := rfl
  sectorCount := rfl
  isNone := rfl
  read := by
    rintro sector buffer bus bus' ⟨rfl, hbus⟩
    exact ⟨rfl, rfl, rfl, h sector buffer bus hbus⟩

/-- What cannot be told from a device that cannot be told from a third one. -/
theorem Simulates.trans {ω'' : Type} {R : Bus ω → Bus ω' → Prop} {R' : Bus ω' → Bus ω'' → Prop}
    {device : BlockDevice ω} {device' : BlockDevice ω'} {device'' : BlockDevice ω''}
    (h : Simulates R device device') (h' : Simulates R' device' device'') :
    Simulates (Relation.Comp R R') device device'' where
  sectorSize := h.sectorSize.trans h'.sectorSize
  sectorCount := h.sectorCount.trans h'.sectorCount
  isNone := h.isNone.trans h'.isNone
  read := by
    rintro sector buffer bus bus'' ⟨bus', hbus, hbus'⟩
    obtain ⟨hstatus, hbuffer, hnext⟩ := h.read sector buffer bus bus' hbus
    obtain ⟨hstatus', hbuffer', hnext'⟩ := h'.read sector buffer bus' bus'' hbus'
    exact ⟨hstatus.trans hstatus', hbuffer.trans hbuffer', _, hnext, hnext'⟩

/-- The file system object without its device. -/
def Fat32Fs.detached (fs : Fat32Fs ω) : Fat32Fs Unit where
  device := none
  volumeStart := fs.volumeStart
  bytesPerSector := fs.bytesPerSector
  sectorsPerCluster := fs.sectorsPerCluster
  reservedSectors := fs.reservedSectors
  fatStart := fs.fatStart
  fatSectors := fs.fatSectors
  dataStart := fs.dataStart
  clusterCount := fs.clusterCount
  rootCluster := fs.rootCluster
  sectorBuffer := fs.sectorBuffer
  mounted := fs.mounted

/-- Two states whose objects are equal but for devices that answer alike. -/
structure FsState.Matches (R : Bus ω → Bus ω' → Prop) (s : FsState ω) (s' : FsState ω') :
    Prop where
  device : Option.Rel (Simulates R) s.fs.device s'.fs.device
  fields : s.fs.detached = s'.fs.detached
  bus : R s.bus s'.bus

/-- The states match, and so do the contexts. -/
def MatchesWith (R : Bus ω → Bus ω' → Prop) (C : γ → γ' → Prop) (a : FsState ω × γ)
    (a' : FsState ω' × γ') : Prop :=
  a.1.Matches R a'.1 ∧ C a.2 a'.2

/-- Two callbacks that answer alike from related contexts, on related buses, whatever entry of
a directory they are given. -/
def CallbacksAlike (R : Bus ω → Bus ω' → Prop) (C : γ → γ' → Prop) (callback : DirCallback ω γ)
    (callback' : DirCallback ω' γ') : Prop :=
  ∀ raw entry context context' (bus : Bus ω) (bus' : Bus ω'), entryFromRaw raw = some entry →
    C context context' → R bus bus' →
    let answer := callback entry context bus.outside
    let answer' := callback' entry context' bus'.outside
    answer.1 = answer'.1 ∧ C answer.2.1 answer'.2.1 ∧
      R { bus with outside := answer.2.2 } { bus' with outside := answer'.2.2 }

section

variable {R : Bus ω → Bus ω' → Prop} {C : γ → γ' → Prop} {s : FsState ω} {s' : FsState ω'}
  {device : BlockDevice ω} {device' : BlockDevice ω'} {callback : DirCallback ω γ}
  {callback' : DirCallback ω' γ'} {context : γ} {context' : γ'}

namespace FsState.Matches

theorem validCluster (h : s.Matches R s') (cluster : UInt32) :
    validCluster s.fs cluster = validCluster s'.fs cluster :=
  congrArg (Filesystem.validCluster · cluster) h.fields

theorem clusterSector (h : s.Matches R s') (cluster : UInt32) (index : Nat) :
    clusterSector s.fs cluster index = clusterSector s'.fs cluster index := by
  have hdata : s.fs.dataStart = s'.fs.dataStart := congrArg Fat32Fs.dataStart h.fields
  have hcluster : s.fs.sectorsPerCluster = s'.fs.sectorsPerCluster :=
    congrArg Fat32Fs.sectorsPerCluster h.fields
  rw [Filesystem.clusterSector, Filesystem.clusterSector, hdata, hcluster]

theorem sectorBuffer (h : s.Matches R s') : s.fs.sectorBuffer = s'.fs.sectorBuffer :=
  congrArg Fat32Fs.sectorBuffer h.fields

theorem bytesPerSector (h : s.Matches R s') : s.fs.bytesPerSector = s'.fs.bytesPerSector :=
  congrArg Fat32Fs.bytesPerSector h.fields

theorem sectorsPerCluster (h : s.Matches R s') :
    s.fs.sectorsPerCluster = s'.fs.sectorsPerCluster :=
  congrArg Fat32Fs.sectorsPerCluster h.fields

theorem clusterCount (h : s.Matches R s') : s.fs.clusterCount = s'.fs.clusterCount :=
  congrArg Fat32Fs.clusterCount h.fields

theorem rootCluster (h : s.Matches R s') : s.fs.rootCluster = s'.fs.rootCluster :=
  congrArg Fat32Fs.rootCluster h.fields

theorem mounted (h : s.Matches R s') : s.fs.mounted = s'.fs.mounted :=
  congrArg Fat32Fs.mounted h.fields

/-- The buses may go on. -/
theorem withBus (h : s.Matches R s') {bus : Bus ω} {bus' : Bus ω'} (hbus : R bus bus') :
    FsState.Matches R ⟨s.fs, bus⟩ ⟨s'.fs, bus'⟩ :=
  ⟨h.device, h.fields, hbus⟩

end FsState.Matches

/-! ## Reading a sector -/

namespace FsState.Matches

theorem readInto (h : s.Matches R s') (hdevice : Simulates R device device') (sector : UInt32) :
    Alike (FsState.Matches R) (s.readInto device sector) (s'.readInto device' sector) := by
  unfold FsState.readInto
  rw [h.sectorBuffer]
  obtain ⟨hstatus, hbuffer, hbus⟩ := hdevice.read sector s'.fs.sectorBuffer _ _ h.bus
  refine ⟨hstatus, h.device, ?_, hbus⟩
  exact congrArg₂ (fun fs buffer => { fs with sectorBuffer := buffer }) h.fields hbuffer

theorem readSector (h : s.Matches R s') (sector : UInt32) :
    Alike (FsState.Matches R) (readSector s sector) (readSector s' sector) := by
  have hstart : s.fs.volumeStart = s'.fs.volumeStart := congrArg Fat32Fs.volumeStart h.fields
  have hboth := h.device
  unfold Filesystem.readSector
  generalize s.fs.device = one at hboth
  generalize s'.fs.device = other at hboth
  cases hboth with
  | none => exact ⟨rfl, h⟩
  | @some device device' hdevice =>
    simp only [h.mounted, hstart, hdevice.sectorCount]
    refine alike_ite (fun _ => ⟨rfl, h⟩) fun _ => ?_
    obtain ⟨hstatus, hstate⟩ := h.readInto hdevice (s'.fs.volumeStart + sector)
    exact ⟨congrArg (fun status : Int => if status = 0 then Fat32Result.ok else .eio) hstatus,
      hstate⟩

theorem nextCluster (h : s.Matches R s') (cluster : UInt32) :
    Alike (FsState.Matches R) (nextCluster s cluster) (nextCluster s' cluster) := by
  have hfat : s.fs.fatStart = s'.fs.fatStart := congrArg Fat32Fs.fatStart h.fields
  have hsectors : s.fs.fatSectors = s'.fs.fatSectors := congrArg Fat32Fs.fatSectors h.fields
  unfold Filesystem.nextCluster
  simp only [h.validCluster, h.bytesPerSector, hfat, hsectors]
  split_ifs
  · exact ⟨rfl, h⟩
  · exact ⟨rfl, h⟩
  · exact ⟨rfl, h⟩
  · refine (h.readSector (s'.fs.fatStart + cluster * 4 / s'.fs.bytesPerSector)).elim ?_
    intro result t t' hstate
    have hlink (value : UInt32) : decodeLink t.fs value = decodeLink t'.fs value :=
      congrArg (decodeLink · value) hstate.fields
    cases result with
    | ok => exact ⟨by simp only [hlink, hstate.sectorBuffer], hstate⟩
    | _ => exact ⟨rfl, hstate⟩

end FsState.Matches

/-! ## Scans -/

theorem callbacksAlike_find : CallbacksAlike R Eq findCallback findCallback := by
  rintro raw entry context _ bus bus' - rfl hbus
  unfold findCallback
  split_ifs <;> exact ⟨rfl, rfl, hbus⟩

namespace FsState.Matches

theorem scanRecords (hcallback : CallbacksAlike R C callback callback') (offsets : List Nat)
    (h : s.Matches R s') (hcontext : C context context') :
    Alike (MatchesWith R C) (scanRecords callback offsets s context)
      (scanRecords callback' offsets s' context') := by
  induction offsets generalizing s s' context context' with
  | nil => exact ⟨rfl, h, hcontext⟩
  | cons offset offsets ih =>
    rw [Filesystem.scanRecords, Filesystem.scanRecords]
    simp only [h.sectorBuffer]
    refine alike_ite (fun _ => ⟨rfl, h, hcontext⟩) fun _ => ?_
    cases hentry : entryFromRaw fun i => s'.fs.sectorBuffer (offset + i) with
    | none => exact ih h hcontext
    | some entry =>
      obtain ⟨hstop, hnext, hbus⟩ := hcallback _ entry context context' _ _ hentry hcontext h.bus
      simp only [hstop]
      exact alike_ite (fun _ => ⟨rfl, h.withBus hbus, hnext⟩) fun _ => ih (h.withBus hbus) hnext

theorem scanSectors (hcallback : CallbacksAlike R C callback callback') (cluster : UInt32)
    (indices : List Nat) (h : s.Matches R s') (hcontext : C context context') :
    Alike (MatchesWith R C) (scanSectors callback cluster indices s context)
      (scanSectors callback' cluster indices s' context') := by
  induction indices generalizing s s' context context' with
  | nil => exact ⟨rfl, h, hcontext⟩
  | cons index indices ih =>
    rw [Filesystem.scanSectors, Filesystem.scanSectors, h.clusterSector]
    refine (h.readSector (Filesystem.clusterSector s'.fs cluster index)).elim ?_
    intro result t t' hstate
    cases result with
    | ok =>
      simp only [hstate.bytesPerSector]
      refine (hstate.scanRecords hcallback (recordOffsets t'.fs.bytesPerSector) hcontext).elim ?_
      rintro stop ⟨u, context₁⟩ ⟨u', context₁'⟩ ⟨hrecords, hcontext₁⟩
      cases stop with
      | none => exact ih hrecords hcontext₁
      | some result => exact ⟨rfl, hrecords, hcontext₁⟩
    | _ => exact ⟨rfl, hstate, hcontext⟩

theorem scanClusters (hcallback : CallbacksAlike R C callback callback') (budget : Nat)
    (cluster : UInt32) (h : s.Matches R s') (hcontext : C context context') :
    Alike (MatchesWith R C) (scanClusters callback budget cluster s context)
      (scanClusters callback' budget cluster s' context') := by
  induction budget generalizing cluster s s' context context' with
  | zero =>
    rw [Filesystem.scanClusters, Filesystem.scanClusters, h.validCluster]
    exact ⟨rfl, h, hcontext⟩
  | succ budget ih =>
    rw [Filesystem.scanClusters, Filesystem.scanClusters, h.validCluster, h.sectorsPerCluster]
    refine alike_ite (fun _ => ⟨rfl, h, hcontext⟩) fun _ => ?_
    refine (h.scanSectors hcallback cluster (List.range s'.fs.sectorsPerCluster.toNat)
      hcontext).elim ?_
    rintro stop ⟨t, context₁⟩ ⟨t', context₁'⟩ ⟨hsectors, hcontext₁⟩
    cases stop with
    | some result => exact ⟨rfl, hsectors, hcontext₁⟩
    | none =>
      dsimp only
      refine (hsectors.nextCluster cluster).elim ?_
      intro found u u' hnext
      cases found with
      | error result => exact ⟨rfl, hnext, hcontext₁⟩
      | ok next =>
        exact alike_ite (fun _ => ⟨rfl, hnext, hcontext₁⟩) fun _ => ih next hnext hcontext₁

theorem scanDirectory (hcallback : CallbacksAlike R C callback callback') (first : UInt32)
    (h : s.Matches R s') (hcontext : C context context') :
    Alike (MatchesWith R C) (scanDirectory callback first s context)
      (scanDirectory callback' first s' context') := by
  unfold Filesystem.scanDirectory
  rw [h.validCluster, h.clusterCount]
  exact alike_ite (fun _ => ⟨rfl, h, hcontext⟩) fun _ => h.scanClusters hcallback _ first hcontext

/-! ## Paths -/

theorem walk (parts : List (List UInt8)) (directory : UInt32) (h : s.Matches R s') :
    Alike (FsState.Matches R) (walk parts directory s) (walk parts directory s') := by
  induction parts generalizing directory s s' with
  | nil =>
    rw [Filesystem.walk, Filesystem.walk, h.rootCluster]
    exact alike_ite (fun _ => ⟨rfl, h⟩) fun _ => ⟨rfl, h⟩
  | cons part parts ih =>
    rw [Filesystem.walk, Filesystem.walk]
    refine alike_ite (fun _ => ⟨rfl, h⟩) fun _ => alike_ite (fun _ => ih directory h) fun _ => ?_
    have hfind : (⟨part, none⟩ : FindContext) = ⟨part, none⟩ := rfl
    refine (h.scanDirectory callbacksAlike_find directory hfind).elim ?_
    rintro result ⟨t, target, found⟩ ⟨t', _⟩ ⟨hscan, rfl⟩
    cases result with
    | ok =>
      cases found with
      | none => exact ⟨rfl, hscan⟩
      | some entry =>
        simp only [hscan.validCluster]
        refine alike_ite (fun _ => ?_) fun _ => ⟨rfl, hscan⟩
        exact alike_ite (fun _ => ⟨rfl, hscan⟩) fun _ =>
          alike_ite (fun _ => ⟨rfl, hscan⟩) fun _ => ih entry.firstCluster hscan
    | _ => exact ⟨rfl, hscan⟩

theorem lookup (path : CString) (h : s.Matches R s') :
    Alike (FsState.Matches R) (lookup path s) (lookup path s') := by
  rw [lookup_eq_walk, lookup_eq_walk, h.rootCluster]
  exact h.walk (components path) s'.fs.rootCluster

end FsState.Matches

/-! ## Files -/

/-- Two buffers agree where asked for. -/
def AgreeOn (K : Nat → Prop) (buffer buffer' : Buffer) : Prop := ∀ i, K i → buffer i = buffer' i

theorem eq_of_agreeOn {K : Nat → Prop} {buffer buffer' : Option Buffer} (hall : ∀ i, K i)
    (h : Option.Rel (AgreeOn K) buffer buffer') : buffer = buffer' := by
  cases h with
  | none => rfl
  | some hagree => exact congrArg some (funext fun i => hagree i (hall i))

theorem copyBytes_agreeOn {K : Nat → Prop} {buffer buffer' : Buffer} {source : Buffer}
    {copied amount : Nat} (h : AgreeOn (fun i => K i ∨ i < copied) buffer buffer') :
    AgreeOn (fun i => K i ∨ i < copied + amount) (copyBytes source copied amount buffer)
      (copyBytes source copied amount buffer') := by
  induction amount with
  | zero => exact h
  | succ amount ih =>
    intro i hi
    simp only [copyBytes, Function.update_apply]
    split_ifs with hlast
    · rfl
    · exact ih i (hi.imp_right fun hlt => by omega)

/-- Two reads of a file have come equally far; their buffers agree where they did at the
start, and where something has been copied. -/
structure Progress.Matches (R : Bus ω → Bus ω' → Prop) (K : Nat → Prop) (p : Progress ω)
    (p' : Progress ω') : Prop where
  state : p.state.Matches R p'.state
  buffer : AgreeOn (fun i => K i ∨ i < p.copied.toNat) p.buffer p'.buffer
  copied : p.copied = p'.copied
  remaining : p.remaining = p'.remaining

namespace Progress.Matches

variable {K : Nat → Prop} {p : Progress ω} {p' : Progress ω'}

theorem amount (h : p.Matches R K p') : p.amount = p'.amount := by
  unfold Progress.amount
  rw [h.remaining, h.state.bytesPerSector]

/-- The bytes of one more sector are copied. -/
theorem advance (h : p.Matches R K p') {t : FsState ω} {t' : FsState ω'} (hstate : t.Matches R t') :
    Progress.Matches R K
      ⟨t, copyBytes t.fs.sectorBuffer p.copied.toNat p.amount.toNat p.buffer, p.copied + p.amount,
        p.remaining - p.amount⟩
      ⟨t', copyBytes t'.fs.sectorBuffer p'.copied.toNat p'.amount.toNat p'.buffer,
        p'.copied + p'.amount, p'.remaining - p'.amount⟩ := by
  refine ⟨hstate, ?_, by simp only [h.copied, h.amount], by simp only [h.remaining, h.amount]⟩
  simp only [hstate.sectorBuffer, ← h.copied, ← h.amount]
  intro i hi
  refine copyBytes_agreeOn h.buffer i (hi.imp_right fun hlt => ?_)
  -- even if the counter wraps, it does not get ahead of the bytes
  exact Nat.lt_of_lt_of_le hlt (by rw [UInt32.toNat_add]; exact Nat.mod_le _ _)

theorem readSectors (cluster : UInt32) (indices : List Nat) (h : p.Matches R K p') :
    Alike (Progress.Matches R K) (readSectors cluster indices p)
      (readSectors cluster indices p') := by
  induction indices generalizing p p' with
  | nil => exact ⟨rfl, h⟩
  | cons index indices ih =>
    rw [Filesystem.readSectors, Filesystem.readSectors, h.remaining, h.state.clusterSector]
    refine alike_ite (fun _ => ⟨rfl, h⟩) fun _ => ?_
    refine (h.state.readSector (clusterSector p'.state.fs cluster index)).elim ?_
    intro result t t' hstate
    cases result with
    | ok =>
      have hadvanced := h.advance hstate
      rw [h.remaining] at hadvanced
      exact ih hadvanced
    | _ => exact ⟨rfl, hstate, h.buffer, h.copied, rfl⟩

theorem readClusters (budget : Nat) (cluster : UInt32) (h : p.Matches R K p') :
    Alike (Progress.Matches R K) (readClusters budget cluster p)
      (readClusters budget cluster p') := by
  induction budget generalizing cluster p p' with
  | zero =>
    rw [Filesystem.readClusters, Filesystem.readClusters, h.remaining]
    exact ⟨rfl, h⟩
  | succ budget ih =>
    rw [Filesystem.readClusters, Filesystem.readClusters, h.remaining, h.state.sectorsPerCluster]
    refine alike_ite (fun _ => ⟨rfl, h⟩) fun _ => ?_
    refine (h.readSectors cluster (List.range p'.state.fs.sectorsPerCluster.toNat)).elim ?_
    intro stop q q' hsectors
    cases stop with
    | some result => exact ⟨rfl, hsectors⟩
    | none =>
      simp only [hsectors.remaining]
      refine alike_ite (fun _ => ⟨rfl, hsectors⟩) fun _ => ?_
      refine (hsectors.state.nextCluster cluster).elim ?_
      intro found t t' hnext
      have hstep : Progress.Matches R K { q with state := t, remaining := q'.remaining }
          { q' with state := t' } := ⟨hnext, hsectors.buffer, hsectors.copied, rfl⟩
      cases found with
      | error result => exact ⟨rfl, hstep⟩
      | ok next => exact alike_ite (fun _ => ⟨rfl, hstep⟩) fun _ => ih next hstep

end Progress.Matches

/-! ## Calls -/

namespace FsState.Matches

theorem fat32ListDirectory (h : s.Matches R s') (path : Option CString)
    {callback : Option (DirCallback ω γ)} {callback' : Option (DirCallback ω' γ')}
    (hcallback : Option.Rel (CallbacksAlike R C) callback callback')
    (hcontext : C context context') :
    Alike (MatchesWith R C) (fat32ListDirectory path callback s context)
      (fat32ListDirectory path callback' s' context') := by
  cases hcallback with
  | none => exact ⟨rfl, h, hcontext⟩
  | some hcallback =>
    unfold Filesystem.fat32ListDirectory
    simp only [h.mounted]
    refine alike_ite (fun _ => ⟨rfl, h, hcontext⟩) fun _ => ?_
    refine (h.lookup (path.getD rootPath)).elim ?_
    intro found t t' hstate
    cases found with
    | error result => exact ⟨rfl, hstate, hcontext⟩
    | ok entry =>
      exact alike_ite (fun _ => ⟨rfl, hstate, hcontext⟩) fun _ =>
        hstate.scanDirectory hcallback entry.firstCluster hcontext

end FsState.Matches

/-- Two outcomes of a file read that differ only in the worlds behind the devices, and in the
bytes that neither was asked to agree on nor delivered. -/
structure ReadOutcome.Matches (R : Bus ω → Bus ω' → Prop) (K : Nat → Prop) (o : ReadOutcome ω)
    (o' : ReadOutcome ω') : Prop where
  result : o.result = o'.result
  state : o.state.Matches R o'.state
  buffer : Option.Rel
    (AgreeOn fun i => K i ∨ o.result = .ok ∧ ∃ count ∈ o.bytesRead, i < count.toNat)
    o.buffer o'.buffer
  bytesRead : o.bytesRead = o'.bytesRead

/-- A read that delivers nothing leaves the buffers as they were. -/
theorem ReadOutcome.Matches.unread {K : Nat → Prop} {buffer buffer' : Option Buffer}
    (hbuffer : Option.Rel (AgreeOn K) buffer buffer') {result : Fat32Result}
    {count : Option UInt32} (hnothing : result = .ok → count = some 0) (h : s.Matches R s') :
    ReadOutcome.Matches R K ⟨result, s, buffer, count⟩ ⟨result, s', buffer', count⟩ where
  result := rfl
  state := h
  buffer := by
    cases hbuffer with
    | none => exact .none
    | some hagree =>
      refine .some fun i hi => hagree i (hi.resolve_right ?_)
      rintro ⟨hok, n, hn, hlt⟩
      obtain rfl : 0 = n := Option.some.inj ((hnothing hok).symm.trans hn)
      exact absurd hlt (Nat.not_lt_zero i)
  bytesRead := rfl

namespace FsState.Matches

theorem fat32ReadFile (h : s.Matches R s') (path : Option CString) {K : Nat → Prop}
    {buffer buffer' : Option Buffer} (hbuffer : Option.Rel (AgreeOn K) buffer buffer')
    (capacity : UInt32) (bytesRead : Option UInt32) :
    ReadOutcome.Matches R K (fat32ReadFile path buffer capacity bytesRead s)
      (fat32ReadFile path buffer' capacity bytesRead s') := by
  cases bytesRead with
  | none => exact .unread hbuffer (by simp) h
  | some count =>
  cases path with
  | none => exact .unread hbuffer (by simp) h
  | some path =>
    have hmissing : buffer.isNone = buffer'.isNone := by cases hbuffer <;> rfl
    unfold Filesystem.fat32ReadFile
    simp only [h.mounted]
    split_ifs
    · exact .unread hbuffer (by simp) h
    refine (h.lookup path).elim ?_
    intro found t t' hstate
    cases found with
    | error result => exact .unread hbuffer (fun _ => rfl) hstate
    | ok entry =>
      simp only [hstate.validCluster, hstate.clusterCount, hmissing]
      -- the refusals come first, then the clusters are read
      split_ifs
      · exact .unread hbuffer (fun _ => rfl) hstate
      · exact .unread hbuffer (fun _ => rfl) hstate
      · exact .unread hbuffer (fun _ => rfl) hstate
      · exact .unread hbuffer (fun _ => rfl) hstate
      · exact .unread hbuffer (fun _ => rfl) hstate
      · cases hbuffer with
        | none => exact .unread .none (fun _ => rfl) hstate
        | @some bytes bytes' hagree =>
          have hstart : Progress.Matches R K ⟨t, bytes, 0, entry.size⟩ ⟨t', bytes', 0, entry.size⟩ :=
            ⟨hstate, fun i hi => hagree i (hi.resolve_right (Nat.not_lt_zero i)), rfl, rfl⟩
          dsimp only
          refine (hstart.readClusters t'.fs.clusterCount.toNat entry.firstCluster).elim ?_
          intro result p p' hend
          have hkept : AgreeOn K p.buffer p'.buffer := fun i hi => hend.buffer i (Or.inl hi)
          cases result with
          | ok =>
            refine ⟨rfl, hend.state, .some fun i hi => hend.buffer i (hi.imp_right ?_),
              congrArg some hend.copied⟩
            rintro ⟨-, n, hn, hlt⟩
            rwa [Option.some.inj hn]
          | _ => exact .unread (.some hkept) (fun _ => rfl) hend.state

end FsState.Matches

/-! ## Mounting -/

namespace Simulates

theorem probePass (hdevice : Simulates R device device') (firstPass : Bool)
    (entries : List Partition) (h : s.Matches R s') :
    Alike (FsState.Matches R) (probePass device firstPass entries s)
      (probePass device' firstPass entries s') := by
  induction entries generalizing s s' with
  | nil => exact ⟨rfl, h⟩
  | cons partition entries ih =>
    have hskipped : partition.skipped device firstPass = partition.skipped device' firstPass := by
      simp only [Partition.skipped, hdevice.sectorCount]
    rw [Filesystem.probePass, Filesystem.probePass, hskipped, hdevice.sectorSize]
    refine alike_ite (fun _ => ih h) fun _ => ?_
    obtain ⟨hstatus, hstate⟩ := h.readInto hdevice partition.start
    simp only [hstatus, hstate.sectorBuffer]
    exact alike_ite (fun _ => ih hstate) fun _ => ⟨rfl, hstate⟩

theorem probePartitions (hdevice : Simulates R device device') (entries : List Partition)
    (h : s.Matches R s') :
    Alike (FsState.Matches R) (probePartitions device entries s)
      (probePartitions device' entries s') := by
  unfold Filesystem.probePartitions
  refine (hdevice.probePass true entries h).elim ?_
  intro found t t' hstate
  cases found with
  | some partition => exact ⟨rfl, hstate⟩
  | none => exact hdevice.probePass false entries hstate

theorem locateVolume (hdevice : Simulates R device device') (h : s.Matches R s') :
    Alike (FsState.Matches R) (locateVolume device s) (locateVolume device' s') := by
  unfold Filesystem.locateVolume
  rw [h.sectorBuffer, hdevice.sectorSize]
  refine alike_ite (fun _ => ⟨rfl, h⟩) fun _ => alike_ite (fun _ => ⟨rfl, h⟩) fun _ => ?_
  refine (hdevice.probePartitions (partitions s'.fs.sectorBuffer) h).elim ?_
  intro found t t' hstate
  cases found with
  | some partition => exact ⟨rfl, hstate⟩
  | none => exact ⟨rfl, hstate⟩

/-- The fields that a mount assigns come from the boot sector and the device's geometry. -/
theorem establishGeometry (hdevice : Simulates R device device') (volume : VolumeExtent)
    (h : s.Matches R s') :
    Alike (FsState.Matches R) (establishGeometry device volume s)
      (establishGeometry device' volume s') := by
  obtain ⟨⟨one, _, _, _, _, _, _, _, _, _, b, _⟩, bus⟩ := s
  obtain ⟨⟨other, _, _, _, _, _, _, _, _, _, _, _⟩, bus'⟩ := s'
  obtain ⟨hboth, hfields, hbus⟩ := h
  simp only [Fat32Fs.detached, Fat32Fs.mk.injEq, true_and] at hfields
  -- only the devices and the worlds are left to differ
  obtain ⟨rfl, rfl, rfl, rfl, rfl, rfl, rfl, rfl, rfl, rfl, rfl⟩ := hfields
  unfold Filesystem.establishGeometry
  simp only [hdevice.sectorSize, hdevice.sectorCount]
  refine alike_ite (fun _ => ⟨rfl, hboth, rfl, hbus⟩) fun _ => ?_
  refine alike_ite (fun _ => ⟨rfl, hboth, rfl, hbus⟩) fun _ => ?_
  refine alike_ite (fun _ => ⟨rfl, hboth, rfl, hbus⟩) fun _ => ?_
  refine alike_ite (fun _ => ⟨rfl, hboth, rfl, hbus⟩) fun _ => ?_
  refine alike_ite (fun _ => ⟨rfl, hboth, rfl, hbus⟩) fun _ => ?_
  exact alike_ite (fun _ => ⟨rfl, hboth, rfl, hbus⟩) fun _ => ⟨rfl, hboth, rfl, hbus⟩

end Simulates

theorem FsState.Matches.fat32Mount (h : s.Matches R s')
    {one : Option (BlockDevice ω)} {other : Option (BlockDevice ω')}
    (hboth : Option.Rel (Simulates R) one other) :
    Alike (FsState.Matches R) (fat32Mount one s) (fat32Mount other s') := by
  cases hboth with
  | none => exact ⟨rfl, h⟩
  | @some device device' hdevice =>
    unfold Filesystem.fat32Mount
    simp only [hdevice.isNone, hdevice.sectorSize]
    refine alike_ite (fun _ => ⟨rfl, h⟩) fun _ => ?_
    -- the mount begins with an object that is not mounted and has the new device
    have hbegin : FsState.Matches R
        { s with fs := { s.fs with mounted := false, device := some device } }
        { s' with fs := { s'.fs with mounted := false, device := some device' } } :=
      ⟨.some hdevice, congrArg (fun fs => { fs with mounted := false }) h.fields, h.bus⟩
    obtain ⟨hstatus, hread⟩ := hbegin.readInto hdevice 0
    simp only [hstatus]
    refine alike_ite (fun _ => ⟨rfl, hread⟩) fun _ => ?_
    refine (hdevice.locateVolume hread).elim ?_
    intro found t t' hlocated
    cases found with
    | none => exact ⟨rfl, hlocated⟩
    | some volume => exact hdevice.establishGeometry volume hlocated

end

/-! ## Clients -/

/-- A call of a client: it may stop a listing whenever it likes, by what it has seen. Any of
the pointers may be null. -/
inductive DiskCall
  | mount
  | list (path : Option CString) (visit : Option (List Dirent → Dirent → Int))
  | read (path : Option CString) (buffer : Option Buffer) (capacity : UInt32)
      (bytesRead : Option UInt32)

/-- All that a call returns: the result, the entries that were listed, the buffer and the
count. -/
structure DiskReply where
  result : Fat32Result
  entries : List Dirent
  buffer : Option Buffer
  bytesRead : Option UInt32

/-- The callback of a client, which keeps the entries it is given. -/
def keeping (visit : List Dirent → Dirent → Int) : DirCallback ω (List Dirent) :=
  fun entry seen outside => (visit seen entry, seen ++ [entry], outside)

/-- A call on the file system, with a device to mount. -/
def DiskCall.exec (device : BlockDevice ω) : DiskCall → FsState ω → DiskReply × FsState ω
  | .mount, s =>
    let (result, s) := fat32Mount (some device) s
    (⟨result, [], none, none⟩, s)
  | .list path visit, s =>
    let (result, s, entries) := fat32ListDirectory path (visit.map keeping) s []
    (⟨result, entries, none, none⟩, s)
  | .read path buffer capacity bytesRead, s =>
    let outcome := fat32ReadFile path buffer capacity bytesRead s
    (⟨outcome.result, [], outcome.buffer, outcome.bytesRead⟩, outcome.state)

/-- No call tells two devices apart that answer alike. -/
theorem Simulates.exec {R : Bus ω → Bus ω' → Prop} {device : BlockDevice ω} {device' : BlockDevice ω'}
    (hdevice : Simulates R device device') (call : DiskCall) (s : FsState ω) (s' : FsState ω')
    (h : s.Matches R s') :
    Alike (FsState.Matches R) (call.exec device s) (call.exec device' s') := by
  cases call with
  | mount =>
    obtain ⟨hresult, hstate⟩ := h.fat32Mount (.some hdevice)
    exact ⟨congrArg (DiskReply.mk · [] none none) hresult, hstate⟩
  | list path visit =>
    have hkeeping : Option.Rel (CallbacksAlike R Eq) (visit.map keeping) (visit.map keeping) := by
      cases visit with
      | none => exact .none
      | some visit =>
        refine .some ?_
        rintro raw entry context _ bus bus' - rfl hbus
        exact ⟨rfl, rfl, hbus⟩
    obtain ⟨hresult, hstate, hentries⟩ :=
      h.fat32ListDirectory path hkeeping (show ([] : List Dirent) = [] from rfl)
    exact ⟨congrArg₂ (DiskReply.mk · · none none) hresult hentries, hstate⟩
  | read path buffer capacity bytesRead =>
    have hsame : Option.Rel (AgreeOn fun _ => True) buffer buffer := by
      cases buffer with
      | none => exact .none
      | some bytes => exact .some fun _ _ => rfl
    obtain ⟨hresult, hstate, hbuffer, hcount⟩ :=
      h.fat32ReadFile path hsame capacity bytesRead
    refine ⟨?_, hstate⟩
    simp only [DiskCall.exec, hresult, hcount, eq_of_agreeOn (fun _ => Or.inl trivial) hbuffer]

/-- What every read keeps true of the bus is true of it after any calls. -/
theorem BusInvariant.runAll {device : BlockDevice ω} {I : Bus ω → Prop}
    (h : BusInvariant device I) (calls : List DiskCall) {s : FsState ω} (hdevice : s.fs.device = none)
    (hstart : I s.bus) : I (runAll (DiskCall.exec device) calls s).2.bus := by
  have hself : s.Matches (fun bus bus' => bus = bus' ∧ I bus) s :=
    ⟨by rw [hdevice]; exact .none, rfl, rfl, hstart⟩
  exact (Alike.runAll h.simulates.exec calls hself).state.bus.2

end LevOS.Filesystem
