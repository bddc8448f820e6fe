import LevOS.Drivers.Drive
import LevOS.Filesystem.DotPaths
import LevOS.Filesystem.Propagation

/-!
# The cause of an I/O error

When a call returns `FAT32_EIO` the shell prints the error that the driver has on record
as its cause. The driver puts the status of every read on record, but for a sector that a
28-bit address cannot name, which it refuses without a record. The block layer lets such
a sector through when the capacity of the device is not known.

## Main definitions

* `filesystemError`, what the shell prints about a result
* `recordedError`, the error on record after a sequence of requests
* `Recorded`, what the driver's record says between two states of a call

## Main results

* `recorded_respects`
* `eio_has_cause`
-/

namespace LevOS.Filesystem

open LevOS.Drivers

variable {σ γ : Type}

/-! ## The shell's message -/

/-- `filesystem_error`: the pieces of text that the shell prints about a result. -/
def filesystemError (result : Fat32Result) (ata : AtaDevice) : List String :=
  ["filesystem: ", fat32ResultString result] ++
    if result = .eio then [" (", ataPioErrorString ata.lastError, ")"] else []

/-! ## The record -/

/-- The error on record after a sequence of requests: the status of the last one that
names a sector that 28 bits address. -/
def recordedError (error : Int) (requests : List Request) : Int :=
  requests.foldl
    (fun error request => if request.sector.toNat < 2 ^ 28 then request.status else error) error

theorem recordedError_append (error : Int) (first second : List Request) :
    recordedError error (first ++ second) = recordedError (recordedError error first) second :=
  List.foldl_append

/-- Behind a read that succeeded, no error is on record. -/
theorem recordedError_good {error : Int} {requests : List Request}
    (hgood : ∀ request ∈ requests, request.status = 0 ∧ request.sector.toNat < 2 ^ 28) :
    recordedError error requests = if requests = [] then error else 0 := by
  -- from the end: the last request alone decides
  induction requests using List.reverseRecOn with
  | nil => rfl
  | append_singleton requests request _ =>
    obtain ⟨hstatus, hnear⟩ := hgood request (by simp)
    rw [recordedError_append, if_neg (by simp), recordedError, List.foldl_cons, List.foldl_nil,
      if_pos hnear, hstatus]

/-- Between two states reads have been made that succeeded, and then perhaps one that
failed. If nothing else changes the driver's record (`kept`), the error on record follows
from the requests; behind a failed read it does in any case. -/
structure Recorded (kept : Prop) (s s' : FsState (AtaDevice × σ)) (new : List Request)
    (failed : Prop) : Prop where
  sectorSize : s'.bus.outside.1.sectorSize = 512
  requests : s'.bus.requests = s.bus.requests ++ new
  good : ¬ failed → ∀ request ∈ new, request.status = 0 ∧ request.sector.toNat < 2 ^ 28
  bad : failed → ∃ first last, new = first ++ [last] ∧
    (∀ request ∈ first, request.status = 0 ∧ request.sector.toNat < 2 ^ 28) ∧ last.status ≠ 0 ∧
      (last.sector.toNat < 2 ^ 28 → s'.bus.outside.1.lastError = last.status)
  recorded : kept → s'.bus.outside.1.lastError = recordedError s.bus.outside.1.lastError new

/-- The driver accepts the device before, and there are requests as described. -/
def Records (kept : Prop) (s s' : FsState (AtaDevice × σ)) (failed : Prop) : Prop :=
  s.bus.outside.1.sectorSize = 512 → ∃ new, Recorded kept s s' new failed

theorem Recorded.refl (kept : Prop) {s : FsState (AtaDevice × σ)}
    (hsize : s.bus.outside.1.sectorSize = 512) : Recorded kept s s [] False where
  sectorSize := hsize
  requests := by simp
  good := by simp
  bad := False.elim
  recorded _ := rfl

theorem Recorded.trans {kept failed : Prop} {s s' s'' : FsState (AtaDevice × σ)}
    {first second : List Request} (h : Recorded kept s s' first False)
    (h' : Recorded kept s' s'' second failed) : Recorded kept s s'' (first ++ second) failed where
  sectorSize := h'.sectorSize
  requests := by rw [h'.requests, h.requests, List.append_assoc]
  good hnot := List.forall_mem_append.mpr ⟨h.good id, h'.good hnot⟩
  bad hfailed := by
    obtain ⟨good, last, rfl, hgood, hlast⟩ := h'.bad hfailed
    exact ⟨first ++ good, last, (List.append_assoc _ _ _).symm,
      List.forall_mem_append.mpr ⟨h.good id, hgood⟩, hlast⟩
  recorded hkept := by rw [h'.recorded hkept, h.recorded hkept, recordedError_append]

/-- Every read in a volume on the driver's device is recorded. -/
theorem recorded_respects {ports : Ports σ} {device : AtaDevice} (total : Nat) (kept : Prop) :
    Respects (device.block ports) total (Records kept) where
  refl _ hsize := ⟨[], .refl kept hsize⟩
  trans h h' hsize := by
    obtain ⟨first, hfirst⟩ := h hsize
    obtain ⟨second, hsecond⟩ := h' hfirst.sectorSize
    exact ⟨first ++ second, hfirst.trans hsecond⟩
  read {s sector} g hsector hsize := by
    obtain ⟨hkeeps, hrecord⟩ := ataPioReadSector_recorded ports hsize
      (s.fs.volumeStart + sector) s.fs.sectorBuffer s.bus.outside.2
    rw [g.readSector_eq hsector]
    unfold FsState.readInto
    rw [g.blockReadSector_eq hsector rfl]
    simp only
    -- what the driver answers only matters through its record and status
    generalize ataPioReadSector ports (s.fs.volumeStart + sector) s.fs.sectorBuffer s.bus.outside.1
      s.bus.outside.2 = answer at hkeeps hrecord
    obtain ⟨buffer, status, record, hardware⟩ := answer
    have hfailed : (if status = 0 then Fat32Result.ok else .eio) = .eio ↔ status ≠ 0 := by
      split_ifs with hstatus <;> simp [hstatus]
    simp only [hfailed] at hkeeps hrecord ⊢
    -- a sector that is refused without a record is not read
    have hnear : status = 0 → (s.fs.volumeStart + sector).toNat < 2 ^ 28 := by
      intro hstatus
      by_contra hfar
      rw [if_neg hfar, hstatus] at hrecord
      exact absurd hrecord.1 (by decide)
    refine ⟨[⟨s.fs.volumeStart + sector, status⟩], hkeeps, rfl, fun hread => ?_, fun hread => ?_,
      fun _ => ?_⟩
    · rintro request hmem
      obtain rfl := List.mem_singleton.mp hmem
      exact ⟨not_not.mp hread, hnear (not_not.mp hread)⟩
    · refine ⟨[], ⟨s.fs.volumeStart + sector, status⟩, rfl, by simp, hread, fun hsector => ?_⟩
      rwa [if_pos hsector] at hrecord
    · simp only [recordedError, List.foldl_cons, List.foldl_nil]
      split_ifs at hrecord ⊢
      · exact hrecord
      · exact congrArg AtaDevice.lastError hrecord.2

/-! ## Calls -/

/-- The callbacks of a call do to the driver's record what is allowed. -/
def FsCall.Treats (allowed : AtaDevice → AtaDevice → Prop) : FsCall (AtaDevice × σ) → Prop
  | .list _ callback _ => ∀ f ∈ callback, ∀ entry context world,
      allowed world.1 (f entry context world).2.2.1
  | _ => True

/-- No callback changes the sector size that the driver's record names. -/
def FsCall.KeepsSectorSize : FsCall (AtaDevice × σ) → Prop :=
  FsCall.Treats fun before after => after.sectorSize = before.sectorSize

/-- No callback changes the driver's record. -/
def FsCall.KeepsRecord : FsCall (AtaDevice × σ) → Prop :=
  FsCall.Treats fun before after => after = before

theorem FsCall.allowed_of_treats {call : FsCall (AtaDevice × σ)} (hsize : call.KeepsSectorSize) :
    call.Allowed (Records call.KeepsRecord) := by
  cases call with
  | mount => trivial
  | list path callback context =>
    intro f hf entry context s hbefore
    refine ⟨[], (hsize f hf entry context _).trans hbefore, by simp, by simp, by simp,
      fun hkept => ?_⟩
    exact congrArg AtaDevice.lastError (hkept f hf entry context _)
  | read => trivial

/-- Behind a failed read an error is on record just in case all sectors asked for can be
named in 28 bits, or there was one request only and an error before it. -/
theorem Recorded.lastError_iff {kept failed : Prop} {s s' : FsState (AtaDevice × σ)}
    {new : List Request} (h : Recorded kept s s' new failed) (hkept : kept) (hfailed : failed) :
    s'.bus.outside.1.lastError ≠ 0 ↔
      (∀ request ∈ new, request.sector.toNat < 2 ^ 28) ∨
        (new.length = 1 ∧ s.bus.outside.1.lastError ≠ 0) := by
  obtain ⟨first, last, rfl, hgood, hstatus, hlast⟩ := h.bad hfailed
  have hall : (∀ request ∈ first ++ [last], request.sector.toNat < 2 ^ 28) ↔
      last.sector.toNat < 2 ^ 28 := by
    simp only [List.forall_mem_append, List.forall_mem_singleton]
    exact and_iff_right fun request hmem => (hgood request hmem).2
  rw [hall]
  by_cases hnear : last.sector.toNat < 2 ^ 28
  · rw [hlast hnear]
    exact iff_of_true hstatus (Or.inl hnear)
  · -- the last request leaves the record as the successful ones before it do
    have hrecord := h.recorded hkept
    rw [recordedError_append, recordedError_good hgood, recordedError, List.foldl_cons,
      List.foldl_nil, if_neg hnear] at hrecord
    rw [hrecord, or_iff_right hnear]
    simp

/-- The state after a sequence of calls. -/
def FsCall.execAll {ω : Type} (calls : List (FsCall ω)) (s : FsState ω) : FsState ω :=
  calls.foldl (fun s call => (call.exec s).2) s

section Runs

variable {ports : Ports σ} {device : AtaDevice} {total : Nat}

/-- A listing or a file read is recorded, and returns `FAT32_EIO` only behind a failed
read. -/
theorem FsCall.exec_recorded {call : FsCall (AtaDevice × σ)} (hcall : call.isMount = false)
    (hkeeps : call.KeepsSectorSize) {s : FsState (AtaDevice × σ)}
    (g : Geometry s.fs (device.block ports) total) (hsize : s.bus.outside.1.sectorSize = 512) :
    ∃ new failed, Recorded call.KeepsRecord s (call.exec s).2 new failed ∧
      ((call.exec s).1 = .eio → failed) := by
  obtain ⟨failed, hrecords, heio⟩ := (recorded_respects total call.KeepsRecord).exec hcall
    (FsCall.allowed_of_treats hkeeps) s g
  obtain ⟨new, hnew⟩ := hrecords hsize
  exact ⟨new, failed, hnew, heio⟩

/-- Between the calls of a run the volume is as it was mounted, and the driver accepts the
device. -/
theorem FsCall.execAll_accepted (calls : List (FsCall (AtaDevice × σ)))
    (hcalls : ∀ call ∈ calls, call.isMount = false ∧ call.KeepsSectorSize)
    {s : FsState (AtaDevice × σ)} (g : Geometry s.fs (device.block ports) total)
    (hsize : s.bus.outside.1.sectorSize = 512) :
    SameVolume s.fs (FsCall.execAll calls s).fs ∧
      (FsCall.execAll calls s).bus.outside.1.sectorSize = 512 := by
  induction calls generalizing s with
  | nil => exact ⟨.refl _, hsize⟩
  | cons call calls ih =>
    obtain ⟨hcall, hkeeps⟩ := hcalls call List.mem_cons_self
    have hsame := (FsCall.exec_confined hcall g).same
    obtain ⟨new, failed, hnew, -⟩ := FsCall.exec_recorded hcall hkeeps g hsize
    obtain ⟨hrest, hsize'⟩ := ih (fun c hc => hcalls c (List.mem_cons_of_mem _ hc))
      (g.of_sameVolume hsame) hnew.sectorSize
    exact ⟨hsame.trans hrest, hsize'⟩

/-- A successful read means that the driver accepted the device. -/
theorem sectorSize_of_holdsSector {sector : UInt32} {s : FsState (AtaDevice × σ)}
    (h : HoldsSector (device.block ports) sector s) : s.bus.outside.1.sectorSize = 512 := by
  obtain ⟨buffer, bus, hread⟩ := h
  unfold blockReadSector AtaDevice.block at hread
  simp only at hread
  split_ifs at hread
  · exact absurd (Prod.mk.inj hread).1 (by decide)
  · exact absurd (Prod.mk.inj hread).1 (by decide)
  · obtain ⟨hstatus, hrest⟩ := Prod.mk.inj hread
    rw [← (Prod.mk.inj hrest).2]
    -- the driver refuses a device of another sector size
    by_cases hsize : bus.outside.1.sectorSize = 512
    · exact (ataPioReadSector_recorded ports hsize sector buffer bus.outside.2).1
    · have hrefused : (ataPioReadSector ports sector buffer bus.outside.1 bus.outside.2).2.status =
          ataPioEinval := by
        unfold ataPioReadSector
        rw [if_pos (Or.inl hsize)]
      exact absurd (hrefused.symm.trans hstatus) (by decide)

end Runs

/-- The shell prints the text of no error about a failed read just in case none is on
record. -/
theorem ok_mem_filesystemError_iff (ata : AtaDevice) :
    "ok" ∈ filesystemError .eio ata ↔ ata.lastError = 0 := by
  rw [← ataPioErrorString_eq_ok_iff]
  simp [filesystemError, fat32ResultString, eq_comm]

/-- Causes of I/O errors: in every run of listings and file reads on a volume mounted on a
device that `ata_pio_init` has set up, a call that returns `FAT32_EIO` leaves an error on
record, and the shell names a cause, if all sectors it asked for can be named in 28 bits.
If no callback touches the driver's record, one more case is left: the call asked for one
sector only, and an error was on record before. With a known capacity, or a volume that
ends within `2 ^ 28` sectors, no call asks for other sectors. What is behind the ports may
change with every read, so which sectors a call asks for depends on more than its volume; for
a drive with fixed contents `far_sectors_without_cause` finds them on the disk. -/
theorem eio_has_cause (ports : Ports σ) (hardware : σ) {s₀ s₁ : FsState (AtaDevice × σ)}
    (hmount : fat32Mount (some ((ataPioInit ports hardware).1.block ports)) s₀ = (.ok, s₁))
    (earlier : List (FsCall (AtaDevice × σ))) (call : FsCall (AtaDevice × σ))
    (hcalls : ∀ c ∈ call :: earlier, c.isMount = false ∧ c.KeepsSectorSize) :
    let s := FsCall.execAll earlier s₁
    let answer := call.exec s
    let ata := answer.2.bus.outside.1
    ∃ new, answer.2.bus.requests = s.bus.requests ++ new ∧
      (answer.1 = .eio → (∀ request ∈ new, request.sector.toNat < 2 ^ 28) →
        ata.lastError ≠ 0 ∧ "ok" ∉ filesystemError answer.1 ata) ∧
      (answer.1 = .eio → call.KeepsRecord →
        (ata.lastError ≠ 0 ↔ (∀ request ∈ new, request.sector.toNat < 2 ^ 28) ∨
          (new.length = 1 ∧ s.bus.outside.1.lastError ≠ 0))) ∧
      ((ataPioInit ports hardware).1.sectorCount ≠ 0 ∨
          s₁.fs.volumeStart.toNat + (fat32 s₁.fs.sectorBuffer 32).toNat ≤ 2 ^ 28 →
        ∀ request ∈ new, request.sector.toNat < 2 ^ 28) := by
  intro s answer ata
  obtain ⟨g, hholds, -⟩ := fat32Mount_ok hmount
  obtain ⟨hcall, hkeeps⟩ := hcalls call List.mem_cons_self
  obtain ⟨hsame, hsize⟩ := FsCall.execAll_accepted earlier
    (fun c hc => hcalls c (List.mem_cons_of_mem _ hc)) g (sectorSize_of_holdsSector hholds)
  have g' := g.of_sameVolume hsame
  obtain ⟨new, failed, hnew, heio⟩ := FsCall.exec_recorded hcall hkeeps g' hsize
  refine ⟨new, hnew.requests, fun hresult hnear => ?_, fun hresult hkept => ?_, fun hvolume => ?_⟩
  · obtain ⟨first, last, rfl, -, hstatus, hlast⟩ := hnew.bad (heio hresult)
    have hrecord : ata.lastError ≠ 0 := by
      rw [show ata.lastError = last.status from hlast (hnear last (by simp))]
      exact hstatus
    rw [show answer.1 = .eio from hresult, ok_mem_filesystemError_iff]
    exact ⟨hrecord, hrecord⟩
  · exact hnew.lastError_iff hkept (heio hresult)
  · -- a known capacity bounds the volume, and the volume all requests
    have hend : (FsCall.execAll earlier s₁).fs.volumeStart.toNat +
        (fat32 s₁.fs.sectorBuffer 32).toNat ≤ 2 ^ 28 := by
      rcases hvolume with hknown | hends
      · exact (g'.fits hknown).trans (ataPioInit_sectorCount hardware)
      · rwa [← congrArg Fat32Fs.volumeStart hsame]
    obtain ⟨inside, hinside, hvolume⟩ := (FsCall.exec_confined hcall g').requests
    obtain rfl := List.append_cancel_left (hnew.requests.symm.trans hinside)
    intro request hmem
    have hfat := g'.fat_le
    have hdata := g'.data_le
    rcases hvolume request hmem with ⟨-, htable⟩ | ⟨-, hdata⟩ <;> omega

/-- The words of a disk, as a drive hands them out. -/
def diskWords (contents : Contents) (sector : UInt32) (i : Nat) : UInt16 :=
  (contents sector (2 * i)).toUInt16 ||| (contents sector (2 * i + 1)).toUInt16 <<< 8

/-- A drive at rest that the driver has set up, before the first mount. -/
def attached (drive : Drive (Latches × Phase)) : FsState (AtaDevice × Latches × Phase) :=
  ⟨Fat32Fs.zero, ⟨ataPioInit drive.toPorts (⟨0, 0, 0, 0, 0⟩, .idle), []⟩⟩

/-- A listing of the sample tree whose root directory cannot be read, and a file read
behind it: both fail, with a cause. -/
theorem eio_has_cause_tree :
    let drive := promptDrive (diskWords treeDisk) (· != 2)
    let s := attached drive
    let mount := fat32Mount (some (s.bus.outside.1.block drive.toPorts)) s
    let listing : FsCall (AtaDevice × Latches × Phase) :=
      .list (some rootPath) (some (quiet fun _ (_ : Unit) => (0, ()))) ()
    let read : FsCall (AtaDevice × Latches × Phase) :=
      .read (some ⟨[0x44], by decide⟩) (some fun _ => 0) 512 (some 0)
    let answer := read.exec (FsCall.execAll [listing] mount.2)
    answer.1 = .eio ∧ answer.2.bus.outside.1.lastError ≠ 0 := by
  intro drive s mount listing read answer
  obtain ⟨hmount, hends, hanswer⟩ : mount.1 = .ok ∧
      mount.2.fs.volumeStart.toNat + (fat32 mount.2.fs.sectorBuffer 32).toNat ≤ 2 ^ 28 ∧
      answer.1 = .eio := by decide +kernel
  obtain ⟨new, -, hcause, -, hvolume⟩ := eio_has_cause drive.toPorts (⟨0, 0, 0, 0, 0⟩, .idle)
    (Prod.ext hmount rfl) [listing] read (by
      simp only [List.mem_cons, List.not_mem_nil, or_false, forall_eq_or_imp, forall_eq]
      refine ⟨⟨rfl, trivial⟩, rfl, fun f hf entry context world => ?_⟩
      obtain rfl := Option.some.inj hf
      rfl)
  exact ⟨hanswer, (hcause hanswer (hvolume (Or.inr hends))).1⟩

/-! ### A volume that starts at the last sector that can be named

The boot record of the device has one entry, for a volume of twelve sectors that starts at
sector `0x0FFFFFFF`; its boot sector is that of the sample tree. The words that the drive
hands out when it is identified are those of the boot record, whose words 60 and 61 are
zero: the capacity is not known. -/

/-- The contents of the disk, zero where nothing is listed. -/
def farDisk (sector : UInt32) : Buffer := fun i =>
  match sector.toNat, i with
  | 0, 450 => 0x0C
  | 0, 454 => 0xFF
  | 0, 455 => 0xFF
  | 0, 456 => 0xFF
  | 0, 457 => 0x0F
  | 0, 458 => 12
  | 0, 510 => 0x55
  | 0, 511 => 0xAA
  | 0x0FFFFFFF, i => treeDisk 0 i
  | _, _ => 0

/-- The volume is mounted, and its root directory lies where the driver does not read: the
listing fails, and the shell prints the text of no error as the cause. -/
theorem far_volume_without_cause :
    let drive := promptDrive (diskWords farDisk) fun _ => true
    let s := attached drive
    let mount := fat32Mount (some (s.bus.outside.1.block drive.toPorts)) s
    let listing := fat32ListDirectory (some rootPath) (some (quiet fun _ (_ : Unit) => (0, ())))
      mount.2 ()
    let ata := listing.2.1.bus.outside.1
    s.bus.outside.1.sectorCount = 0 ∧ mount.1 = .ok ∧ listing.1 = .eio ∧ ata.lastError = 0 ∧
      filesystemError listing.1 ata = ["filesystem: ", "disk I/O error", " (", "ok", ")"] := by
  intro drive s mount listing ata
  obtain ⟨hcount, hmount, hlisting, hnone⟩ : s.bus.outside.1.sectorCount = 0 ∧ mount.1 = .ok ∧
      listing.1 = .eio ∧ ata.lastError = 0 := by decide +kernel
  refine ⟨hcount, hmount, hlisting, hnone, ?_⟩
  rw [hlisting, filesystemError, hnone]
  rfl

end LevOS.Filesystem
