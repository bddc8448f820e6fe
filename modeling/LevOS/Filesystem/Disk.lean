import LevOS.Filesystem.Causes
import LevOS.Filesystem.Simulation

/-!
# The disk behind the driver

For its readers a disk is its contents, and which of its sectors can be read. The driver
adds two things: it refuses sectors that 28 bits do not name, and once a command has failed
it finds the error of that command whenever it is called again. The driver on a drive, with
its ports, polls and registers, cannot be told apart from this disk, from the detection of
the drive on.

## Main definitions

* `disk`, the disk that the readers see, and `image`, one without a fault
* `IdentifyingDrive`, a drive that answers the identify command
* `StandsFor`, the driver's record and the drive stand for a state of the disk

## Main results

* `drive_simulates`, the driver on a drive answers as the disk does
* `image_faulty`, the sectors of an image that cannot be read
* `IdentifyingDrive.init`, detection finds the drive
* `driveRun_refines`
-/

namespace LevOS.Filesystem

open LevOS.Drivers LevOS.Foundation

/-! ## The disk -/

/-- Whether a command has failed, and the error on record. -/
structure DiskState where
  failed : Bool
  lastError : Int
  deriving DecidableEq

/-- A disk of given contents. A read of an unreadable sector fails, and so do all reads
behind it; a sector number that is too large for the driver is refused. -/
def disk (sectorCount : UInt32) (bytes : UInt32 → Buffer) (readable : UInt32 → Bool) :
    BlockDevice DiskState where
  sectorSize := 512
  sectorCount := sectorCount
  readSector := some fun sector buffer d =>
    if 0x0FFFFFFF < sector then (ataPioEinval, buffer, d)
    else if d.failed || !readable sector then (ataPioEstatus, buffer, ⟨true, ataPioEstatus⟩)
    else (0, fun i => if i < 512 then bytes sector i else buffer i, ⟨false, 0⟩)

/-- A disk whose sectors can all be read has nothing to remember. -/
def image (sectorCount : UInt32) (bytes : UInt32 → Buffer) : BlockDevice Unit where
  sectorSize := 512
  sectorCount := sectorCount
  readSector := some fun sector buffer outside =>
    if 0x0FFFFFFF < sector then (ataPioEinval, buffer, outside)
    else (0, fun i => if i < 512 then bytes sector i else buffer i, outside)

/-- Nothing has failed so far. -/
def Flawless (d : DiskState) (_ : Unit) : Prop := d = ⟨false, 0⟩

theorem disk_simulates_image (sectorCount : UInt32) (bytes : UInt32 → Buffer)
    {readable : UInt32 → Bool} (hreadable : ∀ sector, readable sector = true) :
    Simulates (OnBus Flawless) (disk sectorCount bytes readable) (image sectorCount bytes) := by
  refine .of_answers rfl rfl rfl rfl ?_
  rintro sector buffer d outside rfl
  by_cases hfar : 0x0FFFFFFF < sector
  · simp only [if_pos hfar]
    exact ⟨rfl, rfl, rfl⟩
  · simp only [if_neg hfar, hreadable, Bool.not_true, Bool.or_self, Bool.false_eq_true, if_false]
    exact ⟨rfl, rfl, rfl⟩

/-- The sectors that the driver refuses. -/
def beyondDriver (sector : UInt32) : Bool := 0x0FFFFFFF < sector

theorem image_read (sectorCount : UInt32) (bytes : UInt32 → Buffer) (sector : UInt32)
    (buffer : Buffer) (bus : Bus Unit) :
    blockReadSector (image sectorCount bytes) sector buffer bus =
      if sectorCount ≠ 0 ∧ sectorCount ≤ sector then (-1, buffer, bus)
      else if beyondDriver sector then
        (ataPioEinval, buffer, ⟨(), bus.requests ++ [⟨sector, ataPioEinval⟩]⟩)
      else
        (0, fun i => if i < 512 then bytes sector i else buffer i,
          ⟨(), bus.requests ++ [⟨sector, 0⟩]⟩) := by
  unfold blockReadSector
  by_cases hfar : 0x0FFFFFFF < sector
  · simp [image, beyondDriver, hfar]
  · simp [image, beyondDriver, hfar]

/-- Just those sectors of an image cannot be read that the driver refuses. -/
theorem image_faulty (sectorCount : UInt32) (bytes : UInt32 → Buffer) :
    Faulty (image sectorCount bytes) bytes beyondDriver where
  answers := by
    intro sector buffer bus hok i hi
    rw [image_read] at hok ⊢
    split_ifs at hok ⊢ with hpast hfar
    · cases hok
    · cases hok
    · exact if_pos hi
  present := rfl
  status_iff sector buffer bus hinside := by
    have hpresent : ¬ (sectorCount ≠ 0 ∧ sectorCount ≤ sector) := fun ⟨hknown, hpast⟩ =>
      absurd (hinside hknown) (UInt32.not_lt.mpr hpast)
    rw [image_read, if_neg hpresent]
    cases beyondDriver sector with
    | true => exact iff_of_false (by decide : ataPioEinval ≠ 0) (by decide)
    | false => exact iff_of_true rfl rfl

/-- An image of at most as many sectors as 28 bits name can be read throughout. -/
theorem image_readable {sectorCount : UInt32} (hknown : sectorCount ≠ 0)
    (hle : sectorCount ≤ 0x10000000) (bytes : UInt32 → Buffer) :
    Readable (image sectorCount bytes) bytes := by
  have hfaulty := image_faulty sectorCount bytes
  refine ⟨hfaulty.answers, fun sector buffer bus hinside =>
    (hfaulty.status_iff sector buffer bus hinside).mpr ?_⟩
  -- a sector that the image has is one that the driver can name
  have hlt := UInt32.lt_iff_toNat_lt.mp (hinside hknown)
  have hcount := UInt32.le_iff_toNat_le.mp hle
  simp only [beyondDriver, decide_eq_false_iff_not, UInt32.not_lt, UInt32.le_iff_toNat_le]
  simp [image] at hlt hcount ⊢
  omega

/-! ## The driver's reads -/

section

variable {σ : Type} {drive : Drive σ}

/-- The driver's record and the drive between two reads stand for a state of the disk. -/
structure StandsFor (drive : Drive σ) (world : AtaDevice × σ) (d : DiskState) : Prop where
  configured : world.1.Configured
  present : world.1.present ≠ 0
  resting : drive.Resting d.failed world.2
  lastError : world.1.lastError = d.lastError

theorem StandsFor.failure {world : AtaDevice × σ} {d : DiskState} (h : StandsFor drive world d)
    {hardware : σ} (hresting : drive.Resting true hardware) :
    StandsFor drive (ataFail world.1 ataPioEstatus, hardware) ⟨true, ataPioEstatus⟩ where
  configured := ⟨h.configured.sectorSize, h.configured.ioBase, h.configured.driveSelect⟩
  present := h.present
  resting := hresting
  lastError := rfl

/-- A read of a sector that 28 bits do not name does not reach the drive. -/
theorem ataPioReadSector_far {ports : Ports σ} {sector : UInt32} (hfar : 0x0FFFFFFF < sector)
    (buffer : Buffer) (device : AtaDevice) (hardware : σ) :
    ataPioReadSector ports sector buffer device hardware =
      (buffer, ⟨ataPioEinval, device, hardware⟩) := by
  unfold ataPioReadSector
  exact if_pos (Or.inr hfar)

/-- The driver on a drive answers as the disk does. -/
theorem drive_simulates (drive : Drive σ) {device : AtaDevice} (hsize : device.sectorSize = 512) :
    Simulates (OnBus (StandsFor drive)) (device.block drive.toPorts)
      (disk device.sectorCount drive.bytes drive.readable) := by
  refine .of_answers hsize rfl rfl rfl fun sector buffer world d h => ?_
  by_cases hfar : 0x0FFFFFFF < sector
  · rw [if_pos hfar, ataPioReadSector_far hfar]
    exact ⟨rfl, rfl, h⟩
  have hsector : sector.toNat < 2 ^ 28 := by
    have := UInt32.le_iff_toNat_le.mp (UInt32.not_lt.mp hfar)
    simp at this
    omega
  rw [if_neg hfar]
  obtain ⟨failed, lastError⟩ := d
  -- after a failed read all later ones fail
  cases failed with
  | true =>
    obtain ⟨hardware, hread, hresting⟩ :=
      Drive.read_after_failure h.configured h.present hsector buffer h.resting
    rw [if_pos (by simp), hread]
    exact ⟨rfl, rfl, h.failure hresting⟩
  | false =>
    cases hreadable : drive.readable sector with
    | false =>
      obtain ⟨hardware, hread, hresting⟩ :=
        Drive.read_unreadable h.configured h.present hsector hreadable buffer h.resting
      rw [if_pos (by simp), hread]
      exact ⟨rfl, rfl, h.failure hresting⟩
    | true =>
      obtain ⟨buffer', hardware, hread, hresting, hbytes⟩ :=
        Drive.read_readable h.configured h.present hsector hreadable buffer h.resting
      rw [if_neg (by simp), hread]
      exact ⟨rfl, funext hbytes, ⟨h.configured.sectorSize, h.configured.ioBase,
        h.configured.driveSelect⟩, h.present, hresting, rfl⟩

end

/-! ## Detection -/

/-- The number under which a drive serves what identifies it: behind the last sector that
28 bits name. -/
def identifyPage : UInt32 := 0x10000000

/-- A drive that answers the identify command of its master. -/
structure IdentifyingDrive (σ : Type) extends Drive σ where
  identify : ∀ h, busy h = 0 → (latches h).hddevsel &&& 0x10 = 0 →
    busy (outb 0x1F7 0xEC h) < 1000000 ∧ phase (outb 0x1F7 0xEC h) = .serving identifyPage 0

namespace IdentifyingDrive

variable {σ : Type}

/-- The number of sectors in words 60 and 61 of what identifies the drive, as far as 28
bits name them; zero stands for an unknown number. -/
def capacity (drive : IdentifyingDrive σ) : UInt32 :=
  let sectors := (drive.words identifyPage 60).toUInt32 |||
    ((drive.words identifyPage 61).toUInt32 <<< 16)
  if 0x10000000 < sectors then 0x10000000 else sectors

theorem capacity_le (drive : IdentifyingDrive σ) : drive.capacity ≤ 0x10000000 := by
  unfold capacity
  simp only
  split_ifs with hlarge
  · exact UInt32.le_refl _
  · exact UInt32.not_lt.mp hlarge

variable {drive : IdentifyingDrive σ} {device : AtaDevice} {h : σ}

theorem inputWords_serving (hdevice : device.Configured) (hbusy : drive.busy h = 0)
    (hphase : drive.phase h = .serving identifyPage 0) {n : Nat} (hn : n < 256) :
    drive.busy (inputWords drive.toPorts device n h).2 = 0 ∧
      drive.phase (inputWords drive.toPorts device n h).2 = .serving identifyPage n := by
  induction n with
  | zero => exact ⟨hbusy, hphase⟩
  | succ n ih =>
    obtain ⟨hready, hserving⟩ := ih (by omega)
    rw [inputWords, hdevice.ioBase]
    exact drive.data_next _ identifyPage n hready hserving hn

theorem inputWords_words (hdevice : device.Configured) (hbusy : drive.busy h = 0)
    (hphase : drive.phase h = .serving identifyPage 0) {n : Nat} (hn : n ≤ 256) {i : Nat}
    (hi : i < n) :
    (inputWords drive.toPorts device n h).1 i = drive.words identifyPage i := by
  induction n with
  | zero => exact absurd hi (Nat.not_lt_zero i)
  | succ n ih =>
    obtain ⟨hready, hserving⟩ := inputWords_serving hdevice hbusy hphase (Nat.lt_of_succ_le hn)
    rw [inputWords, hdevice.ioBase]
    simp only
    rcases Nat.lt_succ_iff_lt_or_eq.mp hi with hold | rfl
    · rw [Function.update_of_ne hold.ne]
      exact ih (by omega) hold
    · rw [Function.update_self]
      exact drive.data _ identifyPage i hready hserving (Nat.lt_of_succ_le hn)

/-- After the last word the drive is idle again. -/
theorem inputWords_done (hdevice : device.Configured) (hbusy : drive.busy h = 0)
    (hphase : drive.phase h = .serving identifyPage 0) {n : Nat} (hn : n = 255) :
    drive.Resting false (inputWords drive.toPorts device (n + 1) h).2 := by
  obtain ⟨hready, hserving⟩ := inputWords_serving hdevice hbusy hphase (show n < 256 by omega)
  rw [inputWords, hdevice.ioBase]
  exact drive.data_last _ identifyPage hready (hn ▸ hserving)

/-- The driver's record of a drive that it has found. -/
def found (drive : IdentifyingDrive σ) : AtaDevice where
  sectorSize := 512
  sectorCount := drive.capacity
  ioBase := 0x1F0
  driveSelect := 0xE0
  present := 1
  lastError := 0

/-- The status of an idle drive is not that of an empty bus. -/
theorem status_of_idle (hidle : drive.phase h = .idle) :
    ¬ ((drive.inb 0x1F7 h).1 = 0 ∨ (drive.inb 0x1F7 h).1 = 0xFF) := by
  by_cases hbusy : drive.busy h = 0
  · obtain ⟨hbit, -, hnonzero⟩ := drive.status_idle h hbusy hidle
    rintro (hzero | hfloating)
    · exact hnonzero hzero
    · rw [hfloating] at hbit
      exact absurd hbit (by decide)
  · obtain ⟨hbit, herror⟩ := drive.status_busy h hbusy
    rintro (hzero | hfloating)
    · exact hbit (by rw [hzero]; rfl)
    · rw [hfloating] at herror
      exact absurd herror (by decide)

/-- The address registers are cleared, and then the drive is asked to identify itself. -/
theorem command_identify (hbusy : drive.busy h = 0)
    (hselect : (drive.latches h).hddevsel &&& 0x10 = 0) :
    let h' := drive.outb 0x1F7 0xEC (drive.outb 0x1F5 0 (drive.outb 0x1F4 0 (drive.outb 0x1F3 0
      (drive.outb 0x1F2 0 h))))
    drive.busy h' < 1000000 ∧ drive.phase h' = .serving identifyPage 0 := by
  obtain ⟨hbusy1, -, hlatches1⟩ := drive.write_seccount0 h 0 hbusy
  obtain ⟨hbusy2, -, hlatches2⟩ := drive.write_lba0 _ 0 hbusy1
  obtain ⟨hbusy3, -, hlatches3⟩ := drive.write_lba1 _ 0 hbusy2
  obtain ⟨hbusy4, -, hlatches4⟩ := drive.write_lba2 _ 0 hbusy3
  refine drive.identify _ hbusy4 ?_
  rwa [hlatches4, hlatches3, hlatches2, hlatches1]

/-- Detection finds an idle drive, takes its capacity and leaves it idle. -/
theorem init (drive : IdentifyingDrive σ) {h : σ} (hbusy : drive.busy h = 0)
    (hphase : drive.phase h = .idle) :
    ∃ h', ataPioInit drive.toPorts h = (drive.found, h') ∧ drive.Resting false h' := by
  let device : AtaDevice := ⟨512, 0, 0x1F0, 0xE0, 0, ataPioEnodev⟩
  have hdevice : device.Configured := ⟨rfl, rfl, rfl⟩
  -- selecting the drive may keep it busy
  obtain ⟨hbusy₁, hphase₁, hlatches₁⟩ := drive.write_hddevsel h 0xE0 hbusy
  obtain ⟨hlatches₂, hphase₂, hbusy₂⟩ := drive.delay_keeps hdevice (drive.outb 0x1F6 0xE0 h)
  set h₂ := ataDelay drive.toPorts device (drive.outb 0x1F6 0xE0 h) with hdelayed
  have hidle₂ : drive.phase h₂ = .idle := hphase₂.trans (hphase₁.trans hphase)
  obtain ⟨hlatches₃, hphase₃, hbusy₃⟩ := drive.status_keeps h₂
  have hsoon : drive.busy (drive.inb 0x1F7 h₂).2 < 1000000 := by omega
  obtain ⟨h₄, hwait₄, hwaited₄⟩ := Drive.wait_ready hdevice false hsoon
    (by rw [hphase₃, hidle₂]; simp) (fun hrequest => absurd hrequest (by simp))
  -- the command makes it serve what identifies it
  have hselect : (drive.latches h₄).hddevsel &&& 0x10 = 0 := by
    rw [hwaited₄.latches, hlatches₃, hlatches₂, hlatches₁]
    exact (by decide : (0xE0 : UInt8) &&& 0x10 = 0)
  obtain ⟨hbusy₅, hphase₅⟩ := command_identify hwaited₄.busy hselect
  obtain ⟨h₆, hwait₆, hwaited₆⟩ := Drive.wait_ready hdevice true hbusy₅
    (by rw [hphase₅]; simp) (fun _ => ⟨_, _, hphase₅⟩)
  have hserving : drive.phase h₆ = .serving identifyPage 0 := hwaited₆.phase.trans hphase₅
  refine ⟨(inputWords drive.toPorts device 256 h₆).2, ?_, ?_⟩
  · -- an unknown number of sectors stays zero
    have hcapacity (sectors : UInt32) :
        (if ¬ sectors = 0 then if 0x10000000 < sectors then 0x10000000 else sectors else 0) =
          if 0x10000000 < sectors then 0x10000000 else sectors := by
      by_cases hnone : sectors = 0
      · rw [hnone]
        rfl
      · rw [if_pos hnone]
    have hword (i : Nat) (hi : i < 256) :
        (inputWords drive.toPorts device 256 h₆).1 i = drive.words identifyPage i :=
      inputWords_words hdevice hwaited₆.busy hserving (Nat.le_refl 256) hi
    unfold ataPioInit
    simp only [ataStatus, show (0x1F0 : UInt16) + 6 = 0x1F6 from rfl,
      show (0x1F0 : UInt16) + 7 = 0x1F7 from rfl]
    rw [← hdelayed, if_neg (status_of_idle hidle₂), hwait₄]
    simp only [ne_eq, not_true_eq_false, if_false, show (0x1F0 : UInt16) + 2 = 0x1F2 from rfl,
      show (0x1F0 : UInt16) + 3 = 0x1F3 from rfl, show (0x1F0 : UInt16) + 4 = 0x1F4 from rfl,
      show (0x1F0 : UInt16) + 5 = 0x1F5 from rfl, hwait₆, hword 60 (by omega), hword 61 (by omega)]
    simp only [device, hcapacity]
    rw [found, capacity]
  · exact inputWords_done (n := 255) hdevice hwaited₆.busy hserving rfl

end IdentifyingDrive

/-! ## Runs -/

/-- The file system object and the driver's record at boot, after the detection. -/
def detected {σ : Type} (ports : Ports σ) (hardware : σ) : FsState (AtaDevice × σ) :=
  ⟨Fat32Fs.zero, ⟨ataPioInit ports hardware, []⟩⟩

/-- The file system on a disk that nothing has been read from. -/
def fresh : FsState DiskState := ⟨Fat32Fs.zero, ⟨⟨false, 0⟩, []⟩⟩

theorem detected_matches {σ : Type} (drive : IdentifyingDrive σ) {h : σ} (hbusy : drive.busy h = 0)
    (hphase : drive.phase h = .idle) :
    (detected drive.toPorts h).Matches (OnBus (StandsFor drive.toDrive)) fresh := by
  obtain ⟨h', hinit, hresting⟩ := drive.init hbusy hphase
  refine ⟨.none, rfl, ?_, rfl⟩
  simp only [detected, hinit]
  exact ⟨⟨rfl, rfl, rfl⟩, (by decide : (1 : UInt8) ≠ 0), hresting, rfl⟩

/-- Once it has been detected, a drive answers as the disk does. -/
theorem IdentifyingDrive.simulates {σ : Type} (drive : IdentifyingDrive σ) {h : σ}
    (hbusy : drive.busy h = 0) (hphase : drive.phase h = .idle) :
    Simulates (OnBus (StandsFor drive.toDrive))
      ((ataPioInit drive.toPorts h).1.block drive.toPorts)
      (disk drive.capacity drive.bytes drive.readable) := by
  obtain ⟨h', hinit, -⟩ := drive.init hbusy hphase
  rw [show (ataPioInit drive.toPorts h).1 = drive.found by rw [hinit]]
  exact drive_simulates drive.toDrive (show drive.found.sectorSize = 512 from rfl)

/-- The driver on a drive refines the disk: whatever is on the drive, whichever of its
sectors cannot be read, and whatever sequence of mounts, listings and file reads is made from
the detection of the drive on, each call returns what it returns on the disk, the same sectors
are asked for with the same answers, and the same error is on record. -/
theorem driveRun_refines {σ : Type} (drive : IdentifyingDrive σ) {h : σ} (hbusy : drive.busy h = 0)
    (hphase : drive.phase h = .idle) (calls : List DiskCall) :
    let device := (ataPioInit drive.toPorts h).1.block drive.toPorts
    let run := runAll (DiskCall.exec device) calls (detected drive.toPorts h)
    let run' := runAll (DiskCall.exec (disk drive.capacity drive.bytes drive.readable)) calls fresh
    run.1 = run'.1 ∧ run.2.bus.requests = run'.2.bus.requests ∧
      run.2.bus.outside.1.lastError = run'.2.bus.outside.lastError := by
  intro device run run'
  obtain ⟨hreplies, hstate⟩ :=
    Alike.runAll (drive.simulates hbusy hphase).exec calls (detected_matches drive hbusy hphase)
  exact ⟨hreplies, hstate.bus.requests, hstate.bus.outside.lastError⟩

/-! ## Drives without a fault -/

/-- The file system on an image, before it is mounted. -/
def pristine : FsState Unit := ⟨Fat32Fs.zero, ⟨(), []⟩⟩

section

variable {σ : Type} (drive : IdentifyingDrive σ) {h : σ}

/-- What is behind the block layer is a drive without a fault. -/
abbrev OnImage : Bus (AtaDevice × σ) → Bus Unit → Prop :=
  Relation.Comp (OnBus (StandsFor drive.toDrive)) (OnBus Flawless)

theorem detected_matches_pristine (hbusy : drive.busy h = 0) (hphase : drive.phase h = .idle) :
    (detected drive.toPorts h).Matches (OnImage drive) pristine :=
  ⟨.none, rfl, fresh.bus, (detected_matches drive hbusy hphase).bus, rfl, rfl⟩

/-- No error is on record behind a drive without a fault. -/
theorem OnImage.lastError {bus : Bus (AtaDevice × σ)} {bus' : Bus Unit} (h : OnImage drive bus bus') :
    bus.outside.1.lastError = 0 := by
  obtain ⟨middle, hbus, hflaw⟩ := h
  exact hbus.outside.lastError.trans (congrArg DiskState.lastError hflaw.outside)

end

/-! ## A sample -/

/-- A drive that is never busy, and answers the identify command as well. -/
def promptIdentifyingDrive (words : UInt32 → Nat → UInt16) (readable : UInt32 → Bool) :
    IdentifyingDrive (Latches × Phase) where
  toDrive :=
    { promptDrive words readable with
      outb := fun port value h =>
        if port = 0x1F7 ∧ value = 0xEC then (h.1, .serving identifyPage 0)
        else (promptDrive words readable).outb port value h
      write_seccount0 := fun _ _ _ => ⟨rfl, rfl, rfl⟩
      write_lba0 := fun _ _ _ => ⟨rfl, rfl, rfl⟩
      write_lba1 := fun _ _ _ => ⟨rfl, rfl, rfl⟩
      write_lba2 := fun _ _ _ => ⟨rfl, rfl, rfl⟩
      write_hddevsel := fun _ _ _ => ⟨Nat.succ_pos 999999, rfl, rfl⟩
      command := fun _ _ _ _ => ⟨Nat.succ_pos 999999, rfl⟩ }
  identify _ _ _ := ⟨Nat.succ_pos 999999, rfl⟩

/-- The sample tree with a root directory that cannot be read: the mount succeeds, the
listing fails, and so does a second mount. -/
theorem driveRun_refines_tree :
    let drive := promptIdentifyingDrive (diskWords treeDisk) (· != 2)
    let calls := [.mount, .list (some rootPath) (some fun _ _ => 0), .mount]
    let device := (ataPioInit drive.toPorts (⟨0, 0, 0, 0, 0⟩, .idle)).1.block drive.toPorts
    (runAll (DiskCall.exec device) calls
        (detected drive.toPorts (⟨0, 0, 0, 0, 0⟩, .idle))).1.map DiskReply.result =
      [.ok, .eio, .eio] := by
  intro drive calls device
  have hsame := (driveRun_refines (promptIdentifyingDrive (diskWords treeDisk) (· != 2))
    (h := (⟨0, 0, 0, 0, 0⟩, .idle)) rfl rfl calls).1
  rw [hsame]
  decide +kernel

end LevOS.Filesystem
