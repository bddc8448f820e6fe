import LevOS.Drivers.Block

/-!
# The ATA driver

`drivers/ata.c` reads sectors from the primary master in programmed I/O mode: it
writes an address into the drive's registers, issues a command, polls the status
register and takes the data word by word. The hardware behind the ports is a
parameter of the model, with a state of its own that any access may change.

The record of a device is reached through the context pointer of its own block
record, and pointers given to the driver are never null here: callers check them.

## Main definitions

* `Ports`, the hardware as the port instructions meet it
* `AtaDevice`, the driver's record of a device
* `ataWait`, `ataPioInit`, `ataPioReadSector`

## Main results

* `ataPioInit_sectorCount`, the capacity never exceeds what 28 bits address
* `ataPioReadSector_recorded`, a read leaves its status on record, but for an address that
  28 bits do not hold
-/

namespace LevOS.Drivers

/-- Hardware behind the ports: every access returns the state it leaves behind. -/
structure Ports (σ : Type) where
  inb : UInt16 → σ → UInt8 × σ
  inw : UInt16 → σ → UInt16 × σ
  outb : UInt16 → UInt8 → σ → σ

/-- `ata_pio_device_t`, with the geometry of its block record. -/
structure AtaDevice where
  sectorSize : UInt32
  sectorCount : UInt32
  ioBase : UInt16
  driveSelect : UInt8
  present : UInt8
  lastError : Int
  deriving DecidableEq

/-- What a step of the driver returns and leaves behind. -/
structure AtaReply (σ : Type) where
  status : Int
  device : AtaDevice
  hardware : σ

/-! ## Errors -/

def ataPioEinval : Int := -1
def ataPioEnodev : Int := -2
def ataPioEstatus : Int := -3
def ataPioEtimeout : Int := -4
def ataPioEdrq : Int := -5

/-- `ata_fail`: record an error, and forget the device if there is none. -/
def ataFail (device : AtaDevice) (error : Int) : AtaDevice :=
  { device with
    lastError := error
    present := if error = ataPioEnodev then 0 else device.present }

/-- `ata_pio_error_string`. -/
def ataPioErrorString (error : Int) : String :=
  if error = 0 then "ok"
  else if error = ataPioEinval then "invalid argument"
  else if error = ataPioEnodev then "ATA primary-master device not present"
  else if error = ataPioEstatus then "ATA device reported an error"
  else if error = ataPioEtimeout then "ATA device timed out"
  else if error = ataPioEdrq then "ATA device did not request data"
  else "ATA I/O error"

/-- Only for no error is the text that of none. -/
theorem ataPioErrorString_eq_ok_iff (error : Int) : ataPioErrorString error = "ok" ↔ error = 0 := by
  unfold ataPioErrorString
  split_ifs with hnone <;> simp [hnone]

section

variable {σ : Type} (ports : Ports σ)

/-! ## Waiting -/

/-- `ata_status`. -/
def ataStatus (device : AtaDevice) (hardware : σ) : UInt8 × σ :=
  ports.inb (device.ioBase + 7) hardware

/-- `ata_delay`: four reads of the alternate status. -/
def ataDelay (device : AtaDevice) (hardware : σ) : σ :=
  let read := fun hardware => (ports.inb (device.ioBase + 0x206) hardware).2
  read (read (read (read hardware)))

/-- The polling loop of `ata_wait` with `n` turns left. -/
def ataPoll (device : AtaDevice) (dataRequest : Bool) : Nat → σ → AtaReply σ
  | 0, hardware => ⟨ataPioEtimeout, ataFail device ataPioEtimeout, hardware⟩
  | n + 1, hardware =>
    let (status, hardware) := ataStatus ports device hardware
    -- a floating bus reads as one of these
    if status = 0 ∨ status = 0xFF then ⟨ataPioEnodev, ataFail device ataPioEnodev, hardware⟩
    else if status &&& (0x01 ||| 0x20) ≠ 0 then
      ⟨ataPioEstatus, ataFail device ataPioEstatus, hardware⟩
    else if status &&& 0x80 = 0 ∧ (!dataRequest ∨ status &&& 0x08 ≠ 0) then ⟨0, device, hardware⟩
    -- still busy, or no data yet
    else ataPoll device dataRequest n hardware

/-- `ata_wait`. -/
def ataWait (device : AtaDevice) (dataRequest : Bool) (hardware : σ) : AtaReply σ :=
  ataPoll ports device dataRequest 1000000 (ataDelay ports device hardware)

/-! ## Detection -/

/-- Read `n` words of data from a device. -/
def inputWords (device : AtaDevice) : Nat → σ → (Nat → UInt16) × σ
  | 0, hardware => (fun _ => 0, hardware)
  | n + 1, hardware =>
    let (words, hardware) := inputWords device n hardware
    let (word, hardware) := ports.inw device.ioBase hardware
    (Function.update words n word, hardware)

/-- `ata_pio_init`: probe the primary master with the identify command and take its
capacity from the answer. -/
def ataPioInit (hardware : σ) : AtaDevice × σ :=
  let device : AtaDevice :=
    { sectorSize := 512, sectorCount := 0, ioBase := 0x1F0, driveSelect := 0xE0, present := 0
      lastError := ataPioEnodev }
  let hardware := ataDelay ports device (ports.outb (device.ioBase + 6) device.driveSelect hardware)
  let (status, hardware) := ataStatus ports device hardware
  if status = 0 ∨ status = 0xFF then (device, hardware)
  else
    let ready := ataWait ports device false hardware
    if ready.status ≠ 0 then (ready.device, ready.hardware)
    else
      -- all address registers zero, then the identify command
      let hardware := ports.outb (device.ioBase + 2) 0 ready.hardware
      let hardware := ports.outb (device.ioBase + 3) 0 hardware
      let hardware := ports.outb (device.ioBase + 4) 0 hardware
      let hardware := ports.outb (device.ioBase + 5) 0 hardware
      let hardware := ports.outb (device.ioBase + 7) 0xEC hardware
      let answer := ataWait ports ready.device true hardware
      if answer.status ≠ 0 then (answer.device, answer.hardware)
      else
        let (identify, hardware) := inputWords ports answer.device 256 answer.hardware
        -- words 60 and 61 have the number of sectors that 28 bits address
        let sectors := (identify 60).toUInt32 ||| ((identify 61).toUInt32 <<< 16)
        ({ answer.device with
            sectorCount :=
              if sectors ≠ 0 then if 0x10000000 < sectors then 0x10000000 else sectors
              else answer.device.sectorCount
            present := 1
            lastError := 0 }, hardware)

/-! ## Reading -/

/-- `words[i] = word` in a buffer of bytes. -/
def storeWord (buffer : Buffer) (i : Nat) (word : UInt16) : Buffer :=
  Function.update (Function.update buffer (2 * i) word.toUInt8) (2 * i + 1) (word >>> 8).toUInt8

/-- The loop that takes the first `n` words of a sector into the buffer. -/
def inputSector (device : AtaDevice) (buffer : Buffer) : Nat → σ → Buffer × σ
  | 0, hardware => (buffer, hardware)
  | n + 1, hardware =>
    let (buffer, hardware) := inputSector device buffer n hardware
    let (word, hardware) := ports.inw device.ioBase hardware
    (storeWord buffer n word, hardware)

/-- The part of `ata_pio_read_sector` after the command: wait for the data and take
them. -/
def ataReceive (buffer : Buffer) (device : AtaDevice) (hardware : σ) : Buffer × AtaReply σ :=
  let served := ataWait ports device true hardware
  if served.status ≠ 0 then (buffer, { served with status := served.device.lastError })
  else
    let device := served.device
    let (status, hardware) := ports.inb (device.ioBase + 7) served.hardware
    -- the status is checked again before any data are taken
    if status &&& (0x01 ||| 0x20) ≠ 0 then
      (buffer, ⟨ataPioEstatus, ataFail device ataPioEstatus, hardware⟩)
    else if status &&& 0x08 = 0 then (buffer, ⟨ataPioEdrq, ataFail device ataPioEdrq, hardware⟩)
    else
      let (buffer, hardware) := inputSector ports device buffer 256 hardware
      (buffer, ⟨0, { device with lastError := 0 }, hardware⟩)

/-- `ata_pio_read_sector`. -/
def ataPioReadSector (sector : UInt32) (buffer : Buffer) (device : AtaDevice) (hardware : σ) :
    Buffer × AtaReply σ :=
  if device.sectorSize ≠ 512 ∨ 0x0FFFFFFF < sector then (buffer, ⟨ataPioEinval, device, hardware⟩)
  else if device.present = 0 then
    (buffer, ⟨ataPioEnodev, ataFail device ataPioEnodev, hardware⟩)
  else
    let idle := ataWait ports device false hardware
    if idle.status ≠ 0 then (buffer, { idle with status := idle.device.lastError })
    else
      let device := idle.device
      -- the device register has the upper four bits of the address
      let hardware := ports.outb (device.ioBase + 6)
        (device.driveSelect ||| ((sector >>> 24) &&& 0x0F).toUInt8) idle.hardware
      let selected := ataWait ports device false hardware
      if selected.status ≠ 0 then (buffer, { selected with status := selected.device.lastError })
      else
        let device := selected.device
        let hardware := ports.outb (device.ioBase + 2) 1 selected.hardware
        let hardware := ports.outb (device.ioBase + 3) sector.toUInt8 hardware
        let hardware := ports.outb (device.ioBase + 4) (sector >>> 8).toUInt8 hardware
        let hardware := ports.outb (device.ioBase + 5) (sector >>> 16).toUInt8 hardware
        let hardware := ports.outb (device.ioBase + 7) 0x20 hardware
        ataReceive ports buffer device hardware

/-- The block device of an ATA device: its callback acts on the driver's record and
the hardware. -/
def AtaDevice.block (device : AtaDevice) : BlockDevice (AtaDevice × σ) where
  sectorSize := device.sectorSize
  sectorCount := device.sectorCount
  readSector := some fun sector buffer world =>
    let (buffer, reply) := ataPioReadSector ports sector buffer world.1 world.2
    (reply.status, buffer, reply.device, reply.hardware)

/-! ## The capacity -/

variable {ports}

/-- Polling keeps what a failure keeps. -/
theorem ataPoll_keeps {β : Type} (field : AtaDevice → β)
    (hfail : ∀ device error, field (ataFail device error) = field device) (device : AtaDevice)
    (dataRequest : Bool) (n : Nat) (hardware : σ) :
    field (ataPoll ports device dataRequest n hardware).device = field device := by
  induction n generalizing hardware with
  | zero => exact hfail _ _
  | succ n ih =>
    rw [ataPoll]
    simp only
    split_ifs
    · exact hfail _ _
    · exact hfail _ _
    · rfl
    · exact ih _

theorem ataPoll_sectorCount (device : AtaDevice) (dataRequest : Bool) (n : Nat) (hardware : σ) :
    (ataPoll ports device dataRequest n hardware).device.sectorCount = device.sectorCount :=
  ataPoll_keeps AtaDevice.sectorCount (fun _ _ => rfl) device dataRequest n hardware

/-- The capacity taken from a device is unknown or at most `2 ^ 28` sectors. -/
theorem ataPioInit_sectorCount (hardware : σ) :
    (ataPioInit ports hardware).1.sectorCount.toNat ≤ 2 ^ 28 := by
  unfold ataPioInit
  simp only
  -- every way out keeps the capacity at zero, except the last, which caps it
  split_ifs with hstatus hready hanswer hsectors hlarge
  · simp
  · rw [ataWait, ataPoll_sectorCount]
    simp
  · rw [ataWait, ataPoll_sectorCount, ataWait, ataPoll_sectorCount]
    simp
  · simp
  · exact UInt32.le_iff_toNat_le.mp (UInt32.not_lt.mp hlarge)
  · rw [ataWait, ataPoll_sectorCount, ataWait, ataPoll_sectorCount]
    simp

/-! ## The error on record -/

@[simp]
theorem ataFail_sectorSize (device : AtaDevice) (error : Int) :
    (ataFail device error).sectorSize = device.sectorSize := rfl

@[simp]
theorem ataFail_lastError (device : AtaDevice) (error : Int) :
    (ataFail device error).lastError = error := rfl

@[simp]
theorem ataPoll_sectorSize (device : AtaDevice) (dataRequest : Bool) (n : Nat) (hardware : σ) :
    (ataPoll ports device dataRequest n hardware).device.sectorSize = device.sectorSize :=
  ataPoll_keeps AtaDevice.sectorSize (fun _ _ => rfl) device dataRequest n hardware

@[simp]
theorem ataWait_sectorSize (device : AtaDevice) (dataRequest : Bool) (hardware : σ) :
    (ataWait ports device dataRequest hardware).device.sectorSize = device.sectorSize :=
  ataPoll_sectorSize device dataRequest _ _

theorem ataReceive_recorded (buffer : Buffer) (device : AtaDevice) (hardware : σ) :
    let answer := (ataReceive ports buffer device hardware).2
    answer.device.sectorSize = device.sectorSize ∧ answer.device.lastError = answer.status := by
  unfold ataReceive
  simp only
  split_ifs <;> simp

variable (ports) in
/-- A read puts its status on record, whatever the drive does; an address that does not
fit into 28 bits is refused without a record. -/
theorem ataPioReadSector_recorded {device : AtaDevice} (hsize : device.sectorSize = 512)
    (sector : UInt32) (buffer : Buffer) (hardware : σ) :
    let answer := (ataPioReadSector ports sector buffer device hardware).2
    answer.device.sectorSize = 512 ∧
      if sector.toNat < 2 ^ 28 then answer.device.lastError = answer.status
      else answer.status = ataPioEinval ∧ answer.device = device := by
  unfold ataPioReadSector
  by_cases hfar : 0x0FFFFFFF < sector
  · have hlarge : ¬ sector.toNat < 2 ^ 28 := by
      have := UInt32.lt_iff_toNat_lt.mp hfar
      simp at this
      omega
    rw [if_pos (Or.inr hfar)]
    refine ⟨hsize, ?_⟩
    rw [if_neg hlarge]
    exact ⟨rfl, rfl⟩
  · have hnear : sector.toNat < 2 ^ 28 := by
      have := UInt32.le_iff_toNat_le.mp (UInt32.not_lt.mp hfar)
      simp at this
      omega
    rw [if_neg (by simp [hsize, hfar])]
    simp only [if_pos hnear]
    split_ifs
    · simp [hsize]
    · simp [hsize]
    · simp [hsize]
    · refine (ataReceive_recorded buffer _ _).imp (fun hkept => ?_) id
      rw [hkept]
      simp [hsize]

end

end LevOS.Drivers
