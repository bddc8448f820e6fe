import LevOS.Drivers.Ata

/-!
# Reading from a drive

What the driver relies on is stated as a contract between it and the drive: how the
drive answers status polls, when it accepts register writes, which sector a read
command names and how the data come back. A drive may be busy for a while after a
command, and some of its sectors may be unreadable; a failed command leaves the
error bit in the status until the next command is written.

## Main definitions

* `Latches`, the address registers, and `Phase`, what the drive is doing
* `Drive`, hardware that keeps the contract

## Main results

* `Drive.read_readable`, `Drive.read_unreadable`, `Drive.read_after_failure`
* `ata_reads_correct`, reads from a sound drive
* `ata_reads_mixed_iff`, reads from a drive with unreadable sectors
-/

namespace LevOS.Drivers

/-- The registers that name a sector. -/
structure Latches where
  seccount0 : UInt8
  lba0 : UInt8
  lba1 : UInt8
  lba2 : UInt8
  hddevsel : UInt8

/-- The 28-bit address held in the registers: the low half of the device register
has its upper four bits. -/
def Latches.address (l : Latches) : UInt32 :=
  UInt32.ofNat (l.lba0.toNat + 256 * l.lba1.toNat + 65536 * l.lba2.toNat +
    16777216 * (l.hddevsel.toNat % 16))

/-- What a drive is doing: nothing, handing out a sector from one of its words on, or
nothing after a command that failed. -/
inductive Phase
  | idle
  | serving (sector : UInt32) (next : Nat)
  | failed
  deriving DecidableEq

/-- An ATA drive at the primary channel. `busy` is the number of status polls that
will still find it busy; a command keeps it busy for fewer than 1000000 polls. -/
structure Drive (σ : Type) extends Ports σ where
  words : UInt32 → Nat → UInt16
  readable : UInt32 → Bool
  latches : σ → Latches
  phase : σ → Phase
  busy : σ → Nat
  /-- Polling the status takes one busy poll away and changes nothing else. -/
  status_keeps : ∀ h, latches (inb 0x1F7 h).2 = latches h ∧ phase (inb 0x1F7 h).2 = phase h ∧
    busy (inb 0x1F7 h).2 = busy h - 1
  status_busy : ∀ h, busy h ≠ 0 →
    (inb 0x1F7 h).1 &&& 0x80 ≠ 0 ∧ (inb 0x1F7 h).1 &&& (0x01 ||| 0x20) = 0
  status_idle : ∀ h, busy h = 0 → phase h = .idle →
    (inb 0x1F7 h).1 &&& 0x80 = 0 ∧ (inb 0x1F7 h).1 &&& (0x01 ||| 0x20) = 0 ∧
      (inb 0x1F7 h).1 ≠ 0
  status_serving : ∀ h s i, busy h = 0 → phase h = .serving s i →
    (inb 0x1F7 h).1 &&& 0x80 = 0 ∧ (inb 0x1F7 h).1 &&& (0x01 ||| 0x20) = 0 ∧
      (inb 0x1F7 h).1 &&& 0x08 ≠ 0
  status_failed : ∀ h, busy h = 0 → phase h = .failed →
    (inb 0x1F7 h).1 &&& 0x80 = 0 ∧ (inb 0x1F7 h).1 &&& 0x01 ≠ 0
  /-- The alternate status may let time pass. -/
  alternate_keeps : ∀ h, latches (inb 0x3F6 h).2 = latches h ∧ phase (inb 0x3F6 h).2 = phase h ∧
    busy (inb 0x3F6 h).2 ≤ busy h
  /-- A drive that is not busy takes register writes; selecting it may keep it busy. -/
  write_seccount0 : ∀ h value, busy h = 0 → busy (outb 0x1F2 value h) = 0 ∧
    phase (outb 0x1F2 value h) = phase h ∧
    latches (outb 0x1F2 value h) = { latches h with seccount0 := value }
  write_lba0 : ∀ h value, busy h = 0 → busy (outb 0x1F3 value h) = 0 ∧
    phase (outb 0x1F3 value h) = phase h ∧
    latches (outb 0x1F3 value h) = { latches h with lba0 := value }
  write_lba1 : ∀ h value, busy h = 0 → busy (outb 0x1F4 value h) = 0 ∧
    phase (outb 0x1F4 value h) = phase h ∧
    latches (outb 0x1F4 value h) = { latches h with lba1 := value }
  write_lba2 : ∀ h value, busy h = 0 → busy (outb 0x1F5 value h) = 0 ∧
    phase (outb 0x1F5 value h) = phase h ∧
    latches (outb 0x1F5 value h) = { latches h with lba2 := value }
  write_hddevsel : ∀ h value, busy h = 0 → busy (outb 0x1F6 value h) < 1000000 ∧
    phase (outb 0x1F6 value h) = phase h ∧
    latches (outb 0x1F6 value h) = { latches h with hddevsel := value }
  /-- The read command for one sector, in LBA mode and to the master. -/
  command : ∀ h, busy h = 0 → (latches h).seccount0 = 1 → (latches h).hddevsel &&& 0x50 = 0x40 →
    busy (outb 0x1F7 0x20 h) < 1000000 ∧
    phase (outb 0x1F7 0x20 h) =
      if readable (latches h).address then .serving (latches h).address 0 else .failed
  /-- The data come word by word. -/
  data : ∀ h s i, busy h = 0 → phase h = .serving s i → i < 256 → (inw 0x1F0 h).1 = words s i
  data_next : ∀ h s i, busy h = 0 → phase h = .serving s i → i + 1 < 256 →
    busy (inw 0x1F0 h).2 = 0 ∧ phase (inw 0x1F0 h).2 = .serving s (i + 1)
  data_last : ∀ h s, busy h = 0 → phase h = .serving s 255 →
    busy (inw 0x1F0 h).2 < 1000000 ∧ phase (inw 0x1F0 h).2 = .idle

/-- The bytes of a sector: its words, low byte first. -/
def Drive.bytes {σ : Type} (drive : Drive σ) (sector : UInt32) (i : Nat) : UInt8 :=
  if i % 2 = 0 then (drive.words sector (i / 2)).toUInt8
  else (drive.words sector (i / 2) >>> 8).toUInt8

/-- A device record as `ata_pio_init` sets it up. -/
structure AtaDevice.Configured (device : AtaDevice) : Prop where
  sectorSize : device.sectorSize = 512
  ioBase : device.ioBase = 0x1F0
  driveSelect : device.driveSelect = 0xE0

namespace Drive

variable {σ : Type} (drive : Drive σ) {device : AtaDevice} {h : σ}

/-! ## Waiting -/

theorem delay_keeps (hdevice : device.Configured) (h : σ) :
    drive.latches (ataDelay drive.toPorts device h) = drive.latches h ∧
      drive.phase (ataDelay drive.toPorts device h) = drive.phase h ∧
      drive.busy (ataDelay drive.toPorts device h) ≤ drive.busy h := by
  unfold ataDelay
  rw [hdevice.ioBase, show (0x1F0 : UInt16) + 0x206 = 0x3F6 from rfl]
  simp only
  have hread := drive.alternate_keeps
  refine ⟨?_, ?_, ?_⟩
  · rw [(hread _).1, (hread _).1, (hread _).1, (hread _).1]
  · rw [(hread _).2.1, (hread _).2.1, (hread _).2.1, (hread _).2.1]
  · exact (hread _).2.2.trans ((hread _).2.2.trans ((hread _).2.2.trans (hread _).2.2))

/-- What a wait leaves behind: a drive that is not busy and otherwise as it was. -/
structure Waited (h h' : σ) : Prop where
  busy : drive.busy h' = 0
  phase : drive.phase h' = drive.phase h
  latches : drive.latches h' = drive.latches h

variable {drive}

theorem Waited.after {h₁ h₂ h₃ : σ} (h : drive.Waited h₂ h₃)
    (hphase : drive.phase h₂ = drive.phase h₁) (hlatches : drive.latches h₂ = drive.latches h₁) :
    drive.Waited h₁ h₃ :=
  ⟨h.busy, h.phase.trans hphase, h.latches.trans hlatches⟩

theorem waited_of_status (h : σ) (hbusy : drive.busy h = 0) :
    drive.Waited h (drive.inb 0x1F7 h).2 :=
  ⟨by rw [(drive.status_keeps h).2.2, hbusy], (drive.status_keeps h).2.1, (drive.status_keeps h).1⟩

/-- A poll that finds the drive busy. -/
theorem poll_busy (hdevice : device.Configured) {dataRequest : Bool} {n : Nat} {h : σ}
    (hbusy : drive.busy h ≠ 0) :
    ataPoll drive.toPorts device dataRequest (n + 1) h =
      ataPoll drive.toPorts device dataRequest n (drive.inb 0x1F7 h).2 := by
  obtain ⟨hbit, herror⟩ := drive.status_busy h hbusy
  -- 0x00 and 0xFF stand for no device: the first lacks the busy bit, the second has the error bit
  have hpresent : ¬ ((drive.inb 0x1F7 h).1 = 0 ∨ (drive.inb 0x1F7 h).1 = 0xFF) := by
    rintro (hstatus | hstatus)
    · exact hbit (by rw [hstatus]; rfl)
    · rw [hstatus] at herror
      exact absurd herror (by decide)
  rw [ataPoll, ataStatus, hdevice.ioBase, show (0x1F0 : UInt16) + 7 = 0x1F7 from rfl]
  simp only
  rw [if_neg hpresent, if_neg (not_not.mpr herror), if_neg (fun hgo => hbit hgo.1)]

/-- A poll that finds the drive ready, with data if the driver waits for them. -/
theorem poll_done (hdevice : device.Configured) {dataRequest : Bool} {n : Nat} {h : σ}
    (hbusy : drive.busy h = 0) (hfailed : drive.phase h ≠ .failed)
    (hdata : dataRequest → ∃ s i, drive.phase h = .serving s i) :
    ataPoll drive.toPorts device dataRequest (n + 1) h = ⟨0, device, (drive.inb 0x1F7 h).2⟩ := by
  -- the status of a ready drive, according to what it is doing
  have hstatus : (drive.inb 0x1F7 h).1 &&& 0x80 = 0 ∧
      (drive.inb 0x1F7 h).1 &&& (0x01 ||| 0x20) = 0 ∧ (drive.inb 0x1F7 h).1 ≠ 0 ∧
        (!dataRequest ∨ (drive.inb 0x1F7 h).1 &&& 0x08 ≠ 0) := by
    cases hphase : drive.phase h with
    | idle =>
      obtain ⟨hbit, herror, hnonzero⟩ := drive.status_idle h hbusy hphase
      refine ⟨hbit, herror, hnonzero, Or.inl ?_⟩
      cases dataRequest with
      | false => rfl
      | true =>
        obtain ⟨s, i, hserving⟩ := hdata rfl
        exact absurd (hphase.symm.trans hserving) (by simp)
    -- the data request bit is set, so the status cannot be zero either
    | serving s i =>
      obtain ⟨hbit, herror, hdrq⟩ := drive.status_serving h s i hbusy hphase
      exact ⟨hbit, herror, fun hzero => hdrq (by rw [hzero]; rfl), Or.inr hdrq⟩
    | failed => exact absurd hphase hfailed
  obtain ⟨hbit, herror, hnonzero, hgo⟩ := hstatus
  have hpresent : ¬ ((drive.inb 0x1F7 h).1 = 0 ∨ (drive.inb 0x1F7 h).1 = 0xFF) := by
    rintro (hzero | hfloating)
    · exact hnonzero hzero
    · rw [hfloating] at hbit
      exact absurd hbit (by decide)
  rw [ataPoll, ataStatus, hdevice.ioBase, show (0x1F0 : UInt16) + 7 = 0x1F7 from rfl]
  simp only
  rw [if_neg hpresent, if_neg (not_not.mpr herror), if_pos ⟨hbit, hgo⟩]

/-- A poll that finds the error of the last command. -/
theorem poll_error (hdevice : device.Configured) {dataRequest : Bool} {n : Nat} {h : σ}
    (hbusy : drive.busy h = 0) (hfailed : drive.phase h = .failed) :
    ataPoll drive.toPorts device dataRequest (n + 1) h =
      ⟨ataPioEstatus, ataFail device ataPioEstatus, (drive.inb 0x1F7 h).2⟩ := by
  obtain ⟨hbit, herr⟩ := drive.status_failed h hbusy hfailed
  have hpresent : ¬ ((drive.inb 0x1F7 h).1 = 0 ∨ (drive.inb 0x1F7 h).1 = 0xFF) := by
    rintro (hzero | hfloating)
    · exact herr (by rw [hzero]; rfl)
    · rw [hfloating] at hbit
      exact absurd hbit (by decide)
  -- the driver tests two bits at once, and the drive has set one of them
  have herror : (drive.inb 0x1F7 h).1 &&& (0x01 ||| 0x20) ≠ 0 := by
    intro hnone
    apply herr
    rw [show (0x01 : UInt8) = (0x01 ||| 0x20) &&& 0x01 from rfl, ← UInt8.and_assoc, hnone,
      UInt8.zero_and]
  rw [ataPoll, ataStatus, hdevice.ioBase, show (0x1F0 : UInt16) + 7 = 0x1F7 from rfl]
  simp only
  rw [if_neg hpresent, if_pos herror]

/-- Polling outlasts a busy drive, unless its last command failed. -/
theorem poll_ready (hdevice : device.Configured) {dataRequest : Bool} {n : Nat} {h : σ}
    (hbusy : drive.busy h < n) (hfailed : drive.phase h ≠ .failed)
    (hdata : dataRequest → ∃ s i, drive.phase h = .serving s i) :
    ∃ h', ataPoll drive.toPorts device dataRequest n h = ⟨0, device, h'⟩ ∧ drive.Waited h h' := by
  -- on the polls left: each poll of a busy drive uses one of them up
  induction n generalizing h with
  | zero => exact absurd hbusy (Nat.not_lt_zero _)
  | succ n ih =>
    by_cases hzero : drive.busy h = 0
    · exact ⟨_, poll_done hdevice hzero hfailed hdata, waited_of_status h hzero⟩
    · obtain ⟨hlatches, hphase, hless⟩ := drive.status_keeps h
      obtain ⟨h', hpoll, hwaited⟩ := ih (h := (drive.inb 0x1F7 h).2) (by omega)
        (hphase ▸ hfailed) (hphase ▸ hdata)
      exact ⟨h', (poll_busy hdevice hzero).trans hpoll, hwaited.after hphase hlatches⟩

/-- After a failed command polling ends with the error that the drive still reports. -/
theorem poll_failed (hdevice : device.Configured) {dataRequest : Bool} {n : Nat} {h : σ}
    (hbusy : drive.busy h < n) (hfailed : drive.phase h = .failed) :
    ∃ h', ataPoll drive.toPorts device dataRequest n h =
        ⟨ataPioEstatus, ataFail device ataPioEstatus, h'⟩ ∧ drive.Waited h h' := by
  induction n generalizing h with
  | zero => exact absurd hbusy (Nat.not_lt_zero _)
  | succ n ih =>
    by_cases hzero : drive.busy h = 0
    · exact ⟨_, poll_error hdevice hzero hfailed, waited_of_status h hzero⟩
    · obtain ⟨hlatches, hphase, hless⟩ := drive.status_keeps h
      obtain ⟨h', hpoll, hwaited⟩ := ih (h := (drive.inb 0x1F7 h).2) (by omega) (hphase ▸ hfailed)
      exact ⟨h', (poll_busy hdevice hzero).trans hpoll, hwaited.after hphase hlatches⟩

theorem wait_ready (hdevice : device.Configured) (dataRequest : Bool) {h : σ}
    (hbusy : drive.busy h < 1000000) (hfailed : drive.phase h ≠ .failed)
    (hdata : dataRequest → ∃ s i, drive.phase h = .serving s i) :
    ∃ h', ataWait drive.toPorts device dataRequest h = ⟨0, device, h'⟩ ∧ drive.Waited h h' := by
  obtain ⟨hlatches, hphase, hless⟩ := drive.delay_keeps hdevice h
  obtain ⟨h', hpoll, hwaited⟩ := poll_ready hdevice (hless.trans_lt hbusy) (hphase ▸ hfailed)
    (hphase ▸ hdata)
  exact ⟨h', hpoll, hwaited.after hphase hlatches⟩

theorem wait_failed (hdevice : device.Configured) (dataRequest : Bool) {h : σ}
    (hbusy : drive.busy h < 1000000) (hfailed : drive.phase h = .failed) :
    ∃ h', ataWait drive.toPorts device dataRequest h =
        ⟨ataPioEstatus, ataFail device ataPioEstatus, h'⟩ ∧ drive.Waited h h' := by
  obtain ⟨hlatches, hphase, hless⟩ := drive.delay_keeps hdevice h
  obtain ⟨h', hpoll, hwaited⟩ := poll_failed hdevice (hless.trans_lt hbusy) (hphase ▸ hfailed)
  exact ⟨h', hpoll, hwaited.after hphase hlatches⟩

/-! ## Data -/

theorem storeWord_apply (buffer : Buffer) (n : Nat) (word : UInt16) (i : Nat) :
    storeWord buffer n word i =
      if i = 2 * n + 1 then (word >>> 8).toUInt8
      else if i = 2 * n then word.toUInt8 else buffer i := by
  rw [storeWord, Function.update_apply, Function.update_apply]

/-- While words are left the drive goes on serving them. -/
theorem inputSector_serving (hdevice : device.Configured) (buffer : Buffer) {h : σ} {s : UInt32}
    (hbusy : drive.busy h = 0) (hphase : drive.phase h = .serving s 0) {n : Nat} (hn : n < 256) :
    drive.busy (inputSector drive.toPorts device buffer n h).2 = 0 ∧
      drive.phase (inputSector drive.toPorts device buffer n h).2 = .serving s n := by
  induction n with
  | zero => exact ⟨hbusy, hphase⟩
  | succ n ih =>
    obtain ⟨hready, hserving⟩ := ih (by omega)
    rw [inputSector, hdevice.ioBase]
    exact drive.data_next _ s n hready hserving hn

/-- The words taken so far are those of the sector. -/
theorem inputSector_bytes (hdevice : device.Configured) (buffer : Buffer) {h : σ} {s : UInt32}
    (hbusy : drive.busy h = 0) (hphase : drive.phase h = .serving s 0) {n : Nat} (hn : n ≤ 256)
    (i : Nat) :
    (inputSector drive.toPorts device buffer n h).1 i =
      if i < 2 * n then drive.bytes s i else buffer i := by
  -- the word just taken makes the two new bytes; the earlier ones are kept
  induction n with
  | zero => rw [if_neg (by omega)]; rfl
  | succ n ih =>
    obtain ⟨hready, hserving⟩ := inputSector_serving hdevice buffer hbusy hphase
      (Nat.lt_of_succ_le hn)
    have hword := drive.data _ s n hready hserving (Nat.lt_of_succ_le hn)
    rw [inputSector, hdevice.ioBase]
    simp only
    rw [storeWord_apply, ih (by omega), hword]
    by_cases hhigh : i = 2 * n + 1
    · rw [if_pos hhigh, if_pos (by omega), bytes, if_neg (by omega), show i / 2 = n by omega]
    · by_cases hlow : i = 2 * n
      · rw [if_neg hhigh, if_pos hlow, if_pos (by omega), bytes, if_pos (by omega),
          show i / 2 = n by omega]
      · rw [if_neg hhigh, if_neg hlow]
        exact if_congr (by omega) rfl rfl

/-- After the last word the drive is idle again. -/
theorem inputSector_done (hdevice : device.Configured) (buffer : Buffer) {h : σ} {s : UInt32}
    (hbusy : drive.busy h = 0) (hphase : drive.phase h = .serving s 0) {n : Nat} (hn : n = 255) :
    drive.busy (inputSector drive.toPorts device buffer (n + 1) h).2 < 1000000 ∧
      drive.phase (inputSector drive.toPorts device buffer (n + 1) h).2 = .idle := by
  obtain ⟨hready, hserving⟩ := inputSector_serving hdevice buffer hbusy hphase
    (show n < 256 by omega)
  rw [inputSector, hdevice.ioBase]
  exact drive.data_last _ s hready (hn ▸ hserving)

/-! ## Commands -/

theorem selectByte (sector : UInt32) (hsector : sector.toNat < 2 ^ 28) :
    ((0xE0 : UInt8) ||| ((sector >>> 24) &&& 0x0F).toUInt8) &&& 0x50 = 0x40 ∧
      ((0xE0 : UInt8) ||| ((sector >>> 24) &&& 0x0F).toUInt8).toNat % 16 =
        sector.toNat / 16777216 := by
  -- the upper four bits of a 28-bit address, all sixteen of them tried
  have hsmall : ∀ k < 16, ((0xE0 : UInt8) ||| UInt8.ofNat k) &&& 0x50 = 0x40 ∧
      ((0xE0 : UInt8) ||| UInt8.ofNat k).toNat % 16 = k := by decide
  have hbyte : ((sector >>> 24) &&& 0x0F).toUInt8 = UInt8.ofNat (sector.toNat / 16777216) := by
    apply UInt8.toNat_inj.mp
    rw [UInt32.toNat_toUInt8, UInt32.toNat_and, UInt32.toNat_shiftRight, UInt8.toNat_ofNat',
      show (0x0F : UInt32).toNat = 2 ^ 4 - 1 from rfl, Nat.and_two_pow_sub_one_eq_mod,
      show (24 : UInt32).toNat % 32 = 24 from rfl, Nat.shiftRight_eq_div_pow]
    omega
  rw [hbyte]
  exact hsmall _ (by omega)

/-- The four registers together name the sector. -/
theorem address_of_sector (sector : UInt32) (hsector : sector.toNat < 2 ^ 28) :
    Latches.address ⟨1, sector.toUInt8, (sector >>> 8).toUInt8, (sector >>> 16).toUInt8,
      (0xE0 : UInt8) ||| ((sector >>> 24) &&& 0x0F).toUInt8⟩ = sector := by
  have hbyte1 : (sector >>> 8).toUInt8.toNat = sector.toNat / 256 % 256 := by
    rw [UInt32.toNat_toUInt8, UInt32.toNat_shiftRight, Nat.shiftRight_eq_div_pow]
    rfl
  have hbyte2 : (sector >>> 16).toUInt8.toNat = sector.toNat / 65536 % 256 := by
    rw [UInt32.toNat_toUInt8, UInt32.toNat_shiftRight, Nat.shiftRight_eq_div_pow]
    rfl
  apply UInt32.toNat_inj.mp
  rw [Latches.address, hbyte1, hbyte2, (selectByte sector hsector).2, UInt32.toNat_toUInt8,
    UInt32.toNat_ofNat']
  omega

/-- The address registers are written one after the other, and then the command. -/
theorem command_sector {h : σ} {sector : UInt32} (hsector : sector.toNat < 2 ^ 28)
    (hbusy : drive.busy h = 0)
    (hselect : (drive.latches h).hddevsel =
      (0xE0 : UInt8) ||| ((sector >>> 24) &&& 0x0F).toUInt8) :
    let h' := drive.outb 0x1F7 0x20 (drive.outb 0x1F5 (sector >>> 16).toUInt8
      (drive.outb 0x1F4 (sector >>> 8).toUInt8 (drive.outb 0x1F3 sector.toUInt8
        (drive.outb 0x1F2 1 h))))
    drive.busy h' < 1000000 ∧
      drive.phase h' = if drive.readable sector then .serving sector 0 else .failed := by
  intro h'
  -- no register write makes the drive busy, so each is followed by the next
  obtain ⟨hbusy1, -, hlatches1⟩ := drive.write_seccount0 h 1 hbusy
  obtain ⟨hbusy2, -, hlatches2⟩ := drive.write_lba0 _ sector.toUInt8 hbusy1
  obtain ⟨hbusy3, -, hlatches3⟩ := drive.write_lba1 _ (sector >>> 8).toUInt8 hbusy2
  obtain ⟨hbusy4, -, hlatches4⟩ := drive.write_lba2 _ (sector >>> 16).toUInt8 hbusy3
  rw [hlatches3, hlatches2, hlatches1] at hlatches4
  simp only [hselect] at hlatches4
  have hcommand := drive.command _ hbusy4
  rw [hlatches4] at hcommand
  have haddress := address_of_sector sector hsector
  rw [haddress] at hcommand
  exact hcommand rfl (selectByte sector hsector).1

/-! ## One read -/

/-- Between commands the drive is idle and soon ready, or its last command failed. -/
def Resting (drive : Drive σ) (failed : Bool) (h : σ) : Prop :=
  drive.busy h < 1000000 ∧ drive.phase h = if failed then .failed else .idle

theorem valid_arguments (hdevice : device.Configured) {sector : UInt32}
    (hsector : sector.toNat < 2 ^ 28) : ¬ (device.sectorSize ≠ 512 ∨ 0x0FFFFFFF < sector) := by
  rintro (hsize | hlarge)
  · exact hsize hdevice.sectorSize
  · have hlt : 2 ^ 28 - 1 < sector.toNat := UInt32.lt_iff_toNat_lt.mp hlarge
    omega

/-- A read of an idle drive gets as far as the command. -/
theorem read_command (hdevice : device.Configured) (hpresent : device.present ≠ 0)
    {sector : UInt32} (hsector : sector.toNat < 2 ^ 28) (buffer : Buffer) {h : σ}
    (hidle : drive.Resting false h) :
    ∃ h', ataPioReadSector drive.toPorts sector buffer device h =
        ataReceive drive.toPorts buffer device h' ∧ drive.busy h' < 1000000 ∧
      drive.phase h' = if drive.readable sector then .serving sector 0 else .failed := by
  obtain ⟨hbusy, hphase⟩ := hidle
  have hvalid := valid_arguments hdevice hsector
  -- wait, select the drive, wait again, write the registers and the command
  obtain ⟨h₁, hwait₁, hwaited₁⟩ := wait_ready hdevice false hbusy
    (by rw [hphase]; simp) (fun hrequest => absurd hrequest (by simp))
  obtain ⟨hbusy₂, hphase₂, hlatches₂⟩ := drive.write_hddevsel h₁
    ((0xE0 : UInt8) ||| ((sector >>> 24) &&& 0x0F).toUInt8) hwaited₁.busy
  obtain ⟨h₃, hwait₃, hwaited₃⟩ := wait_ready hdevice false hbusy₂
    (by rw [hphase₂, hwaited₁.phase, hphase]; simp) (fun hrequest => absurd hrequest (by simp))
  have hcommand := command_sector hsector hwaited₃.busy
    (by rw [hwaited₃.latches, hlatches₂])
  refine ⟨_, ?_, hcommand⟩
  rw [ataPioReadSector, if_neg hvalid, if_neg hpresent, hwait₁]
  simp only [ne_eq, not_true_eq_false, if_false, hdevice.ioBase, hdevice.driveSelect,
    show (0x1F0 : UInt16) + 6 = 0x1F6 from rfl, hwait₃]
  rfl

/-- A readable sector is read. -/
theorem read_readable (hdevice : device.Configured) (hpresent : device.present ≠ 0)
    {sector : UInt32} (hsector : sector.toNat < 2 ^ 28) (hreadable : drive.readable sector)
    (buffer : Buffer) {h : σ} (hidle : drive.Resting false h) :
    ∃ buffer' h', ataPioReadSector drive.toPorts sector buffer device h =
        (buffer', ⟨0, { device with lastError := 0 }, h'⟩) ∧ drive.Resting false h' ∧
      ∀ i, buffer' i = if i < 512 then drive.bytes sector i else buffer i := by
  obtain ⟨h₁, hread, hbusy₁, hphase₁⟩ := read_command hdevice hpresent hsector buffer hidle
  rw [if_pos hreadable] at hphase₁
  obtain ⟨h₂, hwait₂, hwaited₂⟩ := wait_ready hdevice true hbusy₁
    (by rw [hphase₁]; simp) (fun _ => ⟨_, _, hphase₁⟩)
  have hphase₂ := hwaited₂.phase.trans hphase₁
  -- the status is read once more after the wait, which changes nothing
  obtain ⟨hbit, herror, hdrq⟩ := drive.status_serving h₂ sector 0 hwaited₂.busy hphase₂
  have hwaited₃ := waited_of_status h₂ hwaited₂.busy
  have hphase₃ := hwaited₃.phase.trans hphase₂
  refine ⟨_, _, ?_, inputSector_done hdevice buffer hwaited₃.busy hphase₃ (n := 255) rfl,
    inputSector_bytes hdevice buffer hwaited₃.busy hphase₃ (Nat.le_refl 256)⟩
  rw [hread, ataReceive, hwait₂]
  simp only [ne_eq, not_true_eq_false, if_false, hdevice.ioBase,
    show (0x1F0 : UInt16) + 7 = 0x1F7 from rfl]
  rw [if_neg (not_not.mpr herror), if_neg hdrq]

/-- An unreadable sector is reported, and the drive remembers it. -/
theorem read_unreadable (hdevice : device.Configured) (hpresent : device.present ≠ 0)
    {sector : UInt32} (hsector : sector.toNat < 2 ^ 28) (hreadable : drive.readable sector = false)
    (buffer : Buffer) {h : σ} (hidle : drive.Resting false h) :
    ∃ h', ataPioReadSector drive.toPorts sector buffer device h =
        (buffer, ⟨ataPioEstatus, ataFail device ataPioEstatus, h'⟩) ∧ drive.Resting true h' := by
  obtain ⟨h₁, hread, hbusy₁, hphase₁⟩ := read_command hdevice hpresent hsector buffer hidle
  rw [hreadable] at hphase₁
  obtain ⟨h₂, hwait₂, hwaited₂⟩ := wait_failed hdevice true hbusy₁ hphase₁
  refine ⟨h₂, ?_, by rw [hwaited₂.busy]; decide, hwaited₂.phase.trans hphase₁⟩
  rw [hread, ataReceive, hwait₂, if_pos (show ataPioEstatus ≠ 0 by decide)]
  rfl

/-- After a failed command every read fails before it has issued a command, whatever
sector it is for. -/
theorem read_after_failure (hdevice : device.Configured) (hpresent : device.present ≠ 0)
    {sector : UInt32} (hsector : sector.toNat < 2 ^ 28) (buffer : Buffer) {h : σ}
    (hfailed : drive.Resting true h) :
    ∃ h', ataPioReadSector drive.toPorts sector buffer device h =
        (buffer, ⟨ataPioEstatus, ataFail device ataPioEstatus, h'⟩) ∧ drive.Resting true h' := by
  -- the first wait of the call already finds the old error
  obtain ⟨h₁, hwait₁, hwaited₁⟩ := wait_failed hdevice false hfailed.1 hfailed.2
  refine ⟨h₁, ?_, by rw [hwaited₁.busy]; decide, hwaited₁.phase.trans hfailed.2⟩
  have hvalid := valid_arguments hdevice hsector
  rw [ataPioReadSector, if_neg hvalid, if_neg hpresent, hwait₁,
    if_pos (show ataPioEstatus ≠ 0 by decide)]
  rfl

end Drive

/-! ## Sequences of reads -/

/-- The device record and the hardware after a sequence of reads, each with the buffer
it was given. -/
def ataReads {σ : Type} (ports : Ports σ) (world : AtaDevice × σ)
    (calls : List (UInt32 × Buffer)) : AtaDevice × σ :=
  calls.foldl (fun world call =>
    let reply := (ataPioReadSector ports call.1 call.2 world.1 world.2).2
    (reply.device, reply.hardware)) world

/-- A call is answered as it should be: a readable sector with its contents, any other
with an error. -/
def Drive.Answers {σ : Type} (drive : Drive σ) (sector : UInt32) (buffer : Buffer)
    (answer : Buffer × AtaReply σ) : Prop :=
  if drive.readable sector then
    answer.2.status = 0 ∧
      ∀ i, answer.1 i = if i < 512 then drive.bytes sector i else buffer i
  else answer.2.status ≠ 0

/-- What holds between reads: the record is set up and the device present, and the drive
rests, with an error if one of the sectors could not be read. -/
structure Drive.Between {σ : Type} (drive : Drive σ) (present : UInt8) (failed : Bool)
    (world : AtaDevice × σ) : Prop where
  configured : world.1.Configured
  present_eq : world.1.present = present
  resting : drive.Resting failed world.2

section

variable {σ : Type} {drive : Drive σ} {present : UInt8} {world : AtaDevice × σ}

theorem Drive.Between.read {failed : Bool} (h : drive.Between present failed world)
    (hpresent : present ≠ 0) {sector : UInt32} (hsector : sector.toNat < 2 ^ 28) (buffer : Buffer) :
    let answer := ataPioReadSector drive.toPorts sector buffer world.1 world.2
    drive.Between present (failed || !drive.readable sector)
        (answer.2.device, answer.2.hardware) ∧
      (failed = false → drive.Answers sector buffer answer ∧
        (drive.readable sector → answer.2.device.lastError = 0)) ∧
      (failed = true → answer.2.status ≠ 0) := by
  intro answer
  obtain ⟨hdevice, hsame, hresting⟩ := h
  have hthere : world.1.present ≠ 0 := hsame ▸ hpresent
  -- a failure changes the recorded error only
  have hfail : (ataFail world.1 ataPioEstatus).Configured ∧
      (ataFail world.1 ataPioEstatus).present = present :=
    ⟨⟨hdevice.sectorSize, hdevice.ioBase, hdevice.driveSelect⟩, hsame⟩
  cases failed with
  | true =>
    obtain ⟨h', hread, hresting'⟩ :=
      Drive.read_after_failure hdevice hthere hsector buffer hresting
    rw [show answer = _ from hread]
    exact ⟨⟨hfail.1, hfail.2, hresting'⟩, fun hfalse => absurd hfalse (by simp),
      fun _ => (by decide : ataPioEstatus ≠ 0)⟩
  | false =>
    cases hreadable : drive.readable sector with
    | true =>
      obtain ⟨buffer', h', hread, hresting', hbytes⟩ :=
        Drive.read_readable hdevice hthere hsector hreadable buffer hresting
      rw [show answer = _ from hread]
      refine ⟨⟨⟨hdevice.sectorSize, hdevice.ioBase, hdevice.driveSelect⟩, hsame, hresting'⟩,
        fun _ => ⟨?_, fun _ => rfl⟩, fun htrue => absurd htrue (by simp)⟩
      rw [Drive.Answers, if_pos hreadable]
      exact ⟨rfl, hbytes⟩
    | false =>
      obtain ⟨h', hread, hresting'⟩ :=
        Drive.read_unreadable hdevice hthere hsector hreadable buffer hresting
      rw [show answer = _ from hread]
      refine ⟨⟨hfail.1, hfail.2, hresting'⟩,
        fun _ => ⟨?_, fun htrue => absurd htrue (by simp)⟩, fun htrue => absurd htrue (by simp)⟩
      rw [Drive.Answers, if_neg (by rw [hreadable]; simp)]
      exact (by decide : ataPioEstatus ≠ 0)

/-- Between reads the drive reports an error exactly if a sector could not be read. -/
theorem Drive.Between.reads {failed : Bool} (h : drive.Between present failed world)
    (hpresent : present ≠ 0) (calls : List (UInt32 × Buffer))
    (hcalls : ∀ call ∈ calls, call.1.toNat < 2 ^ 28) :
    drive.Between present (failed || calls.any fun call => !drive.readable call.1)
      (ataReads drive.toPorts world calls) := by
  induction calls generalizing world failed with
  | nil => rwa [List.any_nil, Bool.or_false]
  | cons call calls ih =>
    rw [List.any_cons, ← Bool.or_assoc]
    exact ih (h.read hpresent (hcalls call List.mem_cons_self) call.2).1
      (fun c hc => hcalls c (List.mem_cons_of_mem _ hc))

/-- The block layer lets through only sectors below a known capacity. -/
theorem blockReadSector_lt {ω : Type} {block : BlockDevice ω} (hcount : block.sectorCount ≠ 0)
    {sector : UInt32} {buffer : Buffer} {bus : Bus ω}
    (hthrough : (blockReadSector block sector buffer bus).2.2.requests ≠ bus.requests) :
    sector < block.sectorCount := by
  by_contra hlarge
  apply hthrough
  unfold blockReadSector
  split
  · rfl
  · split_ifs with hsize hpast
    · rfl
    · rfl
    · exact absurd ⟨hcount, UInt32.not_lt.mp hlarge⟩ hpast

end

/-! ## A drive that is never busy -/

/-- A drive that answers at once, with given contents and readable sectors. -/
def promptDrive (words : UInt32 → Nat → UInt16) (readable : UInt32 → Bool) :
    Drive (Latches × Phase) where
  inb port h :=
    (if port = 0x1F7 then match h.2 with | .idle => 0x50 | .serving _ _ => 0x58 | .failed => 0x51
      else 0, h)
  inw _ h :=
    match h.2 with
    | .serving s i => (words s i, h.1, if i + 1 < 256 then .serving s (i + 1) else .idle)
    | _ => (0, h)
  outb port value h :=
    if port = 0x1F2 then ({ h.1 with seccount0 := value }, h.2)
    else if port = 0x1F3 then ({ h.1 with lba0 := value }, h.2)
    else if port = 0x1F4 then ({ h.1 with lba1 := value }, h.2)
    else if port = 0x1F5 then ({ h.1 with lba2 := value }, h.2)
    else if port = 0x1F6 then ({ h.1 with hddevsel := value }, h.2)
    else (h.1, if readable h.1.address then .serving h.1.address 0 else .failed)
  words := words
  readable := readable
  latches := Prod.fst
  phase := Prod.snd
  busy _ := 0
  status_keeps _ := ⟨rfl, rfl, rfl⟩
  status_busy _ hbusy := absurd rfl hbusy
  status_idle := by
    rintro ⟨l, p⟩ - rfl
    exact (by decide : (0x50 : UInt8) &&& 0x80 = 0 ∧ (0x50 : UInt8) &&& (0x01 ||| 0x20) = 0 ∧
      (0x50 : UInt8) ≠ 0)
  status_serving := by
    rintro ⟨l, p⟩ s i - rfl
    exact (by decide : (0x58 : UInt8) &&& 0x80 = 0 ∧ (0x58 : UInt8) &&& (0x01 ||| 0x20) = 0 ∧
      (0x58 : UInt8) &&& 0x08 ≠ 0)
  status_failed := by
    rintro ⟨l, p⟩ - rfl
    exact (by decide : (0x51 : UInt8) &&& 0x80 = 0 ∧ (0x51 : UInt8) &&& 0x01 ≠ 0)
  alternate_keeps _ := ⟨rfl, rfl, Nat.le_refl 0⟩
  write_seccount0 _ _ _ := ⟨rfl, rfl, rfl⟩
  write_lba0 _ _ _ := ⟨rfl, rfl, rfl⟩
  write_lba1 _ _ _ := ⟨rfl, rfl, rfl⟩
  write_lba2 _ _ _ := ⟨rfl, rfl, rfl⟩
  write_hddevsel _ _ _ := ⟨by decide, rfl, rfl⟩
  command _ _ _ _ := ⟨by decide, rfl⟩
  data := by
    rintro ⟨l, p⟩ s i - rfl -
    rfl
  data_next := by
    rintro ⟨l, p⟩ s i - rfl hnext
    exact ⟨rfl, if_pos hnext⟩
  data_last := by
    rintro ⟨l, p⟩ s - rfl
    exact ⟨by decide, rfl⟩

/-- The record of a device that was found at boot. -/
def foundDevice : AtaDevice := ⟨512, 0x10000, 0x1F0, 0xE0, 1, 0⟩

theorem foundDevice_configured : foundDevice.Configured := ⟨rfl, rfl, rfl⟩

theorem promptDrive_resting (words : UInt32 → Nat → UInt16) (readable : UInt32 → Bool) :
    (promptDrive words readable).Resting false (⟨0, 0, 0, 0, 0⟩, .idle) :=
  ⟨Nat.succ_pos 999999, rfl⟩

/-! ## Results -/

/-- Reads from a sound drive are correct after any earlier reads: the call succeeds,
records no error, keeps the device present and fills exactly the first 512 bytes of the
buffer with the sector. And every sector that the block layer lets through to a device
of known capacity can be named in 28 bits. -/
theorem ata_reads_correct {σ : Type} (drive : Drive σ) (hreadable : ∀ sector, drive.readable sector)
    {device : AtaDevice} (hdevice : device.Configured) (hpresent : device.present ≠ 0) {h : σ}
    (hidle : drive.Resting false h) :
    (∀ earlier : List (UInt32 × Buffer), (∀ call ∈ earlier, call.1.toNat < 2 ^ 28) →
      ∀ (sector : UInt32) (buffer : Buffer), sector.toNat < 2 ^ 28 →
        let world := ataReads drive.toPorts (device, h) earlier
        let answer := ataPioReadSector drive.toPorts sector buffer world.1 world.2
        answer.2.status = 0 ∧ answer.2.device.lastError = 0 ∧
          answer.2.device.present = world.1.present ∧
          ∀ i, answer.1 i = if i < 512 then drive.bytes sector i else buffer i) ∧
      ∀ {τ : Type} (ports : Ports τ) (hardware : τ),
        let device := (ataPioInit ports hardware).1
        device.sectorCount ≠ 0 → ∀ (sector : UInt32) (buffer : Buffer) (bus : Bus (AtaDevice × τ)),
          (blockReadSector (device.block ports) sector buffer bus).2.2.requests ≠ bus.requests →
            sector.toNat < 2 ^ 28 := by
  constructor
  · intro earlier hearlier sector buffer hsector world answer
    have hstart : drive.Between device.present false (device, h) := ⟨hdevice, rfl, hidle⟩
    have hworld := hstart.reads hpresent earlier hearlier
    -- with every sector readable none of the earlier reads has failed
    have hnone : (earlier.any fun call => !drive.readable call.1) = false :=
      List.any_eq_false.mpr fun call _ => by rw [hreadable call.1]; simp
    rw [hnone, Bool.or_false] at hworld
    obtain ⟨hnext, hanswer, -⟩ := hworld.read hpresent hsector buffer
    obtain ⟨hright, herror⟩ := hanswer rfl
    rw [Drive.Answers, if_pos (hreadable sector)] at hright
    exact ⟨hright.1, herror (hreadable sector), hnext.present_eq.trans hworld.present_eq.symm,
      hright.2⟩
  · intro τ ports hardware device hcount sector buffer bus hthrough
    have hlt := UInt32.lt_iff_toNat_lt.mp (blockReadSector_lt hcount hthrough)
    exact hlt.trans_le (ataPioInit_sectorCount hardware)

theorem ata_reads_correct_prompt :
    let drive := promptDrive (fun s i => s.toUInt16 + UInt16.ofNat i) (fun _ => true)
    let world := ataReads drive.toPorts (foundDevice, (⟨0, 0, 0, 0, 0⟩, .idle)) [(7, fun _ => 0)]
    let answer := ataPioReadSector drive.toPorts 0x0FFFFFFF (fun _ => 0) world.1 world.2
    answer.2.status = 0 ∧ ∀ i, answer.1 i = if i < 512 then drive.bytes 0x0FFFFFFF i else 0 := by
  intro drive world answer
  have hread := (ata_reads_correct drive (fun _ => rfl) foundDevice_configured (by decide)
    (promptDrive_resting _ _)).1 [(7, fun _ => 0)] (by simp) 0x0FFFFFFF (fun _ => 0) (by decide)
  exact ⟨hread.1, hread.2.2.2⟩

/-- With unreadable sectors, every call is answered as it should be exactly if no
readable sector is asked for after an unreadable one: the error of a failed command is
still in the status when the next call looks at it. -/
theorem ata_reads_mixed_iff {σ : Type} (drive : Drive σ) {device : AtaDevice}
    (hdevice : device.Configured) (hpresent : device.present ≠ 0) {h : σ}
    (hidle : drive.Resting false h) (calls : List (UInt32 × Buffer))
    (hcalls : ∀ call ∈ calls, call.1.toNat < 2 ^ 28) :
    (∀ before sector buffer after, calls = before ++ (sector, buffer) :: after →
        let world := ataReads drive.toPorts (device, h) before
        drive.Answers sector buffer
          (ataPioReadSector drive.toPorts sector buffer world.1 world.2)) ↔
      ∀ before sector buffer after, calls = before ++ (sector, buffer) :: after →
        drive.readable sector → ∀ call ∈ before, drive.readable call.1 := by
  -- whether an earlier sector was unreadable decides how a call is answered
  have hread : ∀ before sector buffer after, calls = before ++ (sector, buffer) :: after →
      let world := ataReads drive.toPorts (device, h) before
      let answer := ataPioReadSector drive.toPorts sector buffer world.1 world.2
      ((∀ call ∈ before, drive.readable call.1) → drive.Answers sector buffer answer) ∧
        ((∃ call ∈ before, drive.readable call.1 = false) → answer.2.status ≠ 0) := by
    rintro before sector buffer after rfl world answer
    have hstart : drive.Between device.present false (device, h) := ⟨hdevice, rfl, hidle⟩
    have hworld := hstart.reads hpresent before
      (fun call hcall => hcalls call (List.mem_append_left _ hcall))
    obtain ⟨-, hfine, hbad⟩ := hworld.read hpresent (hcalls (sector, buffer) (by simp)) buffer
    rw [Bool.false_or] at hfine hbad
    constructor
    · intro hall
      refine (hfine (List.any_eq_false.mpr fun call hcall => ?_)).1
      rw [hall call hcall]
      simp
    · rintro ⟨call, hcall, hunreadable⟩
      exact hbad (List.any_eq_true.mpr ⟨call, hcall, by rw [hunreadable]; rfl⟩)
  constructor
  · intro hanswers before sector buffer after hsplit hreadable call hcall
    by_contra hunreadable
    have hright := hanswers before sector buffer after hsplit
    rw [Drive.Answers, if_pos hreadable] at hright
    exact (hread before sector buffer after hsplit).2
      ⟨call, hcall, Bool.not_eq_true _ |>.mp hunreadable⟩ hright.1
  · intro hordered before sector buffer after hsplit
    obtain ⟨hfine, hbad⟩ := hread before sector buffer after hsplit
    by_cases hall : ∀ call ∈ before, drive.readable call.1
    · exact hfine hall
    · -- something failed earlier, so this call must be for an unreadable sector
      intro world
      rw [Drive.Answers,
        if_neg (fun hreadable => hall (hordered before sector buffer after hsplit hreadable))]
      push Not at hall
      obtain ⟨call, hcall, hunreadable⟩ := hall
      exact hbad ⟨call, hcall, Bool.not_eq_true _ |>.mp hunreadable⟩

theorem ata_reads_mixed_iff_prompt :
    let drive := promptDrive (fun _ _ => 0) (fun sector => sector != 1)
    let calls : List (UInt32 × Buffer) := [(0, fun _ => 0), (1, fun _ => 0)]
    (∀ call ∈ calls, call.1.toNat < 2 ^ 28) ∧
      ((∀ before sector buffer after, calls = before ++ (sector, buffer) :: after →
          let world := ataReads drive.toPorts (foundDevice, (⟨0, 0, 0, 0, 0⟩, .idle)) before
          drive.Answers sector buffer
            (ataPioReadSector drive.toPorts sector buffer world.1 world.2)) ↔
        ∀ before sector buffer after, calls = before ++ (sector, buffer) :: after →
          drive.readable sector → ∀ call ∈ before, drive.readable call.1) :=
  ⟨by simp, ata_reads_mixed_iff _ foundDevice_configured (by decide) (promptDrive_resting _ _) _
    (by simp)⟩

/-- Sector 1 cannot be read, and after it the readable sector 0 cannot be read either. -/
theorem ata_read_lost :
    let drive := promptDrive (fun _ _ => 0) (fun sector => sector != 1)
    let world := ataReads drive.toPorts (foundDevice, (⟨0, 0, 0, 0, 0⟩, .idle)) [(1, fun _ => 0)]
    drive.readable 0 ∧ (ataPioReadSector drive.toPorts 0 (fun _ => 0) world.1 world.2).2.status ≠ 0 ∧
      ¬ drive.Answers 0 (fun _ => 0)
        (ataPioReadSector drive.toPorts 0 (fun _ => 0) world.1 world.2) := by
  intro drive world
  have hstart : drive.Between 1 false (foundDevice, (⟨0, 0, 0, 0, 0⟩, .idle)) :=
    ⟨foundDevice_configured, rfl, promptDrive_resting _ _⟩
  have hfailed : drive.Between 1 true world :=
    hstart.reads (by decide) [(1, fun _ => 0)] (by simp)
  have hstatus := (hfailed.read (by decide) (show (0 : UInt32).toNat < 2 ^ 28 by decide)
    (fun _ => 0)).2.2 rfl
  have hreadable : drive.readable 0 = true := rfl
  refine ⟨hreadable, hstatus, ?_⟩
  rw [Drive.Answers, if_pos hreadable]
  exact fun hright => hstatus hright.1

end LevOS.Drivers
