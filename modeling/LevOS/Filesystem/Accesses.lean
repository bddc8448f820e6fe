import LevOS.Drivers.Transfers
import LevOS.Filesystem.Disk

/-!
# What the drive hears

Everything that the file system does to a disk goes through a few ports of the primary
channel. Whatever the hardware answers, the driver only selects the drive, fills its
registers, gives it the identify or the read command, polls it and takes data: no command
that changes the disk is ever given. Each read command is for one sector, the one that the
block layer has been asked for.

## Main definitions

* `ReadOnly`, the accesses of a driver that only reads
* `heard`, the registers and the commands that a drive has been given
* `ReadsSector`, the command for one sector

## Main results

* `driveRun_only_reads`
-/

namespace LevOS.Filesystem

open LevOS.Drivers LevOS.Foundation

/-! ## Accesses -/

/-- A driver that only reads may do this. -/
def ReadOnly : Access → Prop
  | .inb port _ => port = 0x1F7 ∨ port = 0x3F6
  | .inw port _ => port = 0x1F0
  | .outb port value =>
    port ∈ [0x1F2, 0x1F3, 0x1F4, 0x1F5, 0x1F6] ∨ (port = 0x1F7 ∧ (value = 0xEC ∨ value = 0x20))

/-- The registers of a drive, and the commands given to it, each with the registers at the
time. -/
structure Heard where
  latches : Latches
  commands : List (UInt8 × Latches)

/-- What a drive hears of an access. -/
def Heard.access (s : Heard) : Access → Heard
  | .outb port value =>
    if port = 0x1F2 then { s with latches.seccount0 := value }
    else if port = 0x1F3 then { s with latches.lba0 := value }
    else if port = 0x1F4 then { s with latches.lba1 := value }
    else if port = 0x1F5 then { s with latches.lba2 := value }
    else if port = 0x1F6 then { s with latches.hddevsel := value }
    else if port = 0x1F7 then { s with commands := s.commands ++ [(value, s.latches)] }
    else s
  | .inb _ _ => s
  | .inw _ _ => s

/-- What a drive has heard of some accesses. -/
def heard (log : List Access) : Heard := log.foldl Heard.access ⟨⟨0, 0, 0, 0, 0⟩, []⟩

theorem heard_append (log added : List Access) :
    heard (log ++ added) = added.foldl Heard.access (heard log) :=
  List.foldl_append

/-! ## Listening -/

/-- One log goes on from another with accesses that write nothing. -/
def Listened (log log' : List Access) : Prop :=
  ∃ added, log' = log ++ added ∧
    ∀ access ∈ added, ReadOnly access ∧ ∀ s : Heard, s.access access = s

theorem Listened.refl (log : List Access) : Listened log log := ⟨[], by simp, by simp⟩

theorem Listened.trans {log log' log'' : List Access} (h : Listened log log')
    (h' : Listened log' log'') : Listened log log'' := by
  obtain ⟨first, rfl, hinputs⟩ := h
  obtain ⟨second, rfl, hmore⟩ := h'
  exact ⟨first ++ second, List.append_assoc _ _ _, List.forall_mem_append.mpr ⟨hinputs, hmore⟩⟩

theorem Listened.inb (log : List Access) {port : UInt16} (hport : port = 0x1F7 ∨ port = 0x3F6)
    (value : UInt8) : Listened log (log ++ [.inb port value]) :=
  ⟨[.inb port value], rfl, by simpa using ⟨hport, fun _ => rfl⟩⟩

theorem Listened.inw (log : List Access) (value : UInt16) :
    Listened log (log ++ [.inw 0x1F0 value]) :=
  ⟨[.inw 0x1F0 value], rfl, by simpa using ⟨rfl, fun _ => rfl⟩⟩

theorem Listened.heard_eq {log log' : List Access} (h : Listened log log') :
    heard log' = heard log := by
  obtain ⟨added, rfl, hinputs⟩ := h
  rw [heard_append]
  generalize heard log = s
  induction added with
  | nil => rfl
  | cons access added ih =>
    rw [List.foldl_cons, (hinputs access List.mem_cons_self).2]
    exact ih fun a ha => hinputs a (List.mem_cons_of_mem _ ha)

theorem Listened.readOnly {log log' : List Access} (h : Listened log log')
    (hlog : ∀ access ∈ log, ReadOnly access) : ∀ access ∈ log', ReadOnly access := by
  obtain ⟨added, rfl, hinputs⟩ := h
  exact List.forall_mem_append.mpr ⟨hlog, fun access ha => (hinputs access ha).1⟩

section

variable {σ : Type} (ports : Ports σ) {device : AtaDevice}

theorem ataDelay_listened (hbase : device.ioBase = 0x1F0) (hw : σ × List Access) :
    Listened hw.2 (ataDelay ports.logged device hw).2 := by
  have hport : device.ioBase + 0x206 = 0x1F7 ∨ device.ioBase + 0x206 = 0x3F6 := by
    rw [hbase]
    exact .inr rfl
  exact (((Listened.inb _ hport _).trans (.inb _ hport _)).trans (.inb _ hport _)).trans
    (.inb _ hport _)

theorem ataStatus_listened (hbase : device.ioBase = 0x1F0) (hw : σ × List Access) :
    Listened hw.2 (ataStatus ports.logged device hw).2.2 := by
  refine .inb _ (.inl ?_) _
  rw [hbase]
  rfl

theorem ataWait_listened (hbase : device.ioBase = 0x1F0) (dataRequest : Bool)
    (hw : σ × List Access) :
    Listened hw.2 (ataWait ports.logged device dataRequest hw).hardware.2 := by
  refine (ataDelay_listened ports hbase hw).trans ?_
  rw [ataWait]
  generalize ataDelay ports.logged device hw = hw
  -- each turn of the loop reads the status
  induction 1000000 generalizing hw with
  | zero => exact .refl _
  | succ n ih =>
    have hstatus := ataStatus_listened ports hbase hw
    rw [ataPoll]
    simp only
    split_ifs
    · exact hstatus
    · exact hstatus
    · exact hstatus
    · exact hstatus.trans (ih _)

theorem inputSector_listened (hbase : device.ioBase = 0x1F0) (buffer : Buffer) (n : Nat)
    (hw : σ × List Access) :
    Listened hw.2 (inputSector ports.logged device buffer n hw).2.2 := by
  induction n with
  | zero => exact .refl _
  | succ n ih =>
    refine ih.trans ?_
    rw [inputSector, hbase]
    exact .inw _ _

theorem inputWords_listened (hbase : device.ioBase = 0x1F0) (n : Nat) (hw : σ × List Access) :
    Listened hw.2 (inputWords ports.logged device n hw).2.2 := by
  induction n with
  | zero => exact .refl _
  | succ n ih =>
    refine ih.trans ?_
    rw [inputWords, hbase]
    exact .inw _ _

/-- Waiting does not move the device to other ports. -/
theorem ataWait_ioBase {τ : Type} (ports : Ports τ) (device : AtaDevice) (dataRequest : Bool)
    (h : τ) : (ataWait ports device dataRequest h).device.ioBase = device.ioBase :=
  ataPoll_keeps AtaDevice.ioBase (fun _ _ => rfl) device dataRequest _ _

theorem ataReceive_listened (hbase : device.ioBase = 0x1F0) (buffer : Buffer)
    (hw : σ × List Access) :
    Listened hw.2 (ataReceive ports.logged buffer device hw).2.hardware.2 := by
  have hwait := ataWait_listened ports hbase true hw
  have hkept := (ataWait_ioBase ports.logged device true hw).trans hbase
  have hstatus := hwait.trans (ataStatus_listened ports hkept _)
  unfold ataReceive
  simp only
  split_ifs
  · exact hwait
  · exact hstatus
  · exact hstatus
  · refine hstatus.trans ?_
    generalize 256 = n
    exact inputSector_listened ports hkept buffer n _

/-! ## Commands -/

/-- A read command for one sector, given to the master in LBA mode. -/
structure ReadsSector (sector : UInt32) (command : UInt8 × Latches) : Prop where
  opcode : command.1 = 0x20
  count : command.2.seccount0 = 1
  master : command.2.hddevsel &&& 0x50 = 0x40
  address : command.2.address = sector
  named : sector.toNat < 2 ^ 28

/-- Selecting the drive changes its device register only. -/
theorem heard_selectSector (hbase : device.ioBase = 0x1F0) (hselect : device.driveSelect = 0xE0)
    (sector : UInt32) (hw : σ × List Access) :
    heard (selectSector ports.logged sector device hw).2 =
      { heard hw.2 with
        latches.hddevsel := (0xE0 : UInt8) ||| ((sector >>> 24) &&& 0x0F).toUInt8 } := by
  simp only [selectSector, Ports.logged, heard_append, hbase, hselect]
  rfl

/-- The registers are filled, and one command is given. -/
theorem heard_commandSector (hbase : device.ioBase = 0x1F0) (sector : UInt32)
    (hw : σ × List Access) :
    (heard (commandSector ports.logged sector device hw).2).commands =
      (heard hw.2).commands ++ [(0x20, ⟨1, sector.toUInt8, (sector >>> 8).toUInt8,
        (sector >>> 16).toUInt8, (heard hw.2).latches.hddevsel⟩)] := by
  simp only [commandSector, Ports.logged, heard_append, hbase]
  rfl

/-- What the driver writes for a read is no more than it may. -/
theorem readOnly_selectSector (hbase : device.ioBase = 0x1F0) (sector : UInt32)
    {hw : σ × List Access} (hlog : ∀ access ∈ hw.2, ReadOnly access) :
    ∀ access ∈ (selectSector ports.logged sector device hw).2, ReadOnly access := by
  simp only [selectSector, Ports.logged, hbase]
  refine List.forall_mem_append.mpr ⟨hlog, ?_⟩
  simp [ReadOnly]

theorem readOnly_commandSector (hbase : device.ioBase = 0x1F0) (sector : UInt32)
    {hw : σ × List Access} (hlog : ∀ access ∈ hw.2, ReadOnly access) :
    ∀ access ∈ (commandSector ports.logged sector device hw).2, ReadOnly access := by
  simp only [commandSector, Ports.logged, hbase, List.forall_mem_append]
  refine ⟨⟨⟨⟨⟨hlog, ?_⟩, ?_⟩, ?_⟩, ?_⟩, ?_⟩
  all_goals simp [ReadOnly]

theorem readsSector_selected {sector : UInt32} (hsector : sector.toNat < 2 ^ 28) :
    ReadsSector sector (0x20, ⟨1, sector.toUInt8, (sector >>> 8).toUInt8,
      (sector >>> 16).toUInt8, (0xE0 : UInt8) ||| ((sector >>> 24) &&& 0x0F).toUInt8⟩) :=
  ⟨rfl, rfl, (Drive.selectByte sector hsector).1, Drive.address_of_sector sector hsector, hsector⟩

/-- A failure is put on record, and the device stays where it is. -/
theorem configured_ataFail (hdevice : device.Configured) (error : Int) :
    (ataFail device error).Configured :=
  ⟨hdevice.sectorSize, hdevice.ioBase, hdevice.driveSelect⟩

theorem configured_ataWait (hdevice : device.Configured) (dataRequest : Bool)
    (hw : σ × List Access) :
    (ataWait ports.logged device dataRequest hw).device.Configured := by
  obtain ⟨-, hsame⟩ | ⟨-, hfail⟩ := ataWait_outcome ports.logged device dataRequest hw
  · rwa [hsame]
  · rw [hfail]
    exact configured_ataFail hdevice _

theorem configured_ataReceive (hdevice : device.Configured) (buffer : Buffer)
    (hw : σ × List Access) :
    (ataReceive ports.logged buffer device hw).2.device.Configured := by
  have hwait := configured_ataWait ports hdevice true hw
  unfold ataReceive
  simp only
  split_ifs
  · exact hwait
  · exact configured_ataFail hwait _
  · exact configured_ataFail hwait _
  · exact ⟨hwait.sectorSize, hwait.ioBase, hwait.driveSelect⟩

/-- Whatever the hardware answers, a read gives the drive one command for its sector, or
none. -/
theorem ataPioReadSector_heard (hdevice : device.Configured) (sector : UInt32) (buffer : Buffer)
    {hw : σ × List Access} (hlog : ∀ access ∈ hw.2, ReadOnly access) :
    let reply := (ataPioReadSector ports.logged sector buffer device hw).2
    reply.device.Configured ∧ (∀ access ∈ reply.hardware.2, ReadOnly access) ∧
      ∃ given, (heard reply.hardware.2).commands = (heard hw.2).commands ++ given ∧
        (given = [] ∨ ∃ command, given = [command] ∧ ReadsSector sector command) := by
  have hnone : ∃ given, (heard hw.2).commands = (heard hw.2).commands ++ given ∧
      (given = [] ∨ ∃ command, given = [command] ∧ ReadsSector sector command) :=
    ⟨[], (List.append_nil _).symm, .inl rfl⟩
  by_cases hinvalid : device.sectorSize ≠ 512 ∨ 0x0FFFFFFF < sector
  · rw [ataPioReadSector_of_invalid hinvalid]
    exact ⟨hdevice, hlog, hnone⟩
  by_cases habsent : device.present = 0
  · rw [ataPioReadSector_of_absent hinvalid habsent]
    exact ⟨configured_ataFail hdevice _, hlog, hnone⟩
  generalize hidle : ataWait ports.logged device false hw = idle
  have hlistened := ataWait_listened ports hdevice.ioBase false hw
  have hdevice₁ := configured_ataWait ports hdevice false hw
  rw [hidle] at hlistened hdevice₁
  by_cases hok : idle.status = 0
  swap
  · rw [ataPioReadSector_of_busy hinvalid habsent hidle hok]
    exact ⟨hdevice₁, hlistened.readOnly hlog, by rwa [hlistened.heard_eq]⟩
  -- the drive is selected
  have hlog₂ := readOnly_selectSector ports hdevice₁.ioBase sector (hlistened.readOnly hlog)
  have hheard₂ := heard_selectSector ports hdevice₁.ioBase hdevice₁.driveSelect sector idle.hardware
  generalize hselected : ataWait ports.logged idle.device false
    (selectSector ports.logged sector idle.device idle.hardware) = selected
  have hlistened' := ataWait_listened ports hdevice₁.ioBase false
    (selectSector ports.logged sector idle.device idle.hardware)
  have hdevice₃ := configured_ataWait ports hdevice₁ false
    (selectSector ports.logged sector idle.device idle.hardware)
  rw [hselected] at hlistened' hdevice₃
  have hheard₃ := hlistened'.heard_eq.trans hheard₂
  rw [hlistened.heard_eq] at hheard₃
  by_cases hok' : selected.status = 0
  swap
  · rw [ataPioReadSector_of_unselected hinvalid habsent hidle hok hselected hok']
    exact ⟨hdevice₃, hlistened'.readOnly hlog₂, by rwa [hheard₃]⟩
  -- the command is given
  have hsector : sector.toNat < 2 ^ 28 := by
    have := UInt32.le_iff_toNat_le.mp (UInt32.not_lt.mp fun hfar => hinvalid (.inr hfar))
    simp at this
    omega
  rw [ataPioReadSector_of_selected hinvalid habsent hidle hok hselected hok']
  have hreceived := ataReceive_listened ports hdevice₃.ioBase buffer
    (commandSector ports.logged sector selected.device selected.hardware)
  have hlog₄ := readOnly_commandSector ports hdevice₃.ioBase sector (hlistened'.readOnly hlog₂)
  refine ⟨configured_ataReceive ports hdevice₃ buffer _, hreceived.readOnly hlog₄, _, ?_,
    .inr ⟨_, rfl, readsSector_selected hsector⟩⟩
  rw [hreceived.heard_eq, heard_commandSector ports hdevice₃.ioBase, hheard₃]

/-- The registers are cleared, and the drive is asked to identify itself. -/
theorem identify_heard {hw : σ × List Access} (hlog : ∀ access ∈ hw.2, ReadOnly access) :
    let hw' := ports.logged.outb (0x1F0 + 7) 0xEC (ports.logged.outb (0x1F0 + 5) 0
      (ports.logged.outb (0x1F0 + 4) 0 (ports.logged.outb (0x1F0 + 3) 0
        (ports.logged.outb (0x1F0 + 2) 0 hw))))
    (∀ access ∈ hw'.2, ReadOnly access) ∧
      ∃ latches, (heard hw'.2).commands = (heard hw.2).commands ++ [(0xEC, latches)] := by
  simp only [Ports.logged, List.forall_mem_append, heard_append]
  refine ⟨⟨⟨⟨⟨⟨hlog, ?_⟩, ?_⟩, ?_⟩, ?_⟩, ?_⟩, _, rfl⟩
  all_goals simp [ReadOnly]

/-- Detection gives at most the identify command. -/
theorem ataPioInit_heard (hardware : σ) :
    let world := ataPioInit ports.logged (hardware, [])
    world.1.Configured ∧ (∀ access ∈ world.2.2, ReadOnly access) ∧
      (heard world.2.2).commands.length ≤ 1 ∧
      ∀ command ∈ (heard world.2.2).commands, command.1 = 0xEC := by
  have hdevice : AtaDevice.Configured ⟨512, 0, 0x1F0, 0xE0, 0, ataPioEnodev⟩ := ⟨rfl, rfl, rfl⟩
  -- the drive is selected and its status read
  have hselect : ∀ access ∈ (ports.logged.outb 0x1F6 0xE0 (hardware, [])).2, ReadOnly access := by
    simp [Ports.logged, ReadOnly]
  have hheard : (heard (ports.logged.outb 0x1F6 0xE0 (hardware, [])).2).commands = [] := rfl
  have hstatus := (ataDelay_listened ports hdevice.ioBase
    (ports.logged.outb 0x1F6 0xE0 (hardware, []))).trans
      (ataStatus_listened ports hdevice.ioBase _)
  unfold ataPioInit
  simp only [show (0x1F0 : UInt16) + 6 = 0x1F6 from rfl]
  generalize ataStatus ports.logged _ (ataDelay ports.logged _
    (ports.logged.outb 0x1F6 0xE0 (hardware, []))) = answer at hstatus ⊢
  obtain ⟨status, hw⟩ := answer
  have hlog := hstatus.readOnly hselect
  rw [← hstatus.heard_eq] at hheard
  simp only at hlog hheard ⊢
  by_cases hnone : status = 0 ∨ status = 0xFF
  · rw [if_pos hnone]
    exact ⟨hdevice, hlog, by simp [hheard], by simp [hheard]⟩
  rw [if_neg hnone]
  have hwait := ataWait_listened ports hdevice.ioBase false hw
  have hdevice' := configured_ataWait ports hdevice false hw
  rw [← hwait.heard_eq] at hheard
  generalize ataWait ports.logged _ false hw = ready at hwait hdevice' hheard ⊢
  by_cases hready : ready.status = 0
  swap
  · rw [if_pos hready]
    exact ⟨hdevice', hwait.readOnly hlog, by simp [hheard], by simp [hheard]⟩
  rw [if_neg (not_not.mpr hready)]
  -- the identify command is given
  obtain ⟨hcommanded, latches, hgiven⟩ := identify_heard ports (hwait.readOnly hlog)
  rw [hheard, List.nil_append] at hgiven
  generalize ports.logged.outb (0x1F0 + 7) 0xEC _ = hw' at hcommanded hgiven ⊢
  have hanswered := ataWait_listened ports hdevice'.ioBase true hw'
  have hdevice'' := configured_ataWait ports hdevice' true hw'
  rw [← hanswered.heard_eq] at hgiven
  generalize ataWait ports.logged ready.device true hw' = answer at hanswered hdevice'' hgiven ⊢
  by_cases hanswer : answer.status = 0
  swap
  · rw [if_pos hanswer]
    exact ⟨hdevice'', hanswered.readOnly hcommanded, by simp [hgiven], by simp [hgiven]⟩
  rw [if_neg (not_not.mpr hanswer)]
  generalize 256 = n
  have hwords := inputWords_listened ports hdevice''.ioBase n answer.hardware
  rw [← hwords.heard_eq] at hgiven
  exact ⟨⟨hdevice''.sectorSize, hdevice''.ioBase, hdevice''.driveSelect⟩,
    hwords.readOnly (hanswered.readOnly hcommanded), by simp [hgiven], by simp [hgiven]⟩

/-! ## Runs -/

/-- What holds of the driver's record, the accesses and the requests during a run. -/
structure OnlyReads (bus : Bus (AtaDevice × σ × List Access)) : Prop where
  configured : bus.outside.1.Configured
  readOnly : ∀ access ∈ bus.outside.2.2, ReadOnly access
  commands : ∃ detecting reading, (heard bus.outside.2.2).commands = detecting ++ reading ∧
    detecting.length ≤ 1 ∧ (∀ command ∈ detecting, command.1 = 0xEC) ∧
    (∀ command ∈ reading, ReadsSector command.2.address command) ∧
    (reading.map fun command => command.2.address).Sublist (bus.requests.map Request.sector)

/-- Every read of the block layer keeps it. -/
theorem onlyReads_invariant (device : AtaDevice) :
    BusInvariant (device.block ports.logged) OnlyReads := by
  intro sector buffer bus h
  obtain ⟨hdevice, hlog, detecting, reading, hcommands, hfew, hidentify, hreads, hrequests⟩ := h
  unfold blockReadSector AtaDevice.block
  simp only
  split_ifs
  · exact ⟨hdevice, hlog, detecting, reading, hcommands, hfew, hidentify, hreads, hrequests⟩
  · exact ⟨hdevice, hlog, detecting, reading, hcommands, hfew, hidentify, hreads, hrequests⟩
  · obtain ⟨hdevice', hlog', given, hgiven, hone⟩ :=
      ataPioReadSector_heard ports hdevice sector buffer hlog
    generalize (ataPioReadSector ports.logged sector buffer bus.outside.1 bus.outside.2).2 = reply
      at hdevice' hlog' hgiven ⊢
    refine ⟨hdevice', hlog', detecting, reading ++ given, ?_, hfew, hidentify, ?_, ?_⟩
    · rw [← List.append_assoc, ← hcommands]
      exact hgiven
    · refine List.forall_mem_append.mpr ⟨hreads, ?_⟩
      rcases hone with rfl | ⟨command, rfl, hcommand⟩
      · simp
      · simpa [hcommand.address] using hcommand
    · rw [List.map_append, List.map_append]
      refine hrequests.append ?_
      rcases hone with rfl | ⟨command, rfl, hcommand⟩
      · simp
      · simp [hcommand.address]

/-- The disk is only read: on any hardware, whatever it answers, and in any sequence of
mounts, listings and file reads from the detection of the drive on, each access to a port is
one of a driver that only reads. The commands are at most one to identify the drive, and then
read commands for one sector each, given to the master in LBA mode; in order, the sectors they
name are among those that the block layer has been asked for. -/
theorem driveRun_only_reads (hardware : σ) (calls : List DiskCall) :
    let device := (ataPioInit ports.logged (hardware, [])).1.block ports.logged
    let bus := (runAll (DiskCall.exec device) calls (detected ports.logged (hardware, []))).2.bus
    let log := bus.outside.2.2
    (∀ access ∈ log, ReadOnly access) ∧
      ∃ detecting reading, (heard log).commands = detecting ++ reading ∧ detecting.length ≤ 1 ∧
        (∀ command ∈ detecting, command.1 = 0xEC) ∧
        (∀ command ∈ reading, ReadsSector command.2.address command) ∧
        (reading.map fun command => command.2.address).Sublist
          (bus.requests.map Request.sector) := by
  intro device bus log
  obtain ⟨hdevice, hlog, hfew, hidentify⟩ := ataPioInit_heard ports hardware
  have hstart : OnlyReads (detected ports.logged (hardware, [])).bus :=
    ⟨hdevice, hlog, _, [], (List.append_nil _).symm, hfew, hidentify, by simp, by simp⟩
  have hend : OnlyReads bus := (onlyReads_invariant ports _).runAll calls rfl hstart
  exact ⟨hend.readOnly, hend.commands⟩

end

end LevOS.Filesystem
