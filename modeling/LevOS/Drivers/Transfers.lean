import LevOS.Drivers.Ata

/-!
# What a failed read leaves behind

A read polls the status three times before it takes any data, and the status is read
once more after the last of these waits. The drive may change its mind between any two
reads. Whatever it answers, a read that fails leaves the buffer as it was and puts the
reason on record.

## Main definitions

* `Access`, `Ports.logged`, hardware that keeps a log of the accesses to its ports
* `Polls`, `Served`, logs without data and logs that end in the data of a sector
* `Outcome`, what a read of a present device leaves behind

## Main results

* `ataPioReadSector_logged`, the accesses of a read
* `ataPioReadSector_outcome`
-/

namespace LevOS.Drivers

/-- An access to a port, with the value that is passed. -/
inductive Access
  | inb (port : UInt16) (value : UInt8)
  | inw (port : UInt16) (value : UInt16)
  | outb (port : UInt16) (value : UInt8)
  deriving DecidableEq

/-- The accesses that take data. -/
def Access.isData : Access → Bool
  | .inw _ _ => true
  | .inb _ _ => false
  | .outb _ _ => false

section

variable {σ : Type}

/-- The same hardware, with a log of the accesses to it. -/
def Ports.logged (ports : Ports σ) : Ports (σ × List Access) where
  inb port h :=
    let (value, next) := ports.inb port h.1
    (value, next, h.2 ++ [.inb port value])
  inw port h :=
    let (value, next) := ports.inw port h.1
    (value, next, h.2 ++ [.inw port value])
  outb port value h := (ports.outb port value h.1, h.2 ++ [.outb port value])

variable {ports : Ports σ}

@[simp]
theorem logged_inb (port : UInt16) (h : σ) (log : List Access) :
    ports.logged.inb port (h, log) =
      ((ports.inb port h).1, (ports.inb port h).2, log ++ [.inb port (ports.inb port h).1]) := rfl

@[simp]
theorem logged_inw (port : UInt16) (h : σ) (log : List Access) :
    ports.logged.inw port (h, log) =
      ((ports.inw port h).1, (ports.inw port h).2, log ++ [.inw port (ports.inw port h).1]) := rfl

/-! ## The accesses of a wait -/

/-- One log goes on from another with at most `n` accesses, none of which takes data. -/
def Polls (n : Nat) (log trace : List Access) : Prop :=
  ∃ added, trace = log ++ added ∧ added.length ≤ n ∧ ∀ access ∈ added, access.isData = false

theorem Polls.append {n k : Nat} {log log' log'' : List Access} (h : Polls n log log')
    (h' : Polls k log' log'') : Polls (n + k) log log'' := by
  obtain ⟨added, rfl, hlength, hbytes⟩ := h
  obtain ⟨later, rfl, hlater, hbytes'⟩ := h'
  refine ⟨added ++ later, List.append_assoc _ _ _, ?_, ?_⟩
  · rw [List.length_append]
    exact Nat.add_le_add hlength hlater
  · intro access haccess
    rcases List.mem_append.mp haccess with hfirst | hsecond
    · exact hbytes access hfirst
    · exact hbytes' access hsecond

theorem Polls.refl (n : Nat) (log : List Access) : Polls n log log :=
  ⟨[], (List.append_nil log).symm, Nat.zero_le n, by simp⟩

theorem Polls.one (access : Access) (h : access.isData = false) (log : List Access) :
    Polls 1 log (log ++ [access]) :=
  ⟨[access], rfl, Nat.le_refl 1, by simpa using h⟩

variable (ports) in
theorem ataDelay_logged (device : AtaDevice) (h : σ) (log : List Access) :
    ∃ log', Polls 4 log log' ∧
      ataDelay ports.logged device (h, log) = (ataDelay ports device h, log') := by
  refine ⟨_, ?_, rfl⟩
  exact (((Polls.one _ rfl _).append (.one _ rfl _)).append (.one _ rfl _)).append (.one _ rfl _)

variable (ports) in
theorem ataPoll_logged (device : AtaDevice) (dataRequest : Bool) (n : Nat) (h : σ)
    (log : List Access) :
    let reply := ataPoll ports device dataRequest n h
    ∃ log', Polls n log log' ∧
      ataPoll ports.logged device dataRequest n (h, log) =
        ⟨reply.status, reply.device, (reply.hardware, log')⟩ := by
  induction n generalizing h log with
  | zero => exact ⟨log, .refl 0 log, rfl⟩
  | succ n ih =>
    have hpoll : Polls 1 log (log ++ [.inb (device.ioBase + 7) (ataStatus ports device h).1]) :=
      .one _ rfl log
    have hleft := hpoll.append (.refl n _)
    rw [Nat.add_comm] at hleft
    simp only [ataPoll]
    by_cases hnone : (ataStatus ports device h).1 = 0 ∨ (ataStatus ports device h).1 = 0xFF
    · refine ⟨_, hleft, (if_pos hnone).trans ?_⟩
      rw [if_pos hnone]
      rfl
    by_cases herror : (ataStatus ports device h).1 &&& (0x01 ||| 0x20) ≠ 0
    · refine ⟨_, hleft, (if_neg hnone).trans ((if_pos herror).trans ?_)⟩
      rw [if_neg hnone, if_pos herror]
      rfl
    by_cases hdone : (ataStatus ports device h).1 &&& 0x80 = 0 ∧
        (!dataRequest ∨ (ataStatus ports device h).1 &&& 0x08 ≠ 0)
    · refine ⟨_, hleft, (if_neg hnone).trans ((if_neg herror).trans ((if_pos hdone).trans ?_))⟩
      rw [if_neg hnone, if_neg herror, if_pos hdone]
      rfl
    · obtain ⟨log', hrest, hsame⟩ := ih (ataStatus ports device h).2 _
      have hboth := hpoll.append hrest
      rw [Nat.add_comm] at hboth
      refine ⟨log', hboth, (if_neg hnone).trans ((if_neg herror).trans ((if_neg hdone).trans ?_))⟩
      rw [if_neg hnone, if_neg herror, if_neg hdone]
      exact hsame

variable (ports) in
theorem ataWait_logged (device : AtaDevice) (dataRequest : Bool) (h : σ) (log : List Access) :
    let reply := ataWait ports device dataRequest h
    ∃ log', Polls 1000004 log log' ∧
      ataWait ports.logged device dataRequest (h, log) =
        ⟨reply.status, reply.device, (reply.hardware, log')⟩ := by
  obtain ⟨log', hdelay, hdelayed⟩ := ataDelay_logged ports device h log
  obtain ⟨log'', hpoll, hpolled⟩ :=
    ataPoll_logged ports device dataRequest 1000000 (ataDelay ports device h) log'
  simp only [ataWait, hdelayed]
  exact ⟨log'', hdelay.append hpoll, hpolled⟩

/-! ## The accesses of a read -/

variable (ports) in
theorem inputSector_logged (device : AtaDevice) (buffer : Buffer) (n : Nat) (h : σ)
    (log : List Access) :
    ∃ data, data.length = n ∧ (∀ access ∈ data, ∃ word, access = .inw device.ioBase word) ∧
      inputSector ports.logged device buffer n (h, log) =
        ((inputSector ports device buffer n h).1, (inputSector ports device buffer n h).2,
          log ++ data) := by
  induction n with
  | zero => exact ⟨[], rfl, by simp, by simp [inputSector]⟩
  | succ n ih =>
    obtain ⟨data, hlength, hport, hsame⟩ := ih
    refine ⟨data ++ [.inw device.ioBase
      (ports.inw device.ioBase (inputSector ports device buffer n h).2).1], ?_, ?_, ?_⟩
    · rw [List.length_append, hlength, List.length_singleton]
    · intro access haccess
      rcases List.mem_append.mp haccess with hfirst | hlast
      · exact hport access hfirst
      · exact ⟨_, List.mem_singleton.mp hlast⟩
    · simp only [inputSector, hsame, logged_inw, List.append_assoc]

/-- A log that ends in the data of a sector. The access before them is a read of the status,
which has the data request bit and no error bit; nothing is taken before. -/
def Served (ioBase : UInt16) (log : List Access) : Prop :=
  ∃ earlier status data, log = earlier ++ .inb (ioBase + 7) status :: data ∧
    (∀ access ∈ earlier, access.isData = false) ∧
    status &&& (0x01 ||| 0x20) = 0 ∧ status &&& 0x08 ≠ 0 ∧
    data.length = 256 ∧ ∀ access ∈ data, ∃ word, access = .inw ioBase word

variable (ports) in
/-- A wait that succeeds leaves the record alone; one that fails puts its status on record. -/
theorem ataWait_outcome (device : AtaDevice) (dataRequest : Bool) (h : σ) :
    let reply := ataWait ports device dataRequest h
    reply.status = 0 ∧ reply.device = device ∨
      reply.status ≠ 0 ∧ reply.device = ataFail device reply.status := by
  have hnodev : ataPioEnodev ≠ 0 := by decide
  have hstatus : ataPioEstatus ≠ 0 := by decide
  have htimeout : ataPioEtimeout ≠ 0 := by decide
  -- induction on the turns of the loop
  simp only [ataWait]
  generalize ataDelay ports device h = h
  induction 1000000 generalizing h with
  | zero => exact .inr ⟨htimeout, rfl⟩
  | succ n ih =>
    simp only [ataPoll]
    split_ifs
    · exact .inr ⟨hnodev, rfl⟩
    · exact .inr ⟨hstatus, rfl⟩
    · exact .inl ⟨rfl, rfl⟩
    · exact ih _

/-! ## The ways through a read -/

section Ways

variable {buffer : Buffer} {device : AtaDevice} {sector : UInt32} {h : σ}
  {served idle selected : AtaReply σ}

theorem ataReceive_of_wait (hwait : ataWait ports device true h = served)
    (hfail : served.status ≠ 0) :
    ataReceive ports buffer device h =
      (buffer, { served with status := served.device.lastError }) := by
  subst hwait
  exact if_pos hfail

theorem ataReceive_of_error (hwait : ataWait ports device true h = served)
    (hok : served.status = 0)
    (herror : (ports.inb (served.device.ioBase + 7) served.hardware).1 &&& (0x01 ||| 0x20) ≠ 0) :
    ataReceive ports buffer device h =
      (buffer, ⟨ataPioEstatus, ataFail served.device ataPioEstatus,
        (ports.inb (served.device.ioBase + 7) served.hardware).2⟩) := by
  subst hwait
  exact (if_neg (not_not.mpr hok)).trans (if_pos herror)

theorem ataReceive_of_no_request (hwait : ataWait ports device true h = served)
    (hok : served.status = 0)
    (herror : (ports.inb (served.device.ioBase + 7) served.hardware).1 &&& (0x01 ||| 0x20) = 0)
    (hrequest : (ports.inb (served.device.ioBase + 7) served.hardware).1 &&& 0x08 = 0) :
    ataReceive ports buffer device h =
      (buffer, ⟨ataPioEdrq, ataFail served.device ataPioEdrq,
        (ports.inb (served.device.ioBase + 7) served.hardware).2⟩) := by
  subst hwait
  exact (if_neg (not_not.mpr hok)).trans ((if_neg (not_not.mpr herror)).trans (if_pos hrequest))

theorem ataReceive_of_request (hwait : ataWait ports device true h = served)
    (hok : served.status = 0)
    (herror : (ports.inb (served.device.ioBase + 7) served.hardware).1 &&& (0x01 ||| 0x20) = 0)
    (hrequest : (ports.inb (served.device.ioBase + 7) served.hardware).1 &&& 0x08 ≠ 0) :
    let taken := inputSector ports served.device buffer 256
      (ports.inb (served.device.ioBase + 7) served.hardware).2
    ataReceive ports buffer device h =
      (taken.1, ⟨0, { served.device with lastError := 0 }, taken.2⟩) := by
  subst hwait
  simp only [ataReceive, if_neg (not_not.mpr hok), if_neg (not_not.mpr herror), if_neg hrequest]

variable (ports) in
/-- The device register is written with the upper four bits of the address. -/
def selectSector (sector : UInt32) (device : AtaDevice) (h : σ) : σ :=
  ports.outb (device.ioBase + 6) (device.driveSelect ||| ((sector >>> 24) &&& 0x0F).toUInt8) h

variable (ports) in
/-- The count, the rest of the address and the command are written. -/
def commandSector (sector : UInt32) (device : AtaDevice) (h : σ) : σ :=
  ports.outb (device.ioBase + 7) 0x20 (ports.outb (device.ioBase + 5) (sector >>> 16).toUInt8
    (ports.outb (device.ioBase + 4) (sector >>> 8).toUInt8
      (ports.outb (device.ioBase + 3) sector.toUInt8 (ports.outb (device.ioBase + 2) 1 h))))

theorem ataPioReadSector_of_invalid (hinvalid : device.sectorSize ≠ 512 ∨ 0x0FFFFFFF < sector) :
    ataPioReadSector ports sector buffer device h = (buffer, ⟨ataPioEinval, device, h⟩) :=
  if_pos hinvalid

theorem ataPioReadSector_of_absent (hvalid : ¬ (device.sectorSize ≠ 512 ∨ 0x0FFFFFFF < sector))
    (habsent : device.present = 0) :
    ataPioReadSector ports sector buffer device h =
      (buffer, ⟨ataPioEnodev, ataFail device ataPioEnodev, h⟩) :=
  (if_neg hvalid).trans (if_pos habsent)

theorem ataPioReadSector_of_busy (hvalid : ¬ (device.sectorSize ≠ 512 ∨ 0x0FFFFFFF < sector))
    (hpresent : device.present ≠ 0) (hidle : ataWait ports device false h = idle)
    (hfail : idle.status ≠ 0) :
    ataPioReadSector ports sector buffer device h =
      (buffer, { idle with status := idle.device.lastError }) := by
  subst hidle
  exact (if_neg hvalid).trans ((if_neg hpresent).trans (if_pos hfail))

theorem ataPioReadSector_of_unselected
    (hvalid : ¬ (device.sectorSize ≠ 512 ∨ 0x0FFFFFFF < sector)) (hpresent : device.present ≠ 0)
    (hidle : ataWait ports device false h = idle) (hok : idle.status = 0)
    (hselected : ataWait ports idle.device false
      (selectSector ports sector idle.device idle.hardware) = selected)
    (hfail : selected.status ≠ 0) :
    ataPioReadSector ports sector buffer device h =
      (buffer, { selected with status := selected.device.lastError }) := by
  subst hidle hselected
  exact (if_neg hvalid).trans ((if_neg hpresent).trans
    ((if_neg (not_not.mpr hok)).trans (if_pos hfail)))

theorem ataPioReadSector_of_selected
    (hvalid : ¬ (device.sectorSize ≠ 512 ∨ 0x0FFFFFFF < sector)) (hpresent : device.present ≠ 0)
    (hidle : ataWait ports device false h = idle) (hok : idle.status = 0)
    (hselected : ataWait ports idle.device false
      (selectSector ports sector idle.device idle.hardware) = selected)
    (hok' : selected.status = 0) :
    ataPioReadSector ports sector buffer device h =
      ataReceive ports buffer selected.device
        (commandSector ports sector selected.device selected.hardware) := by
  subst hidle hselected
  exact (if_neg hvalid).trans ((if_neg hpresent).trans
    ((if_neg (not_not.mpr hok)).trans (if_neg (not_not.mpr hok'))))

end Ways

/-! ## Outcomes -/

/-- What a read of a present device leaves behind: if it fails, the buffer as it was and the
reason on record, and the device is forgotten if there is none. -/
structure Outcome (buffer : Buffer) (result : Buffer × AtaReply σ) : Prop where
  failed : result.2.status ≠ 0 → result.1 = buffer
  recorded : result.2.device.lastError = result.2.status
  present : result.2.status ≠ 0 →
    (result.2.device.present = 0 ↔ result.2.status = ataPioEnodev)

theorem Outcome.fail (buffer : Buffer) {device : AtaDevice} (hpresent : device.present ≠ 0)
    (error : Int) (h : σ) : Outcome buffer (buffer, ⟨error, ataFail device error, h⟩) where
  failed _ := rfl
  recorded := rfl
  present _ := by simp [ataFail, hpresent]

/-- A read that ends with a wait that fails. -/
theorem Outcome.wait (buffer : Buffer) {device : AtaDevice} (hpresent : device.present ≠ 0)
    {reply : AtaReply σ} (hdevice : reply.device = ataFail device reply.status) :
    Outcome buffer (buffer, { reply with status := reply.device.lastError }) := by
  simp only [hdevice, ataFail_lastError]
  exact .fail buffer hpresent _ _

theorem ataReceive_outcome (buffer : Buffer) {device : AtaDevice} (hpresent : device.present ≠ 0)
    (h : σ) : Outcome buffer (ataReceive ports buffer device h) := by
  obtain ⟨hok, hdevice⟩ | ⟨hfail, hdevice⟩ := ataWait_outcome ports device true h
  · generalize hwait : ataWait ports device true h = served at hok hdevice
    have hkept : served.device.present ≠ 0 := hdevice ▸ hpresent
    by_cases herror :
        (ports.inb (served.device.ioBase + 7) served.hardware).1 &&& (0x01 ||| 0x20) = 0
    · by_cases hrequest : (ports.inb (served.device.ioBase + 7) served.hardware).1 &&& 0x08 = 0
      · rw [ataReceive_of_no_request hwait hok herror hrequest]
        exact .fail buffer hkept _ _
      · rw [ataReceive_of_request hwait hok herror hrequest]
        exact ⟨fun hne => absurd rfl hne, rfl, fun hne => absurd rfl hne⟩
    · rw [ataReceive_of_error hwait hok herror]
      exact .fail buffer hkept _ _
  · rw [ataReceive_of_wait rfl hfail]
    exact .wait buffer hpresent hdevice

theorem ataPioReadSector_present {sector : UInt32} (buffer : Buffer) {device : AtaDevice}
    (hvalid : ¬ (device.sectorSize ≠ 512 ∨ 0x0FFFFFFF < sector)) (hpresent : device.present ≠ 0)
    (h : σ) : Outcome buffer (ataPioReadSector ports sector buffer device h) := by
  obtain ⟨hok, hdevice⟩ | ⟨hfail, hdevice⟩ := ataWait_outcome ports device false h
  · generalize hidle : ataWait ports device false h = idle at hok hdevice
    obtain ⟨hok', hdevice'⟩ | ⟨hfail, hdevice'⟩ :=
      ataWait_outcome ports idle.device false (selectSector ports sector idle.device idle.hardware)
    · rw [ataPioReadSector_of_selected hvalid hpresent hidle hok rfl hok', hdevice', hdevice]
      exact ataReceive_outcome buffer hpresent _
    · rw [ataPioReadSector_of_unselected hvalid hpresent hidle hok rfl hfail]
      exact .wait buffer (hdevice ▸ hpresent) hdevice'
  · rw [ataPioReadSector_of_busy hvalid hpresent rfl hfail]
    exact .wait buffer hpresent hdevice

/-! ## The log of a read -/

theorem Polls.no_data {n : Nat} {log log' : List Access} (h : Polls n log log')
    (hlog : ∀ access ∈ log, access.isData = false) : ∀ access ∈ log', access.isData = false := by
  obtain ⟨added, rfl, -, hbytes⟩ := h
  intro access haccess
  exact (List.mem_append.mp haccess).elim (hlog access) (hbytes access)

theorem Polls.length_le {n : Nat} {log log' : List Access} (h : Polls n log log') :
    log'.length ≤ log.length + n := by
  obtain ⟨added, rfl, hlength, -⟩ := h
  rw [List.length_append]
  exact Nat.add_le_add_left hlength _

/-- The result of a step of the driver on logged hardware. -/
def AtaReply.withLog (reply : AtaReply σ) (log : List Access) : AtaReply (σ × List Access) :=
  ⟨reply.status, reply.device, (reply.hardware, log)⟩

/-- A read on logged hardware: it has the result of the read and adds at most `n` accesses, and
if it succeeds, its log ends in the data of the sector. -/
def Logs (n : Nat) (ioBase : UInt16) (log : List Access) (plain : Buffer × AtaReply σ)
    (result : Buffer × AtaReply (σ × List Access)) : Prop :=
  ∃ log', result = (plain.1, plain.2.withLog log') ∧ log'.length ≤ log.length + n ∧
    (plain.2.status = 0 → Served ioBase log')

theorem Polls.logs {n k : Nat} {ioBase : UInt16} {log log' : List Access} (h : Polls k log log')
    (hle : k ≤ n) (buffer : Buffer) {reply : AtaReply σ} (hfail : reply.status ≠ 0) :
    Logs n ioBase log (buffer, reply) (buffer, reply.withLog log') :=
  ⟨log', rfl, h.length_le.trans (Nat.add_le_add_left hle _), fun hzero => absurd hzero hfail⟩

variable (ports) in
theorem selectSector_logged (sector : UInt32) (device : AtaDevice) (h : σ) (log : List Access) :
    ∃ log', Polls 1 log log' ∧ selectSector ports.logged sector device (h, log) =
      (selectSector ports sector device h, log') :=
  ⟨_, .one _ rfl log, rfl⟩

variable (ports) in
theorem commandSector_logged (sector : UInt32) (device : AtaDevice) (h : σ) (log : List Access) :
    ∃ log', Polls 5 log log' ∧ commandSector ports.logged sector device (h, log) =
      (commandSector ports sector device h, log') := by
  refine ⟨_, ?_, rfl⟩
  exact ((((Polls.one _ rfl _).append (.one _ rfl _)).append (.one _ rfl _)).append
    (.one _ rfl _)).append (.one _ rfl _)

/-- The part of a read after the command. -/
theorem ataReceive_logged (buffer : Buffer) (device : AtaDevice) (h : σ)
    {log : List Access} (hlog : ∀ access ∈ log, access.isData = false) :
    Logs 1000261 device.ioBase log (ataReceive ports buffer device h)
      (ataReceive ports.logged buffer device (h, log)) := by
  obtain ⟨log', hpolls, hwait'⟩ := ataWait_logged ports device true h log
  obtain ⟨hok, hdevice⟩ | ⟨hfail, hdevice⟩ := ataWait_outcome ports device true h
  · generalize hwait : ataWait ports device true h = served at hok hdevice hwait'
    have hpolled := hpolls.append (.one (.inb (served.device.ioBase + 7)
      (ports.inb (served.device.ioBase + 7) served.hardware).1) rfl log')
    by_cases herror :
        (ports.inb (served.device.ioBase + 7) served.hardware).1 &&& (0x01 ||| 0x20) = 0
    · by_cases hrequest : (ports.inb (served.device.ioBase + 7) served.hardware).1 &&& 0x08 = 0
      · rw [ataReceive_of_no_request hwait hok herror hrequest,
          ataReceive_of_no_request hwait' hok herror hrequest]
        exact hpolled.logs (by decide) buffer (show ataPioEdrq ≠ 0 by decide)
      · obtain ⟨data, hlength, hport, hsame⟩ := inputSector_logged ports served.device buffer 256
          (ports.inb (served.device.ioBase + 7) served.hardware).2
          (log' ++ [.inb (served.device.ioBase + 7)
            (ports.inb (served.device.ioBase + 7) served.hardware).1])
        rw [ataReceive_of_request hwait hok herror hrequest,
          ataReceive_of_request hwait' hok herror hrequest]
        simp only [logged_inb, hsame]
        generalize inputSector ports served.device buffer 256 _ = taken
        refine ⟨_, rfl, ?_, fun _ => ⟨log', _, data, ?_, hpolls.no_data hlog, herror, hrequest,
          hlength, hdevice ▸ hport⟩⟩
        · have hbefore := hpolled.length_le
          rw [List.length_append, hlength]
          omega
        · rw [List.append_assoc, List.singleton_append, hdevice]
    · rw [ataReceive_of_error hwait hok herror, ataReceive_of_error hwait' hok herror]
      exact hpolled.logs (by decide) buffer (show ataPioEstatus ≠ 0 by decide)
  · rw [ataReceive_of_wait rfl hfail, ataReceive_of_wait hwait' hfail]
    refine hpolls.logs (by decide) buffer ?_
    rw [hdevice]
    exact hfail

/-- A whole read. -/
theorem ataPioReadSector_logged (ports : Ports σ) (sector : UInt32) (buffer : Buffer)
    (device : AtaDevice) (h : σ) :
    Logs 3000275 device.ioBase [] (ataPioReadSector ports sector buffer device h)
      (ataPioReadSector ports.logged sector buffer device (h, [])) := by
  have hnone : Polls 0 [] [] := .refl 0 []
  by_cases hinvalid : device.sectorSize ≠ 512 ∨ 0x0FFFFFFF < sector
  · rw [ataPioReadSector_of_invalid hinvalid, ataPioReadSector_of_invalid hinvalid]
    exact hnone.logs (by decide) buffer (show ataPioEinval ≠ 0 by decide)
  by_cases habsent : device.present = 0
  · rw [ataPioReadSector_of_absent hinvalid habsent, ataPioReadSector_of_absent hinvalid habsent]
    exact hnone.logs (by decide) buffer (show ataPioEnodev ≠ 0 by decide)
  -- wait, select, wait, command, receive: the log of each part behind that of the parts before
  obtain ⟨log₁, hpolls₁, hidle'⟩ := ataWait_logged ports device false h []
  obtain ⟨hok, hdevice⟩ | ⟨hfail, hdevice⟩ := ataWait_outcome ports device false h
  · generalize hidle : ataWait ports device false h = idle at hok hdevice hidle'
    obtain ⟨log₂, hpolls₂, hselect⟩ :=
      selectSector_logged ports sector idle.device idle.hardware log₁
    obtain ⟨log₃, hpolls₃, hselected'⟩ := ataWait_logged ports idle.device false
      (selectSector ports sector idle.device idle.hardware) log₂
    have hwaited := (hpolls₁.append hpolls₂).append hpolls₃
    rw [← hselect] at hselected'
    obtain ⟨hok', hdevice'⟩ | ⟨hfail, hdevice'⟩ :=
      ataWait_outcome ports idle.device false (selectSector ports sector idle.device idle.hardware)
    · generalize hselected : ataWait ports idle.device false _ = selected
        at hok' hdevice' hselected'
      obtain ⟨log₄, hpolls₄, hcommand⟩ :=
        commandSector_logged ports sector selected.device selected.hardware log₃
      rw [ataPioReadSector_of_selected hinvalid habsent hidle hok hselected hok',
        ataPioReadSector_of_selected hinvalid habsent hidle' hok hselected' hok', hcommand]
      have hwritten := hwaited.append hpolls₄
      -- until now nothing was read from the data port
      obtain ⟨log', hsame, hlength, hserved⟩ := ataReceive_logged buffer selected.device
        (commandSector ports sector selected.device selected.hardware)
        (hwritten.no_data (List.forall_mem_nil _))
      have hbase : selected.device.ioBase = device.ioBase := by rw [hdevice', hdevice]
      have hbefore := hwritten.length_le
      refine ⟨log', hsame, ?_, fun hzero => hbase ▸ hserved hzero⟩
      simp only [List.length_nil] at hbefore ⊢
      omega
    · rw [ataPioReadSector_of_unselected hinvalid habsent hidle hok rfl hfail,
        ataPioReadSector_of_unselected hinvalid habsent hidle' hok hselected' hfail]
      refine hwaited.logs (by decide) buffer ?_
      rw [hdevice']
      exact hfail
  · rw [ataPioReadSector_of_busy hinvalid habsent rfl hfail,
      ataPioReadSector_of_busy hinvalid habsent hidle' hfail]
    refine hpolls₁.logs (by decide) buffer ?_
    rw [hdevice]
    exact hfail

/-- Whatever the drive answers, a read ends after a bounded number of accesses. If it fails,
the buffer is as before; if it fails for another reason than its arguments, the reason is on
record and the device is forgotten exactly if there is none. If it succeeds, the status before
the data had the data request bit and no error bit. -/
theorem ataPioReadSector_outcome (ports : Ports σ) (sector : UInt32) (buffer : Buffer)
    (device : AtaDevice) (hardware : σ) :
    let result := ataPioReadSector ports sector buffer device hardware
    (result.2.status ≠ 0 → result.1 = buffer) ∧
      (result.2.status ≠ 0 → result.2.status ≠ ataPioEinval →
        result.2.device.lastError = result.2.status ∧
          (result.2.device.present = 0 ↔ result.2.status = ataPioEnodev)) ∧
      (result.2.status = 0 → result.2.device.lastError = 0) ∧
      ∃ log, ataPioReadSector ports.logged sector buffer device (hardware, []) =
          (result.1, result.2.withLog log) ∧
        log.length ≤ 3000275 ∧ (result.2.status = 0 → Served device.ioBase log) := by
  intro result
  obtain ⟨log, hsame, hlength, hserved⟩ :=
    ataPioReadSector_logged ports sector buffer device hardware
  have hlog : ∃ log, ataPioReadSector ports.logged sector buffer device (hardware, []) =
      (result.1, result.2.withLog log) ∧
      log.length ≤ 3000275 ∧ (result.2.status = 0 → Served device.ioBase log) :=
    ⟨log, hsame, by rwa [List.length_nil, Nat.zero_add] at hlength, hserved⟩
  -- an invalid request is not recorded, a missing drive is, and so is what a drive answers
  by_cases hinvalid : device.sectorSize ≠ 512 ∨ 0x0FFFFFFF < sector
  · have hresult : result = (buffer, ⟨ataPioEinval, device, hardware⟩) :=
      ataPioReadSector_of_invalid hinvalid
    have hfail : result.2.status = ataPioEinval := by rw [hresult]
    refine ⟨fun _ => by rw [hresult], fun _ hother => absurd hfail hother, ?_, hlog⟩
    rw [hfail]
    exact fun hzero => absurd hzero (by decide)
  by_cases habsent : device.present = 0
  · have hresult : result = (buffer, ⟨ataPioEnodev, ataFail device ataPioEnodev, hardware⟩) :=
      ataPioReadSector_of_absent hinvalid habsent
    refine ⟨fun _ => by rw [hresult], fun _ _ => ?_, fun hzero => ?_, hlog⟩
    · rw [hresult]
      exact ⟨rfl, iff_of_true rfl rfl⟩
    · rw [hresult] at hzero
      exact absurd hzero (show ataPioEnodev ≠ 0 by decide)
  · have houtcome : Outcome buffer result :=
      ataPioReadSector_present buffer hinvalid habsent hardware
    refine ⟨houtcome.failed, fun hfail _ => ⟨houtcome.recorded, houtcome.present hfail⟩, ?_, hlog⟩
    exact fun hzero => houtcome.recorded.trans hzero

end

end LevOS.Drivers
