import LevOS.Drivers.Ata
import LevOS.Drivers.Pit
import Mathlib.Data.List.Count

/-!
# The interrupt controllers

Two 8259A controllers collect the interrupt lines of the machine. The kernel maps them behind
the exceptions (`picremap` in `drivers/io.c`), masks all lines but those of the timer and the
keyboard, and dismisses an interrupt with one command when its handler has done its work
(`end_interrupt`, called by `isr_common_handler`). The command does not say which interrupt
is meant: the controller takes the one of the highest priority that is being served.

## Main definitions

* `Pic`, one controller, and `Chipset`, both of them with the timer, behind their ports
* `picremap`, `endInterrupt`, `timerInit`, `initKeyboard` as in the source
* `Interrupts.step`, lines rise, the processor accepts, a handler ends

## Main results

* `Interrupts.Run.serving`, the invariant of a run
* `interrupts_conserved`
* `timer_rate`
-/

namespace LevOS.Drivers

/-! ## One controller -/

/-- The bit of a line. -/
def lineBit (line : Nat) : UInt8 := 1 <<< UInt8.ofNat line

/-- Some line of a set is set in a register. -/
def hasLine (lines : UInt8) (line : Nat) : Bool := lines &&& lineBit line != 0

/-- The line of the highest priority, which is that of the lowest number. -/
def firstLine (lines : UInt8) : Option Nat := (List.range 8).find? (hasLine lines)

/-- What a controller waits for on its data port while it is initialised. -/
inductive InitWord
  | icw2
  | icw3
  | icw4
  deriving DecidableEq

/-- The four words of an initialisation. -/
structure InitWords where
  icw1 : UInt8
  icw2 : UInt8
  icw3 : UInt8
  icw4 : UInt8
  deriving DecidableEq

/-- A controller: the lines that have asked, those being served, those masked, the words of its
last initialisation, and those of them that are still to come. Lines count by their edges, as
those of a PC do whatever the first word says. -/
structure Pic where
  irr : UInt8
  isr : UInt8
  imr : UInt8
  words : InitWords
  awaited : List InitWord
  deriving DecidableEq

namespace Pic

/-- A byte for the command port. Of the commands of the chip the kernel gives these two: it
starts an initialisation, and ends the interrupt of the highest priority. -/
def command (p : Pic) (value : UInt8) : Pic :=
  if value &&& 0x10 ≠ 0 then
    -- until they come the third word is seven, and no function of the fourth is chosen
    { irr := 0, isr := 0, imr := 0, words := ⟨value, p.words.icw2, 0x07, 0⟩,
      awaited := .icw2 :: (if value &&& 0x02 = 0 then [.icw3] else []) ++
        if value &&& 0x01 ≠ 0 then [.icw4] else [] }
  else if value = 0x20 then
    match firstLine p.isr with
    | none => p
    | some line => { p with isr := p.isr &&& ~~~lineBit line }
  else p

/-- A byte for the data port: a word of the initialisation, or the mask. -/
def data (p : Pic) (value : UInt8) : Pic :=
  match p.awaited with
  | [] => { p with imr := value }
  | .icw2 :: rest => { p with words := { p.words with icw2 := value }, awaited := rest }
  | .icw3 :: rest => { p with words := { p.words with icw3 := value }, awaited := rest }
  | .icw4 :: rest => { p with words := { p.words with icw4 := value }, awaited := rest }

/-- There is more than one controller. -/
def cascaded (p : Pic) : Bool := p.words.icw1 &&& 0x02 == 0

/-- A line is that of another controller, for the first one. -/
def hasSlave (p : Pic) (line : Nat) : Bool := p.cascaded && hasLine p.words.icw3 line

/-- The number that a controller has been given is that of a line, for the second one. -/
def identifies (p : Pic) (line : Nat) : Bool :=
  p.cascaded && p.words.icw3 &&& 0x07 == UInt8.ofNat line

/-- A request of another controller is taken while an earlier one of it is being served. -/
def nests (p : Pic) (line : Nat) : Bool := p.words.icw4 &&& 0x10 != 0 && p.hasSlave line

/-- Interrupts end by themselves once they have been acknowledged. With another processor than
an 8086 that takes a third cycle, which does not come here. -/
def autoEnds (p : Pic) : Bool := p.words.icw4 &&& 0x03 == 0x03

/-- What a controller answers for a line: the vector, or, if it has not been told that the
processor is an 8086, the middle byte of a call to a table of four or eight bytes a line. -/
def answer (p : Pic) (line : Nat) : UInt8 :=
  let n := UInt8.ofNat line
  if p.words.icw4 &&& 0x01 ≠ 0 then (p.words.icw2 &&& 0xF8) ||| n
  else if p.words.icw1 &&& 0x04 ≠ 0 then (p.words.icw1 &&& 0xE0) ||| (4 * n)
  else (p.words.icw1 &&& 0xC0) ||| (8 * n)

/-- The line that a controller offers: the first of those that ask and are not masked, unless
it or one in front of it is being served. -/
def offers (p : Pic) : Option Nat :=
  match firstLine (p.irr &&& ~~~p.imr), firstLine p.isr with
  | none, _ => none
  | some line, none => some line
  | some line, some served =>
    if line < served ∨ (line = served ∧ p.nests line) then some line else none

/-- A line is served. -/
def serve (p : Pic) (line : Nat) : Pic :=
  { p with
    irr := p.irr &&& ~~~lineBit line
    isr := if p.autoEnds then p.isr else p.isr ||| lineBit line }

/-- An acknowledgement: the line that is offered is served. When no line asks any more, which
happens if it has fallen again, it is taken for line 7, and nothing is served. -/
def accept (p : Pic) : Nat × Pic :=
  match p.offers with
  | none => (7, p)
  | some line => (line, p.serve line)

/-- A line rises, or falls again before it has been served. -/
def request (p : Pic) (line : Nat) (high : Bool) : Pic :=
  { p with irr := if high then p.irr ||| lineBit line else p.irr &&& ~~~lineBit line }

end Pic

/-! ## The chips behind the ports -/

/-- The controllers, of which the second is on line 2 of the first, and the timer chip. -/
structure Chipset where
  master : Pic
  slave : Pic
  pit : Pit
  deriving DecidableEq

namespace Chipset

/-- A byte for one of the ports. -/
def outb (port : UInt16) (value : UInt8) (c : Chipset) : Chipset :=
  if port = 0x20 then { c with master := c.master.command value }
  else if port = 0x21 then { c with master := c.master.data value }
  else if port = 0xA0 then { c with slave := c.slave.command value }
  else if port = 0xA1 then { c with slave := c.slave.data value }
  else if port = 0x40 then { c with pit := c.pit.write 0 value }
  else if port = 0x41 then { c with pit := c.pit.write 1 value }
  else if port = 0x42 then { c with pit := c.pit.write 2 value }
  else if port = 0x43 then { c with pit := c.pit.control value }
  else c

/-- A byte from one of the ports. -/
def inb (port : UInt16) (c : Chipset) : UInt8 :=
  if port = 0x20 then c.master.irr
  else if port = 0x21 then c.master.imr
  else if port = 0xA0 then c.slave.irr
  else if port = 0xA1 then c.slave.imr
  else 0

/-- The ports of the chips. -/
def ports : Ports Chipset where
  inb port c := (inb port c, c)
  inw _ c := (0, c)
  outb := outb

/-- The first controller with its line 2 as the second one drives it. -/
def wired (c : Chipset) : Pic := c.master.request 2 c.slave.offers.isSome

/-- The processor acknowledges: the vector, and the chips afterwards. For a line of another
controller that one answers, if it has the number of the line; if nobody answers the bus is
high. -/
def acknowledge (c : Chipset) : UInt8 × Chipset :=
  let (line, master) := c.wired.accept
  if c.master.hasSlave line then
    if c.slave.identifies line then
      let (line', slave) := c.slave.accept
      (c.slave.answer line', { c with master := master, slave := slave })
    else (0xFF, { c with master := master })
  else (c.master.answer line, { c with master := master })

/-- One of the sixteen lines changes. -/
def request (c : Chipset) (line : Nat) (high : Bool) : Chipset :=
  if line < 8 then { c with master := c.master.request line high }
  else { c with slave := c.slave.request (line - 8) high }

/-- One of the sixteen lines has asked. -/
def asks (c : Chipset) (line : Nat) : Bool :=
  if line < 8 then hasLine c.master.irr line else hasLine c.slave.irr (line - 8)

end Chipset

/-! ## The kernel's part -/

section

variable {σ : Type} (ports : Ports σ)

/-- `picremap`. -/
def picremap (h : σ) : σ :=
  let h := ports.outb 0x20 0x11 h
  let h := ports.outb 0xA0 0x11 h
  let h := ports.outb 0x21 0x20 h
  let h := ports.outb 0xA1 0x28 h
  let h := ports.outb 0x21 0x04 h
  let h := ports.outb 0xA1 0x02 h
  let h := ports.outb 0x21 0x01 h
  let h := ports.outb 0xA1 0x01 h
  let h := ports.outb 0x21 0xFD h
  ports.outb 0xA1 0xFF h

/-- `end_interrupt`. -/
def endInterrupt (irq : UInt32) (h : σ) : σ :=
  let h := if 8 ≤ irq then ports.outb 0xA0 0x20 h else h
  ports.outb 0x20 0x20 h

/-- `timer_init`. -/
def timerInit (frequency : UInt32) (h : σ) : σ :=
  let frequency := if frequency = 0 then 100 else frequency
  let divisor := 1193180 / frequency
  let divisor := if divisor = 0 then 1 else divisor
  let h := ports.outb 0x43 0x36 h
  let h := ports.outb 0x40 (divisor &&& 0xFF).toUInt8 h
  let h := ports.outb 0x40 ((divisor >>> 8) &&& 0xFF).toUInt8 h
  let (mask, h) := ports.inb 0x21 h
  ports.outb 0x21 (mask &&& ~~~1) h

/-- `init_keyboard`, as far as the controllers are concerned. -/
def initKeyboard (h : σ) : σ :=
  let (mask, h) := ports.inb 0x21 h
  ports.outb 0x21 (mask &&& ~~~((1 : UInt8) <<< 1)) h

/-- What `isr_common_handler` tells the controllers. -/
def isrEnd (vector : UInt32) (h : σ) : σ :=
  if vector = 0x20 then endInterrupt ports 0 h
  else if vector = 0x21 then endInterrupt ports 1 h
  else if vector = 0x80 then h
  else if 0x20 ≤ vector ∧ vector ≤ 0x2F then endInterrupt ports (vector - 0x20) h
  else h

end

/-! ## Interrupts -/

/-- The chips, and the vector whose handler is running. Handlers run with interrupts off. -/
structure Interrupts where
  chipset : Chipset
  handling : Option UInt8
  deriving DecidableEq

/-- What can happen next: a line rises or falls, the processor accepts, or the handler comes to
its end. -/
inductive InterruptEvent
  | line (n : Nat) (high : Bool)
  | accept
  | finish

/-- What a step has done: a line has begun to ask, has given up, or neither; a vector has been
delivered, or its handler has ended. -/
inductive InterruptReport
  | latched (line : Nat)
  | withdrawn (line : Nat)
  | idle
  | delivered (vector : UInt8)
  | ended
  deriving DecidableEq

/-- One step. The second controller occupies line 2 of the first one. -/
def Interrupts.step (s : Interrupts) : InterruptEvent → Option (InterruptReport × Interrupts)
  | .line n high =>
    if 16 ≤ n ∨ n = 2 then none
    else
      some (if s.chipset.asks n = high then .idle else if high then .latched n else .withdrawn n,
        { s with chipset := s.chipset.request n high })
  | .accept =>
    match s.handling with
    | some _ => none
    | none =>
      let (vector, chipset) := s.chipset.acknowledge
      some (.delivered vector, ⟨chipset, some vector⟩)
  | .finish =>
    match s.handling with
    | none => none
    | some vector => some (.ended, ⟨isrEnd Chipset.ports vector.toUInt32 s.chipset, none⟩)

/-- A sequence of steps, with what they did. -/
inductive Interrupts.Run :
    Interrupts → List InterruptEvent → List InterruptReport → Interrupts → Prop
  | nil {s} : Run s [] [] s
  | snoc {s s' s'' events event reports report} : Run s events reports s' →
      s'.step event = some (report, s'') → Run s (events ++ [event]) (reports ++ [report]) s''

/-! ### The configuration -/

/-- The controllers as the kernel has set them up: vectors from 32 on, and all lines but those
of timer and keyboard masked. -/
structure Chipset.Configured (c : Chipset) : Prop where
  masterWords : c.master.words = ⟨0x11, 0x20, 0x04, 0x01⟩
  slaveWords : c.slave.words = ⟨0x11, 0x28, 0x02, 0x01⟩
  masterMask : c.master.imr = 0xFC
  slaveMask : c.slave.imr = 0xFF
  masterReady : c.master.awaited = []
  slaveReady : c.slave.awaited = []

/-- What is being served while the handler of a vector runs. Line 7 is not: it stands for a
line that has fallen again. -/
def servedBy : Option UInt8 → Option UInt8
  | none => some 0
  | some vector =>
    if vector = 0x20 then some 1 else if vector = 0x21 then some 2
    else if vector = 0x27 then some 0 else none

/-- The vector of a line. -/
def vectorOf (line : Nat) : UInt8 := 0x20 + UInt8.ofNat line

/-- The invariant: what is served is what the handler that is running will dismiss. -/
structure Interrupts.Serving (s : Interrupts) : Prop where
  configured : s.chipset.Configured
  slaveIsr : s.chipset.slave.isr = 0
  masterIsr : servedBy s.handling = some s.chipset.master.isr

/-! ### Lines -/

theorem hasLine_eq (lines : UInt8) {line : Nat} (h : line < 8) :
    hasLine lines line = lines.toBitVec.getLsbD line := by
  -- eight lines and 256 sets of them
  have hall : ∀ l < 8, ∀ b : BitVec 8, hasLine ⟨b⟩ l = b.getLsbD l := by decide +kernel
  exact hall line h lines.toBitVec

theorem getLsbD_lineBit {line line' : Nat} (h : line < 8) (h' : line' < 8) :
    (lineBit line).toBitVec.getLsbD line' = (line == line') := by
  have hall : ∀ l < 8, ∀ m < 8, (lineBit l).toBitVec.getLsbD m = (l == m) := by decide +kernel
  exact hall line h line' h'

theorem hasLine_set (lines : UInt8) {line line' : Nat} (h : line < 8) (h' : line' < 8) :
    hasLine (lines ||| lineBit line) line' = (hasLine lines line' || line == line') := by
  rw [hasLine_eq _ h', hasLine_eq _ h', UInt8.toBitVec_or, BitVec.getLsbD_or,
    getLsbD_lineBit h h']

theorem hasLine_clear (lines : UInt8) {line line' : Nat} (h : line < 8) (h' : line' < 8) :
    hasLine (lines &&& ~~~lineBit line) line' = (hasLine lines line' && line != line') := by
  rw [hasLine_eq _ h', hasLine_eq _ h', UInt8.toBitVec_and, BitVec.getLsbD_and,
    UInt8.toBitVec_not, BitVec.getLsbD_not, getLsbD_lineBit h h']
  simp [h', bne]

/-- Of the lines that are not masked the timer comes first. -/
theorem firstLine_unmasked (lines : UInt8) :
    firstLine ((lines &&& ~~~lineBit 2) &&& ~~~0xFC) =
      if hasLine lines 0 then some 0 else if hasLine lines 1 then some 1 else none := by
  have hall : ∀ b : BitVec 8, firstLine ((⟨b⟩ &&& ~~~lineBit 2) &&& ~~~0xFC) =
      if hasLine ⟨b⟩ 0 then some 0 else if hasLine ⟨b⟩ 1 then some 1 else none := by decide +kernel
  exact hall lines.toBitVec

namespace Chipset

variable {c : Chipset}

theorem Configured.slave_offers (h : c.Configured) : c.slave.offers = none := by
  have hmask : c.slave.irr &&& ~~~c.slave.imr = 0 := by
    rw [h.slaveMask]
    exact UInt8.and_zero
  rw [Pic.offers, hmask]
  rfl

theorem Configured.wired_eq (h : c.Configured) :
    c.wired = { c.master with irr := c.master.irr &&& ~~~lineBit 2 } := by
  rw [wired, h.slave_offers]
  rfl

/-- While nothing is served, the processor is given the timer, or else the keyboard, or else
the vector that stands for no line. -/
theorem Configured.acknowledge (h : c.Configured) (hidle : c.master.isr = 0) :
    c.acknowledge =
      if c.asks 0 then (0x20, { c with master := c.wired.serve 0 })
      else if c.asks 1 then (0x21, { c with master := c.wired.serve 1 })
      else (0x27, { c with master := c.wired }) := by
  have hoffers : c.wired.offers =
      if c.asks 0 then some 0 else if c.asks 1 then some 1 else none := by
    rw [h.wired_eq, Pic.offers]
    simp only [hidle, h.masterMask, firstLine_unmasked]
    rw [show c.asks 0 = hasLine c.master.irr 0 from rfl,
      show c.asks 1 = hasLine c.master.irr 1 from rfl]
    split_ifs <;> rfl
  -- none of the lines that are left is that of the second controller
  have hown {line : Nat} (hline : line = 0 ∨ line = 1 ∨ line = 7) :
      c.master.hasSlave line = false ∧ c.master.answer line = 0x20 ||| UInt8.ofNat line := by
    rw [Pic.hasSlave, Pic.cascaded, Pic.answer, h.masterWords]
    rcases hline with rfl | rfl | rfl <;> decide
  rw [Chipset.acknowledge, Pic.accept, hoffers]
  split_ifs with htimer hkeyboard
  · simp only [hown (.inl rfl)]
    rfl
  · simp only [hown (.inr (.inl rfl))]
    rfl
  · simp only [hown (.inr (.inr rfl))]
    rfl

theorem Configured.request (h : c.Configured) (line : Nat) (high : Bool) :
    (c.request line high).Configured := by
  unfold Chipset.request
  split_ifs
  · exact ⟨h.masterWords, h.slaveWords, h.masterMask, h.slaveMask, h.masterReady, h.slaveReady⟩
  · exact ⟨h.masterWords, h.slaveWords, h.masterMask, h.slaveMask, h.masterReady, h.slaveReady⟩

theorem Configured.wired (h : c.Configured) : Configured { c with master := c.wired } := by
  rw [h.wired_eq]
  exact ⟨h.masterWords, h.slaveWords, h.masterMask, h.slaveMask, h.masterReady, h.slaveReady⟩

theorem Configured.serve (h : c.Configured) (line : Nat) :
    Configured { c with master := c.wired.serve line } := by
  rw [h.wired_eq]
  exact ⟨h.masterWords, h.slaveWords, h.masterMask, h.slaveMask, h.masterReady, h.slaveReady⟩

/-- What is served is being served until the kernel ends it. -/
theorem Configured.serve_isr (h : c.Configured) (line : Nat) :
    (c.wired.serve line).isr = c.master.isr ||| lineBit line := by
  have hends : c.master.autoEnds = false := by
    rw [Pic.autoEnds, h.masterWords]
    decide
  rw [h.wired_eq]
  change (if c.master.autoEnds = true then _ else _) = _
  rw [hends]
  rfl

end Chipset

namespace Interrupts

variable {s s' : Interrupts}

theorem Serving.request (h : s.Serving) (line : Nat) (high : Bool) :
    Serving { s with chipset := s.chipset.request line high } := by
  refine ⟨h.configured.request line high, ?_, ?_⟩
  · unfold Chipset.request
    split_ifs <;> exact h.slaveIsr
  · unfold Chipset.request
    split_ifs <;> exact h.masterIsr

/-- Which vectors stand for something that is served. -/
theorem servedBy_eq_some {vector lines : UInt8} (h : servedBy (some vector) = some lines) :
    (vector = 0x20 ∧ lines = 1) ∨ (vector = 0x21 ∧ lines = 2) ∨ (vector = 0x27 ∧ lines = 0) := by
  simp only [servedBy] at h
  split_ifs at h with htimer hkeyboard hnone
  · exact Or.inl ⟨htimer, (Option.some.inj h).symm⟩
  · exact Or.inr (Or.inl ⟨hkeyboard, (Option.some.inj h).symm⟩)
  · exact Or.inr (Or.inr ⟨hnone, (Option.some.inj h).symm⟩)

/-- The end of a handler dismisses what its vector stands for, and nothing else. -/
theorem isrEnd_eq {vector : UInt8} {c : Chipset}
    (hserved : servedBy (some vector) = some c.master.isr) :
    isrEnd Chipset.ports vector.toUInt32 c = { c with master := { c.master with isr := 0 } } := by
  have hend : isrEnd Chipset.ports vector.toUInt32 c =
      { c with master := c.master.command 0x20 } := by
    rcases servedBy_eq_some hserved with ⟨rfl, -⟩ | ⟨rfl, -⟩ | ⟨rfl, -⟩ <;> rfl
  have hcommand : c.master.command 0x20 = { c.master with isr := 0 } := by
    rw [Pic.command, if_neg (by decide), if_pos rfl]
    rcases servedBy_eq_some hserved with ⟨-, hisr⟩ | ⟨-, hisr⟩ | ⟨-, hisr⟩
    · rw [hisr, show firstLine 1 = some 0 by decide]
      simp only [show (1 : UInt8) &&& ~~~lineBit 0 = 0 by decide]
    · rw [hisr, show firstLine 2 = some 1 by decide]
      simp only [show (2 : UInt8) &&& ~~~lineBit 1 = 0 by decide]
    · rw [hisr, show firstLine 0 = none by decide]
      simp only [← hisr]
  rw [hend, hcommand]

theorem Serving.finish (h : s.Serving) {vector : UInt8} (hhandling : s.handling = some vector) :
    Serving ⟨isrEnd Chipset.ports vector.toUInt32 s.chipset, none⟩ := by
  have hserved := h.masterIsr
  rw [hhandling] at hserved
  have hconfigured := h.configured
  rw [isrEnd_eq hserved]
  exact ⟨⟨hconfigured.masterWords, hconfigured.slaveWords, hconfigured.masterMask,
    hconfigured.slaveMask, hconfigured.masterReady, hconfigured.slaveReady⟩, h.slaveIsr, rfl⟩

theorem Serving.accept (h : s.Serving) (hidle : s.handling = none) :
    Serving ⟨s.chipset.acknowledge.2, some s.chipset.acknowledge.1⟩ := by
  have hisr : s.chipset.master.isr = 0 := by
    have hserved := h.masterIsr
    rw [hidle] at hserved
    exact (Option.some.inj hserved).symm
  rw [h.configured.acknowledge hisr]
  split_ifs
  · refine ⟨h.configured.serve 0, h.slaveIsr, ?_⟩
    simp only [h.configured.serve_isr, hisr]
    decide
  · refine ⟨h.configured.serve 1, h.slaveIsr, ?_⟩
    simp only [h.configured.serve_isr, hisr]
    decide
  · refine ⟨h.configured.wired, h.slaveIsr, ?_⟩
    simp only [h.configured.wired_eq, hisr]
    decide

/-- What a step can be. -/
theorem step_cases {event : InterruptEvent} {report : InterruptReport}
    (h : s.step event = some (report, s')) :
    (∃ n high, event = .line n high ∧ ¬ (16 ≤ n ∨ n = 2) ∧
        report = (if s.chipset.asks n = high then .idle
          else if high then .latched n else .withdrawn n) ∧
        s' = { s with chipset := s.chipset.request n high }) ∨
      (event = .accept ∧ s.handling = none ∧ report = .delivered s.chipset.acknowledge.1 ∧
        s' = ⟨s.chipset.acknowledge.2, some s.chipset.acknowledge.1⟩) ∨
      ∃ vector, event = .finish ∧ s.handling = some vector ∧ report = .ended ∧
        s' = ⟨isrEnd Chipset.ports vector.toUInt32 s.chipset, none⟩ := by
  cases event with
  | line n high =>
    by_cases hline : 16 ≤ n ∨ n = 2
    · simp [Interrupts.step, hline] at h
    · rw [Interrupts.step, if_neg hline] at h
      obtain ⟨rfl, rfl⟩ := Prod.mk.inj (Option.some.inj h)
      exact Or.inl ⟨n, high, rfl, hline, rfl, rfl⟩
  | accept =>
    cases hhandling : s.handling with
    | some vector => simp [Interrupts.step, hhandling] at h
    | none =>
      simp only [Interrupts.step, hhandling] at h
      obtain ⟨rfl, rfl⟩ := Prod.mk.inj (Option.some.inj h)
      exact Or.inr (Or.inl ⟨rfl, rfl, rfl, rfl⟩)
  | finish =>
    cases hhandling : s.handling with
    | none => simp [Interrupts.step, hhandling] at h
    | some vector =>
      simp only [Interrupts.step, hhandling] at h
      obtain ⟨rfl, rfl⟩ := Prod.mk.inj (Option.some.inj h)
      exact Or.inr (Or.inr ⟨vector, rfl, rfl, rfl, rfl⟩)

theorem Serving.step (h : s.Serving) {event : InterruptEvent} {report : InterruptReport}
    (hstep : s.step event = some (report, s')) : s'.Serving := by
  rcases step_cases hstep with ⟨n, high, -, -, -, rfl⟩ | ⟨-, hidle, -, rfl⟩ |
    ⟨vector, -, hvector, -, rfl⟩
  · exact h.request n high
  · exact h.accept hidle
  · exact h.finish hvector

theorem Run.serving {events : List InterruptEvent} {reports : List InterruptReport}
    (h : Interrupts.Run s events reports s') (hstart : s.Serving) : s'.Serving := by
  induction h with
  | nil => exact hstart
  | snoc _ hstep ih => exact ih.step hstep

/-! ### Requests -/

/-- A line of the first controller that changes is the only one that asks for more or less. -/
theorem asks_request (c : Chipset) {line line' : Nat} (h : ¬ (16 ≤ line ∨ line = 2))
    (h' : line' < 2) (high : Bool) :
    (c.request line high).asks line' = if line = line' then high else c.asks line' := by
  have hfirst : line' < 8 := by omega
  unfold Chipset.request
  by_cases hmaster : line < 8
  · rw [if_pos hmaster, Chipset.asks, if_pos hfirst, Chipset.asks, if_pos hfirst]
    cases high with
    | true =>
      have hset := hasLine_set c.master.irr hmaster hfirst
      simp only [Pic.request, if_true, hset]
      split_ifs with heq <;> simp [heq]
    | false =>
      have hclear := hasLine_clear c.master.irr hmaster hfirst
      simp only [Pic.request, Bool.false_eq_true, if_false, hclear]
      split_ifs with heq <;> simp [heq]
  · rw [if_neg hmaster, if_neg (by omega), Chipset.asks, if_pos hfirst, Chipset.asks, if_pos hfirst]

/-- The second controller has a line of its own. -/
theorem asks_wired {c : Chipset} (h : c.Configured) {line : Nat} (hline : line < 2) :
    Chipset.asks { c with master := c.wired } line = c.asks line := by
  have hfirst : line < 8 := by omega
  have hother : (2 != line) = true := by simp; omega
  rw [Chipset.asks, if_pos hfirst, Chipset.asks, if_pos hfirst, h.wired_eq]
  simp only [hasLine_clear c.master.irr (show 2 < 8 by decide) hfirst, hother, Bool.and_true]

/-- What is served asks no longer, and the other line goes on asking. -/
theorem asks_serve {c : Chipset} (h : c.Configured) {line line' : Nat} (hline : line < 2)
    (h' : line' < 2) :
    Chipset.asks { c with master := c.wired.serve line } line' =
      (c.asks line' && line != line') := by
  have hfirst : line' < 8 := by omega
  rw [← asks_wired h h', Chipset.asks, if_pos hfirst, Chipset.asks, if_pos hfirst]
  exact hasLine_clear c.wired.irr (show line < 8 by omega) hfirst

/-- One step takes in a request of the timer or the keyboard, gives it up, delivers it, or
leaves it waiting. -/
theorem Serving.conserves (h : s.Serving) {event : InterruptEvent} {report : InterruptReport}
    (hstep : s.step event = some (report, s')) {line : Nat} (hline : line < 2) :
    (s.chipset.asks line).toNat + [report].count (.latched line) =
      [report].count (.delivered (vectorOf line)) + [report].count (.withdrawn line) +
        (s'.chipset.asks line).toNat := by
  rcases step_cases hstep with ⟨n, high, -, hn, rfl, rfl⟩ | ⟨-, hidle, rfl, rfl⟩ |
    ⟨vector, -, hvector, rfl, rfl⟩
  · -- a change of another line counts for nothing here
    simp only [asks_request s.chipset hn hline]
    by_cases hsame : n = line
    · subst hsame
      cases hasks : s.chipset.asks n <;> cases high <;> simp
    · cases high <;> split_ifs <;> simp [hsame]
  · have hisr := h.masterIsr
    rw [hidle] at hisr
    rw [h.configured.acknowledge (Option.some.inj hisr).symm]
    -- the timer is delivered, or else the keyboard, or else neither of them asks
    rcases (show line = 0 ∨ line = 1 by omega) with rfl | rfl
    · split_ifs with htimer hkeyboard
      · simp [asks_serve h.configured, htimer, vectorOf]
      · simp [asks_serve h.configured, htimer, vectorOf]
      · simp [asks_wired h.configured, htimer, vectorOf]
    · split_ifs with htimer hkeyboard
      · simp [asks_serve h.configured, vectorOf]
      · simp [asks_serve h.configured, hkeyboard, vectorOf]
      · simp [asks_wired h.configured, hkeyboard, vectorOf]
  · -- the end of a handler leaves the requests alone
    have hserved := h.masterIsr
    rw [hvector] at hserved
    rw [isrEnd_eq hserved]
    simp [Chipset.asks]

theorem Run.conserves {events : List InterruptEvent} {reports : List InterruptReport}
    (h : Interrupts.Run s events reports s') (hstart : s.Serving) {line : Nat} (hline : line < 2) :
    (s.chipset.asks line).toNat + reports.count (.latched line) =
      reports.count (.delivered (vectorOf line)) + reports.count (.withdrawn line) +
        (s'.chipset.asks line).toNat := by
  induction h with
  | nil => simp
  | snoc hbefore hstep ih =>
    have hone := (hbefore.serving hstart).conserves hstep hline
    simp only [List.count_append]
    omega

/-- A vector is delivered to its handler. -/
theorem handling_of_delivered {event : InterruptEvent} {vector : UInt8}
    (hstep : s.step event = some (.delivered vector, s')) : s'.handling = some vector := by
  rcases step_cases hstep with ⟨n, high, -, -, hreport, rfl⟩ | ⟨-, -, hreport, rfl⟩ |
    ⟨other, -, -, hreport, rfl⟩
  · split_ifs at hreport
  · exact congrArg some (InterruptReport.delivered.inj hreport).symm
  · cases hreport

/-- Only the vectors of timer and keyboard are delivered, and that of no line. -/
theorem Run.delivers {events : List InterruptEvent} {reports : List InterruptReport}
    (h : Interrupts.Run s events reports s') (hstart : s.Serving) {vector : UInt8}
    (hdelivered : .delivered vector ∈ reports) :
    vector = 0x20 ∨ vector = 0x21 ∨ vector = 0x27 := by
  induction h with
  | nil => exact absurd hdelivered List.not_mem_nil
  | @snoc s₁ s₂ events event reports report hbefore hstep ih =>
    rcases List.mem_append.mp hdelivered with hold | hnew
    · exact ih hold
    · obtain rfl := List.mem_singleton.mp hnew
      have hserved := ((hbefore.serving hstart).step hstep).masterIsr
      rw [handling_of_delivered hstep] at hserved
      rcases servedBy_eq_some hserved with ⟨htimer, -⟩ | ⟨hkeyboard, -⟩ | ⟨hnone, -⟩
      · exact Or.inl htimer
      · exact Or.inr (Or.inl hkeyboard)
      · exact Or.inr (Or.inr hnone)

end Interrupts

/-! ### Boot -/

/-- Between two functions of the kernel lines may rise and fall. -/
def OnlyRequests (c c' : Chipset) : Prop :=
  ∃ lines lines',
    c' = { c with
      master := { c.master with irr := lines }, slave := { c.slave with irr := lines' } }

theorem OnlyRequests.request {c c' : Chipset} (h : OnlyRequests c c') (n : Nat) (high : Bool) :
    OnlyRequests c (c'.request n high) := by
  obtain ⟨lines, lines', rfl⟩ := h
  rw [Chipset.request]
  split_ifs
  · exact ⟨_, _, rfl⟩
  · exact ⟨_, _, rfl⟩

theorem OnlyRequests.awaited {c c' : Chipset} (h : OnlyRequests c c') :
    c'.master.awaited = c.master.awaited := by
  obtain ⟨_, _, rfl⟩ := h
  rfl

/-- The chips as `picremap` leaves them, but for the registers of the first controller. -/
def Chipset.remapped (irr isr imr : UInt8) (pit : Pit) : Chipset where
  master := ⟨irr, isr, imr, ⟨0x11, 0x20, 0x04, 0x01⟩, []⟩
  slave := ⟨0, 0, 0xFF, ⟨0x11, 0x28, 0x02, 0x01⟩, []⟩
  pit := pit

theorem picremap_eq (c : Chipset) : picremap Chipset.ports c = .remapped 0 0 0xFD c.pit := rfl

/-- What `timer_init` divides the clock of the chip by. -/
def timerDivisor (frequency : UInt32) : UInt32 :=
  if 1193180 / (if frequency = 0 then 100 else frequency) = 0 then 1
  else 1193180 / (if frequency = 0 then 100 else frequency)

/-- Counter 0 as `timer_init` programs it. -/
def timerCounter (frequency : UInt32) : Counter :=
  ⟨.both, .squareWave, false, none, some (timerDivisor frequency).toUInt16⟩

theorem timerInit_pit (frequency : UInt32) (c : Chipset) :
    (timerInit Chipset.ports frequency c).pit =
      { c.pit with counter0 := timerCounter frequency } := by
  rw [timerCounter, ← reload_eq]
  rfl

theorem timerInit_eq {c : Chipset} (hready : c.master.awaited = []) (frequency : UInt32) :
    timerInit Chipset.ports frequency c =
      { c with
        master := { c.master with imr := c.master.imr &&& ~~~1 }
        pit := { c.pit with counter0 := timerCounter frequency } } := by
  rw [← timerInit_pit]
  obtain ⟨⟨irr, isr, imr, words, awaited⟩, slave, pit⟩ := c
  subst hready
  rfl

theorem initKeyboard_eq {c : Chipset} (hready : c.master.awaited = []) :
    initKeyboard Chipset.ports c =
      { c with master := { c.master with imr := c.master.imr &&& ~~~2 } } := by
  obtain ⟨⟨irr, isr, imr, words, awaited⟩, slave, pit⟩ := c
  subst hready
  rfl

/-- The chips when the kernel turns interrupts on, if lines have only risen and fallen between
`picremap`, `timer_init` and `init_keyboard`. -/
theorem boot_configured {c₀ c₁ c₂ c : Chipset}
    (hremap : OnlyRequests (picremap Chipset.ports c₀) c₁)
    (htimer : OnlyRequests (timerInit Chipset.ports 100 c₁) c₂)
    (hkeyboard : OnlyRequests (initKeyboard Chipset.ports c₂) c) :
    Interrupts.Serving ⟨c, none⟩ := by
  rw [picremap_eq] at hremap
  obtain ⟨_, _, rfl⟩ := hremap
  rw [timerInit_eq rfl] at htimer
  obtain ⟨_, _, rfl⟩ := htimer
  rw [initKeyboard_eq rfl] at hkeyboard
  obtain ⟨_, _, rfl⟩ := hkeyboard
  have hmask : (0xFD : UInt8) &&& ~~~1 &&& ~~~2 = 0xFC := by decide
  exact ⟨⟨rfl, rfl, hmask, rfl, rfl, rfl⟩, rfl, rfl⟩

/-- The protocol with the controllers, whatever state they are in at boot, and however lines
rise and fall: every request of the timer and the keyboard is delivered once, given up by the
line itself, or still waiting; whenever no handler is running nothing is being served, so that
no line is blocked, and the next interrupt is that of the timer if it asks, else that of the
keyboard if it asks; no other vector is ever delivered but that of a line that has fallen. -/
theorem interrupts_conserved {c₀ c₁ c₂ c : Chipset}
    (hremap : OnlyRequests (picremap Chipset.ports c₀) c₁)
    (htimer : OnlyRequests (timerInit Chipset.ports 100 c₁) c₂)
    (hkeyboard : OnlyRequests (initKeyboard Chipset.ports c₂) c)
    {events : List InterruptEvent} {reports : List InterruptReport} {s : Interrupts}
    (hrun : Interrupts.Run ⟨c, none⟩ events reports s) :
    (∀ line < 2, (c.asks line).toNat + reports.count (.latched line) =
        reports.count (.delivered (vectorOf line)) + reports.count (.withdrawn line) +
          (s.chipset.asks line).toNat) ∧
      (∀ vector, .delivered vector ∈ reports → vector = 0x20 ∨ vector = 0x21 ∨ vector = 0x27) ∧
      (s.handling = none → s.chipset.master.isr = 0 ∧ s.chipset.slave.isr = 0 ∧
        ∃ s', s.step .accept = some (.delivered (if s.chipset.asks 0 then 0x20
          else if s.chipset.asks 1 then 0x21 else 0x27), s')) := by
  have hstart := boot_configured hremap htimer hkeyboard
  have hserving := hrun.serving hstart
  refine ⟨fun line hline => hrun.conserves hstart hline,
    fun vector hdelivered => hrun.delivers hstart hdelivered, fun hidle => ?_⟩
  have hserved := hserving.masterIsr
  rw [hidle] at hserved
  have hisr : s.chipset.master.isr = 0 := (Option.some.inj hserved).symm
  refine ⟨hisr, hserving.slaveIsr, ?_⟩
  simp only [Interrupts.step, hidle, hserving.configured.acknowledge hisr]
  split_ifs
  · exact ⟨_, rfl⟩
  · exact ⟨_, rfl⟩
  · exact ⟨_, rfl⟩

/-- A key is pressed and the timer ticks: the tick is delivered first, and the key after it. -/
theorem interrupts_conserved_key :
    ∃ s, Interrupts.Run
        ⟨.remapped 0 0 0xFC ⟨timerCounter 100, timerCounter 18, timerCounter 1000⟩, none⟩
        [.line 1 true, .line 0 true, .accept, .finish, .accept]
        [.latched 1, .latched 0, .delivered 0x20, .ended, .delivered 0x21] s ∧
      s.chipset.asks 1 = false := by
  let c (irr isr mask : UInt8) : Chipset :=
    .remapped irr isr mask ⟨timerCounter 100, timerCounter 18, timerCounter 1000⟩
  have hremap : OnlyRequests (picremap Chipset.ports (c 0 0 0xFC)) (c 0 0 0xFD) := ⟨0, 0, rfl⟩
  have htimer : OnlyRequests (timerInit Chipset.ports 100 (c 0 0 0xFD)) (c 0 0 0xFC) :=
    ⟨0, 0, by decide +kernel⟩
  have hkeyboard : OnlyRequests (initKeyboard Chipset.ports (c 0 0 0xFC)) (c 0 0 0xFC) :=
    ⟨0, 0, by decide +kernel⟩
  have hpressed : (Interrupts.mk (c 0 0 0xFC) none).step (.line 1 true) =
      some (.latched 1, ⟨c 2 0 0xFC, none⟩) := by decide +kernel
  have hticked : (Interrupts.mk (c 2 0 0xFC) none).step (.line 0 true) =
      some (.latched 0, ⟨c 3 0 0xFC, none⟩) := by decide +kernel
  have htimed : (Interrupts.mk (c 3 0 0xFC) none).step .accept =
      some (.delivered 0x20, ⟨c 2 1 0xFC, some 0x20⟩) := by decide +kernel
  have hended : (Interrupts.mk (c 2 1 0xFC) (some 0x20)).step .finish =
      some (.ended, ⟨c 2 0 0xFC, none⟩) := by decide +kernel
  have htyped : (Interrupts.mk (c 2 0 0xFC) none).step .accept =
      some (.delivered 0x21, ⟨c 0 2 0xFC, some 0x21⟩) := by decide +kernel
  have hrun := Interrupts.Run.snoc (.snoc (.snoc (.snoc (.snoc .nil hpressed) hticked) htimed)
    hended) htyped
  obtain ⟨hcount, -⟩ := interrupts_conserved hremap htimer hkeyboard hrun
  have hone := hcount 1 (by decide)
  rw [show (c 0 0 0xFC).asks 1 = false by decide +kernel] at hone
  refine ⟨_, hrun, ?_⟩
  cases hasks : Chipset.asks (c 0 2 0xFC) 1 with
  | false => rfl
  | true =>
    rw [hasks] at hone
    exact absurd hone (by decide)

/-! ### The rate of the timer -/

theorem timerDivisor_toNat {frequency : UInt32} (h : frequency ≠ 0) :
    (timerDivisor frequency).toNat = max 1 (1193180 / frequency.toNat) := by
  have hdivided : (1193180 / frequency).toNat = 1193180 / frequency.toNat := UInt32.toNat_div _ _
  simp only [timerDivisor, if_neg h]
  split_ifs with hzero
  · rw [← hdivided, hzero]
    rfl
  · have hpositive : (1193180 / frequency).toNat ≠ 0 := fun h => hzero (UInt32.toNat_inj.mp h)
    rw [hdivided] at hpositive ⊢
    omega

/-- The counter counts with the low half of the divisor. -/
theorem timerCounter_period (frequency : UInt32) :
    (timerCounter frequency).period =
      let count := (timerDivisor frequency).toNat % 65536
      if count = 0 then some 65536 else if count = 1 then none else some count := by
  have hreload : (timerDivisor frequency).toUInt16.toNat = (timerDivisor frequency).toNat % 65536 :=
    UInt32.toNat_toUInt16 _
  have hpulses : (timerCounter frequency).pulses (timerDivisor frequency).toUInt16 =
      if (timerDivisor frequency).toNat % 65536 = 0 then 65536
      else (timerDivisor frequency).toNat % 65536 := by
    rw [← hreload]
    exact if_congr UInt16.toNat_inj.symm rfl rfl
  change (if 2 ≤ (timerCounter frequency).pulses _ then _ else none) = _
  rw [hpulses]
  generalize (timerDivisor frequency).toNat % 65536 = count
  by_cases hzero : count = 0
  · simp [hzero]
  · by_cases hone : count = 1
    · simp [hone]
    · simp only [if_neg hzero, if_neg hone]
      exact if_pos (by omega)

/-- The timer ticks at the rate it is asked for, that is with the period that a whole number of
pulses of its clock allows, for 19 to 596590 ticks a second and for no other rate, whatever the
chip has been doing: a slower one would take a divisor of more than 16 bits, of which the chip
is given the lower ones, and for a faster one the divisor is one, for which the chip generates
no square wave. The other counters go on as they were. -/
theorem timer_rate (frequency : UInt32) (c : Chipset) :
    let pit := (timerInit Chipset.ports frequency c).pit
    pit.counter0.mode = .squareWave ∧ pit.counter1 = c.pit.counter1 ∧
      pit.counter2 = c.pit.counter2 ∧
      (pit.counter0.period = some (1193180 / frequency.toNat) ↔
        19 ≤ frequency.toNat ∧ frequency.toNat ≤ 596590) ∧
      (frequency = 0 → pit.counter0.period = some 11931) ∧
      (0 < frequency.toNat → frequency.toNat < 19 →
        pit.counter0.period = some (1193180 / frequency.toNat % 65536)) ∧
      (596590 < frequency.toNat → pit.counter0.period = none) := by
  intro pit
  have hpit : pit = { c.pit with counter0 := timerCounter frequency } := timerInit_pit frequency c
  rw [hpit]
  refine ⟨rfl, rfl, rfl, ?_⟩
  simp only [timerCounter_period]
  by_cases hzero : frequency = 0
  · subst hzero
    decide
  have hpositive : frequency.toNat ≠ 0 := fun h => hzero (UInt32.toNat_inj.mp h)
  rw [timerDivisor_toNat hzero]
  generalize frequency.toNat = rate at hpositive
  -- too slow, at the rate, or too fast
  rcases (show rate < 19 ∨ (19 ≤ rate ∧ rate ≤ 596590) ∨ 596590 < rate by omega) with
    hslow | hrate | hfast
  · have hcounts : ∀ n < 19, n ≠ 0 → 2 ≤ 1193180 / n % 65536 ∧ 65536 ≤ 1193180 / n := by
      decide
    obtain ⟨hcount, hlong⟩ := hcounts rate hslow hpositive
    rw [max_eq_right (by omega), if_neg (by omega), if_neg (by omega), Option.some.injEq]
    exact ⟨iff_of_false (by omega) (by omega), fun h => absurd h hzero, fun _ _ => rfl,
      fun h => absurd h (by omega)⟩
  · have hfits : 1193180 / rate ≤ 1193180 / 19 := Nat.div_le_div_left hrate.1 (by decide)
    have hsome : 1193180 / 596590 ≤ 1193180 / rate := Nat.div_le_div_left hrate.2 (by omega)
    rw [max_eq_right (by omega), Nat.mod_eq_of_lt (by omega), if_neg (by omega),
      if_neg (by omega)]
    exact ⟨iff_of_true rfl hrate, fun h => absurd h hzero, fun _ h => absurd h (by omega),
      fun h => absurd h (by omega)⟩
  · have hone : 1193180 / rate ≤ 1 := by
      have hdivided : 1193180 / rate < 2 := Nat.div_lt_of_lt_mul (by omega)
      omega
    have hnone : (max 1 (1193180 / rate)) % 65536 = 1 := by rw [max_eq_left hone]
    rw [hnone, if_neg (by decide), if_pos rfl]
    exact ⟨iff_of_false (by simp) (by omega), fun h => absurd h hzero,
      fun _ h => absurd h (by omega), fun _ => rfl⟩

end LevOS.Drivers
