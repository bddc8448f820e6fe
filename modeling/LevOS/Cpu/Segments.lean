import LevOS.Cpu.Machine

/-!
# Segment registers

Segment descriptors of an IA-32 processor, and the data segment registers. They
are not part of an interrupt's frame: an interrupt leaves them as they are, and
`iretd` to an outer privilege level clears those whose segment the outer level
may not use. `memory/gdt.c` fills the descriptor table, and `gdt_flush` loads the
registers.

## Main definitions

* `Descriptor`, `Descriptor.dpl`, `descriptor`, what a selector names
* `usable`, a data segment that code of a privilege level may use
* `Segments`, `Segments.iretd`, the data segment registers
* `initGDT`, `gdtFlush`
-/

namespace LevOS.Cpu

/-! ## Descriptors -/

/-- `struct gdt_entry`. -/
structure Descriptor where
  limitLow : UInt16
  baseLow : UInt16
  baseMiddle : UInt8
  access : UInt8
  granularity : UInt8
  baseHigh : UInt8
  deriving DecidableEq, Repr

namespace Descriptor

variable (d : Descriptor)

/-- The present bit. -/
def present : Bool := d.access &&& 0x80 != 0

/-- The privilege level of the segment. -/
def dpl : UInt16 := (d.access >>> 5 &&& 3).toUInt16

/-- A segment of data, not of code or of the system. -/
def data : Bool := d.access &&& 0x18 == 0x10

end Descriptor

/-- The privilege level that a selector requests. -/
def requested (selector : UInt16) : UInt16 := selector &&& 3

/-- The descriptor that a selector names. The null selectors name none, and there is no
local table. -/
def descriptor (gdt : List Descriptor) (selector : UInt16) : Option Descriptor :=
  if selector &&& 0xFFFC = 0 ∨ selector &&& 4 ≠ 0 then none else gdt[(selector >>> 3).toNat]?

/-- The selector names a data segment that code of a privilege level may use. -/
def usable (gdt : List Descriptor) (level selector : UInt16) : Bool :=
  match descriptor gdt selector with
  | none => false
  | some d => d.present && d.data && decide (level ≤ d.dpl) && decide (requested selector ≤ d.dpl)

/-! ## Registers -/

/-- The data segment registers. -/
structure Segments where
  ds : UInt16
  es : UInt16
  fs : UInt16
  gs : UInt16
  deriving DecidableEq, Repr

/-- A data segment register. -/
inductive SegmentReg
  | ds | es | fs | gs
  deriving DecidableEq, Repr

namespace Segments

/-- What `iretd` to an outer level makes of a register: a segment of an inner level is
replaced by the null selector. -/
def returned (gdt : List Descriptor) (level selector : UInt16) : UInt16 :=
  match descriptor gdt selector with
  | none => selector
  | some d => if d.dpl < level then 0 else selector

/-- The registers after `iretd` to a level. A return within ring 0 keeps them. -/
def iretd (gdt : List Descriptor) (level : UInt16) (s : Segments) : Segments :=
  if level = 0 then s
  else
    { ds := returned gdt level s.ds
      es := returned gdt level s.es
      fs := returned gdt level s.fs
      gs := returned gdt level s.gs }

/-- Load a register. -/
def load (s : Segments) (selector : UInt16) : SegmentReg → Segments
  | .ds => { s with ds := selector }
  | .es => { s with es := selector }
  | .fs => { s with fs := selector }
  | .gs => { s with gs := selector }

/-- A load that does not fault: of a null selector, or of a segment that the level may
use. -/
def loads (gdt : List Descriptor) (level selector : UInt16) : Bool :=
  selector &&& 0xFFFC == 0 || usable gdt level selector

end Segments

/-- A null selector is usable nowhere. -/
theorem usable_null (gdt : List Descriptor) (level : UInt16) : usable gdt level 0 = false := rfl

/-! ## The descriptor table of the kernel -/

/-- `set_entry`. -/
def setEntry (base limit : UInt32) (access granularity : UInt8) : Descriptor where
  baseLow := (base &&& 0xFFFF).toUInt16
  baseMiddle := (base >>> 16 &&& 0xFF).toUInt8
  baseHigh := (base >>> 24 &&& 0xFF).toUInt8
  limitLow := (limit &&& 0xFFFF).toUInt16
  granularity := (limit >>> 16 &&& 0x0F).toUInt8 ||| (granularity &&& 0xF0)
  access := access

/-- The table that `init_GDT` fills, with the task state segment at an address. -/
def initGDT (tss : UInt32) : List Descriptor :=
  [setEntry 0 0 0 0,
    -- ring 0 code and data
    setEntry 0 0xFFFFFFFF 0x9A 0xCF, setEntry 0 0xFFFFFFFF 0x92 0xCF,
    -- ring 3 code and data
    setEntry 0 0xFFFFFFFF 0xFA 0xCF, setEntry 0 0xFFFFFFFF 0xF2 0xCF,
    setEntry tss (104 - 1) 0x89 0x00]

/-- The registers after `gdt_flush`. -/
def gdtFlush : Segments where
  ds := 0x10
  es := 0x10
  fs := 0x10
  gs := 0x10

section Kernel

variable (tss : UInt32) {level : UInt16}

theorem descriptor_kernelData :
    descriptor (initGDT tss) 0x10 = some (setEntry 0 0xFFFFFFFF 0x92 0xCF) :=
  rfl

/-- The kernel's data segment is one of ring 0. -/
theorem usable_kernelData : usable (initGDT tss) 0 0x10 = true := by
  rw [usable, descriptor_kernelData]
  decide

/-- `iretd` to an outer level clears the kernel's data segment. -/
theorem returned_kernelData (hlevel : level ≠ 0) :
    Segments.returned (initGDT tss) level 0x10 = 0 := by
  rw [Segments.returned, descriptor_kernelData]
  have hdpl : (setEntry 0 0xFFFFFFFF 0x92 0xCF).dpl = 0 := by decide
  have hpos : 0 < level := UInt16.pos_iff_ne_zero.mpr hlevel
  exact if_pos (hdpl ▸ hpos)

end Kernel

end LevOS.Cpu
