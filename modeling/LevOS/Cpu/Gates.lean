import LevOS.Cpu.Isr
import LevOS.Cpu.Segments
import LevOS.Foundation.Records

/-!
# The tables of the processor

The interrupt descriptor table, the segment descriptors and the task state segment as bytes in
memory: `init_IDT` and `init_GDT` write them, `tss_set_kernel_stack` changes one word of them,
and the processor reads them each time it accepts an interrupt. The interrupt path of the other
modules starts from what they make it do.

## Main definitions

* `IDTEntry`, `Descriptor.base`, `Descriptor.limit` and their formats in memory
* `Tables.accept`, `Tables.int`, what the processor makes of the tables
* `KernelTables`, where the kernel has its tables
* `KernelTables.initGDT`, `KernelTables.gdtFlush`, `KernelTables.initIDT`

## Main results

* `setEntry_base`, `idtEntry_offset`, what is split into fields is put together again
* `traps_dispatched`
-/

namespace LevOS.Cpu

open LevOS.Foundation

/-! ## Formats -/

/-- `IDTEntry`. -/
structure IDTEntry where
  lowerOffset : UInt16
  selector : UInt16
  zero : UInt8
  typeAttributes : UInt8
  higherOffset : UInt16
  deriving DecidableEq, Repr

namespace IDTEntry

variable (gate : IDTEntry)

/-- The entry in memory. -/
def format : RecordFormat IDTEntry where
  size := 8
  encode gate := halfBytes gate.lowerOffset ++ halfBytes gate.selector ++
    [gate.zero, gate.typeAttributes] ++ halfBytes gate.higherOffset
  decode bytes :=
    { lowerOffset := half (bytes.getD 0 0) (bytes.getD 1 0)
      selector := half (bytes.getD 2 0) (bytes.getD 3 0)
      zero := bytes.getD 4 0
      typeAttributes := bytes.getD 5 0
      higherOffset := half (bytes.getD 6 0) (bytes.getD 7 0) }
  encode_length _ := rfl
  decode_encode gate := by simp [halfBytes, half_eq]

/-- The address that the gate leads to. -/
def offset : UInt32 := gate.lowerOffset.toUInt32 ||| gate.higherOffset.toUInt32 <<< 16

/-- The outermost level that may use the gate by an instruction. -/
def dpl : UInt16 := (gate.typeAttributes >>> 5 &&& 3).toUInt16

/-- The present bit. -/
def present : Bool := gate.typeAttributes &&& 0x80 != 0

/-- A 32-bit interrupt gate. -/
def interruptGate : Bool := gate.typeAttributes &&& 0x1F == 0x0E

end IDTEntry

namespace Descriptor

variable (d : Descriptor)

/-- The descriptor in memory. -/
def format : RecordFormat Descriptor where
  size := 8
  encode d := halfBytes d.limitLow ++ halfBytes d.baseLow ++
    [d.baseMiddle, d.access, d.granularity, d.baseHigh]
  decode bytes :=
    { limitLow := half (bytes.getD 0 0) (bytes.getD 1 0)
      baseLow := half (bytes.getD 2 0) (bytes.getD 3 0)
      baseMiddle := bytes.getD 4 0
      access := bytes.getD 5 0
      granularity := bytes.getD 6 0
      baseHigh := bytes.getD 7 0 }
  encode_length _ := rfl
  decode_encode d := by simp [halfBytes, half_eq]

/-- Where the segment begins. -/
def base : UInt32 :=
  d.baseLow.toUInt32 ||| d.baseMiddle.toUInt32 <<< 16 ||| d.baseHigh.toUInt32 <<< 24

/-- The last offset of the segment, which is given in bytes or in pages. -/
def limit : UInt32 :=
  let units := d.limitLow.toUInt32 ||| (d.granularity &&& 0x0F).toUInt32 <<< 16
  if d.granularity &&& 0x80 = 0 then units else units <<< 12 ||| 0xFFF

/-- A code segment that runs on its own level. -/
def code : Bool := d.access &&& 0x1C == 0x18

/-- A segment of data that may be written. -/
def writable : Bool := d.data && d.access &&& 2 != 0

end Descriptor

/-- A half word in memory. -/
def halfWord : RecordFormat UInt16 where
  size := 2
  encode := halfBytes
  decode bytes := half (bytes.getD 0 0) (bytes.getD 1 0)
  encode_length _ := rfl
  decode_encode value := by simp [halfBytes, half_eq]

/-! ## The processor -/

/-- A register that says where a table is, with the last offset of the table. -/
structure TableRegister where
  base : UInt32
  limit : UInt32

/-- The table registers: of the interrupt gates, of the segments, and of the task, with the
selector that the last one was loaded with. -/
structure Tables where
  idtr : TableRegister
  gdtr : TableRegister
  task : TableRegister
  taskSelector : UInt16

/-- What makes the processor go through a gate. -/
inductive Cause
  | interrupt
  | exception
  | software
  deriving DecidableEq

namespace Machine

/-- Go through a gate: on another stack, if one is given, push the state to return to and the
error code, and enter the handler. -/
def enter (s : Machine) (stack : Option (UInt32 × UInt16)) (selector : UInt16) (entry : UInt32)
    (error : Option UInt32) : Machine :=
  let frame := [s.eflags, s.cs.toUInt32, s.eip] ++ error.toList
  let entered :=
    match stack with
    | none => s.pushAll frame
    | some (esp, ss) =>
      ({ s.set .esp esp with ss := ss }).pushAll (s.ss.toUInt32 :: s.regs .esp :: frame)
  { entered with cs := selector, eip := entry, eflags := entered.eflags &&& ~~~0x34300 }

end Machine

namespace Tables

variable (t : Tables) (m : Memory)

/-- The gate of a vector. -/
def gate (vector : UInt8) : Option IDTEntry :=
  if 8 * vector.toNat + 7 ≤ t.idtr.limit.toNat then
    some (IDTEntry.format.load m (t.idtr.base + UInt32.ofNat (8 * vector.toNat)))
  else none

/-- The segment that a selector names. -/
def segment (selector : UInt16) : Option Descriptor :=
  if selector &&& 0xFFFC = 0 ∨ selector &&& 4 ≠ 0 then none
  else if 8 * (selector >>> 3).toNat + 7 ≤ t.gdtr.limit.toNat then
    some (Descriptor.format.load m (t.gdtr.base + UInt32.ofNat (8 * (selector >>> 3).toNat)))
  else none

/-- The stack of a level. -/
def stack (level : UInt16) : Option (UInt32 × UInt16) :=
  if 8 * level.toNat + 9 ≤ t.task.limit.toNat then
    some (load32 m (t.task.base + UInt32.ofNat (8 * level.toNat + 4)),
      (load32 m (t.task.base + UInt32.ofNat (8 * level.toNat + 8))).toUInt16)
  else none

/-- The selector names a segment that can be the stack of a level. -/
def stackSegment (level selector : UInt16) : Bool :=
  match t.segment m selector with
  | none => false
  | some d => d.writable && d.present && d.dpl == level && requested selector == level

/-- Accept an interrupt, an exception or an `int` instruction. The result is the state at the
first instruction of the handler, or the exception that is raised instead, with its error
code. -/
def accept (s : Machine) (cause : Cause) (vector : UInt8) (error : Option UInt32) :
    Except (UInt8 × UInt32) Machine :=
  let external : UInt32 := if cause = .interrupt then 1 else 0
  let gateCode := 8 * vector.toUInt32 + 2 + external
  match t.gate s.memory vector with
  | none => .error (13, gateCode)
  | some gate =>
    let segmentCode := (gate.selector &&& 0xFFFC).toUInt32 + external
    if !gate.interruptGate then .error (13, gateCode)
    else if cause = .software ∧ gate.dpl < Machine.ring s.cs then .error (13, gateCode)
    else if !gate.present then .error (11, gateCode)
    else
      match t.segment s.memory gate.selector with
      | none => .error (13, segmentCode)
      | some code =>
        if !code.code || decide (Machine.ring s.cs < code.dpl) then .error (13, segmentCode)
        else if !code.present then .error (11, segmentCode)
        else if code.limit < gate.offset then .error (13, external)
        else
          let selector := (gate.selector &&& 0xFFFC) ||| code.dpl
          if code.dpl = Machine.ring s.cs then .ok (s.enter none selector gate.offset error)
          else
            match t.stack s.memory code.dpl with
            | none => .error (10, (t.taskSelector &&& 0xFFFC).toUInt32 + external)
            | some (esp, ss) =>
              if t.stackSegment s.memory code.dpl ss then
                .ok (s.enter (some (esp, ss)) selector gate.offset error)
              else .error (10, (ss &&& 0xFFFC).toUInt32 + external)

/-- The `int` instruction: an exception that it causes is raised at once. -/
def int (s : Machine) (vector : UInt8) : Except (UInt8 × UInt32) Machine :=
  match t.accept s .software vector none with
  | .ok s' => .ok s'
  | .error (fault, code) => t.accept s .exception fault (some code)

end Tables

/-! ## The kernel's tables -/

/-- `IDT_TYPE_ATTRIBUTES`. -/
def idtTypeAttributes (gateType privilege present : UInt8) : UInt8 :=
  present <<< 7 ||| privilege <<< 5 ||| (gateType &&& 0xF)

/-- The entry that `init_IDT` makes for a vector. -/
def idtEntry (isrTable : UInt8 → UInt32) (i : Nat) : IDTEntry :=
  let offset := isrTable (UInt8.ofNat i)
  { lowerOffset := (offset &&& 0xFFFF).toUInt16
    selector := 0x08
    zero := 0
    typeAttributes := idtTypeAttributes 0xE (if i = 0x80 then 3 else 0) 1
    higherOffset := (offset >>> 16 &&& 0xFFFF).toUInt16 }

/-- Where the linker has put the tables: `IDT`, `gdt`, `tss` and `tss_stack`. -/
structure KernelTables where
  idt : UInt32
  gdt : UInt32
  tss : UInt32
  tssStack : UInt32
  idt_fits : idt.toNat + 2048 ≤ 2 ^ 32
  gdt_fits : gdt.toNat + 48 ≤ 2 ^ 32
  tss_fits : tss.toNat + 104 ≤ 2 ^ 32
  idt_gdt : idt.toNat + 2048 ≤ gdt.toNat ∨ gdt.toNat + 48 ≤ idt.toNat
  idt_tss : idt.toNat + 2048 ≤ tss.toNat ∨ tss.toNat + 104 ≤ idt.toNat
  gdt_tss : gdt.toNat + 48 ≤ tss.toNat ∨ tss.toNat + 104 ≤ gdt.toNat

/-! ### Fields -/

/-- A field of a word. -/
theorem toNat_field (x : UInt32) {k : UInt32} (hk : k.toNat < 32) (n : Nat) {mask : UInt32}
    (hmask : mask.toNat = 2 ^ n - 1) :
    (x >>> k &&& mask).toNat = x.toNat / 2 ^ k.toNat % 2 ^ n := by
  rw [UInt32.toNat_and, hmask, Nat.and_two_pow_sub_one_eq_mod, UInt32.toNat_shiftRight,
    Nat.mod_eq_of_lt hk, Nat.shiftRight_eq_div_pow]

theorem toNat_lowField (x : UInt32) :
    (x &&& 0xFFFF).toUInt16.toUInt32.toNat = x.toNat % 2 ^ 16 := by
  rw [UInt16.toNat_toUInt32, UInt32.toNat_toUInt16, UInt32.toNat_and]
  exact (congrArg (· % 2 ^ 16) (Nat.and_two_pow_sub_one_eq_mod x.toNat 16)).trans
    (Nat.mod_mod _ _)

/-- The base that `set_entry` splits into three fields. -/
theorem setEntry_base (base limit : UInt32) (access granularity : UInt8) :
    (setEntry base limit access granularity).base = base := by
  have hbase := base.toNat_lt
  have hlow := toNat_lowField base
  have hmiddle : (base >>> 16 &&& 0xFF).toUInt8.toUInt32.toNat = base.toNat / 2 ^ 16 % 2 ^ 8 := by
    rw [UInt8.toNat_toUInt32, UInt32.toNat_toUInt8, toNat_field base (by decide) 8 rfl]
    exact Nat.mod_mod _ _
  have hhigh : (base >>> 24 &&& 0xFF).toUInt8.toUInt32.toNat = base.toNat / 2 ^ 24 % 2 ^ 8 := by
    rw [UInt8.toNat_toUInt32, UInt32.toNat_toUInt8, toNat_field base (by decide) 8 rfl]
    exact Nat.mod_mod _ _
  have h16 : (16 : UInt32).toNat = 16 := rfl
  have h24 : (24 : UInt32).toNat = 24 := rfl
  have hjoined := toNat_or_shiftLeft (x := (base &&& 0xFFFF).toUInt16.toUInt32)
    (y := (base >>> 16 &&& 0xFF).toUInt8.toUInt32) (k := 16) (by decide)
    (by rw [hlow, h16]; omega) (by rw [hmiddle, h16]; omega)
  rw [hlow, hmiddle, h16] at hjoined
  apply UInt32.toNat_inj.mp
  change (_ ||| _ ||| _ : UInt32).toNat = _
  rw [toNat_or_shiftLeft (by decide) (by rw [setEntry, hjoined, h24]; omega)
    (by rw [setEntry, hhigh, h24]; omega)]
  simp only [setEntry]
  rw [hjoined, hhigh, h24]
  omega

/-- The address that `init_IDT` splits into two fields. -/
theorem idtEntry_offset (isrTable : UInt8 → UInt32) (i : Nat) :
    (idtEntry isrTable i).offset = isrTable (UInt8.ofNat i) := by
  have hoffset := (isrTable (UInt8.ofNat i)).toNat_lt
  have hlow := toNat_lowField (isrTable (UInt8.ofNat i))
  have hhigh : (isrTable (UInt8.ofNat i) >>> 16 &&& 0xFFFF).toUInt16.toUInt32.toNat =
      (isrTable (UInt8.ofNat i)).toNat / 2 ^ 16 := by
    rw [UInt16.toNat_toUInt32, UInt32.toNat_toUInt16,
      toNat_field (isrTable (UInt8.ofNat i)) (by decide) 16 rfl,
      show (16 : UInt32).toNat = 16 from rfl]
    omega
  have h16 : (16 : UInt32).toNat = 16 := rfl
  apply UInt32.toNat_inj.mp
  simp only [idtEntry, IDTEntry.offset]
  rw [toNat_or_shiftLeft (by decide) (by rw [hlow, h16]; omega) (by rw [hhigh, h16]; omega), hlow,
    hhigh, h16]
  omega

/-- The gate of system calls is the only one for programs. -/
theorem idtEntry_dpl (isrTable : UInt8 → UInt32) (i : Nat) :
    (idtEntry isrTable i).dpl = if i = 0x80 then 3 else 0 := by
  simp only [IDTEntry.dpl, idtEntry]
  split_ifs <;> decide

theorem idtEntry_interruptGate (isrTable : UInt8 → UInt32) (i : Nat) :
    (idtEntry isrTable i).interruptGate = true := by
  simp only [IDTEntry.interruptGate, idtEntry]
  split_ifs <;> decide

theorem idtEntry_present (isrTable : UInt8 → UInt32) (i : Nat) :
    (idtEntry isrTable i).present = true := by
  simp only [IDTEntry.present, idtEntry]
  split_ifs <;> decide

theorem ring_le (selector : UInt16) : Machine.ring selector ≤ 3 := by
  rw [UInt16.le_iff_toNat_le, Machine.ring, UInt16.toNat_and]
  exact Nat.and_le_right

namespace KernelTables

variable (k : KernelTables)

/-- A descriptor of `init_GDT`. -/
def entry (i : Nat) : Descriptor := (Cpu.initGDT k.tss).getD i (setEntry 0 0 0 0)

/-- `init_GDT`, up to its call of `gdt_flush`. -/
def initGDT (m : Memory) : Memory :=
  let m := Descriptor.format.storeTable m k.gdt k.entry 5
  let m := clearWords m k.tss 26
  let m := store32 m (k.tss + 4) (k.tssStack + 4096)
  let m := store32 m (k.tss + 8) 0x10
  let m := halfWord.store m (k.tss + 102) 104
  Descriptor.format.store m (k.gdt + 40) (k.entry 5)

/-- `gdt_flush`: the registers of segments and task, and the memory, in which the processor
marks the descriptor of the task as busy. -/
def gdtFlush (m : Memory) : TableRegister × TableRegister × Memory :=
  let task := Descriptor.format.load m (k.gdt + 40)
  (⟨k.gdt, 47⟩, ⟨task.base, task.limit⟩,
    Descriptor.format.store m (k.gdt + 40) { task with access := task.access ||| 2 })

/-- `init_IDT`: the register of the gates, and the memory. -/
def initIDT (isrTable : UInt8 → UInt32) (m : Memory) : TableRegister × Memory :=
  (⟨k.idt, 2047⟩, IDTEntry.format.storeTable m k.idt (idtEntry isrTable) 256)

/-- `tss_set_kernel_stack`. -/
def tssSetKernelStack (top : UInt32) (m : Memory) : Memory := store32 m (k.tss + 4) top

/-- Whatever else is written to memory, and whenever `tss_set_kernel_stack` is called. The
stacks are the last ones given to it. -/
inductive Kept : Memory → UInt32 → Memory → UInt32 → Prop
  | refl {m top} : Kept m top m top
  | write {m top m' top' a value} : Kept m top m' top' → Outside a k.idt 2048 →
      Outside a k.gdt 48 → Outside a k.tss 104 → Kept m top (Function.update m' a value) top'
  | stack {m top m' top' top''} : Kept m top m' top' →
      Kept m top (k.tssSetKernelStack top'' m') top''

/-! ### What stays in memory -/

/-- The segments and the stack of ring 0 are in memory. -/
structure SegmentsLoaded (m : Memory) (top : UInt32) : Prop where
  entries : ∀ i < 5, Descriptor.format.load m (k.gdt + UInt32.ofNat (8 * i)) = k.entry i
  esp0 : load32 m (k.tss + 4) = top
  ss0 : load32 m (k.tss + 8) = 0x10

/-- The gates are in memory. -/
def GatesLoaded (isrTable : UInt8 → UInt32) (m : Memory) : Prop :=
  ∀ i < 256, IDTEntry.format.load m (k.idt + UInt32.ofNat (8 * i)) = idtEntry isrTable i

variable {k} {m m' : Memory} {top top' : UInt32} {isrTable : UInt8 → UInt32}

theorem toNat_entry {i : Nat} (hi : i < 6) :
    (k.gdt + UInt32.ofNat (8 * i)).toNat = k.gdt.toNat + 8 * i := by
  have hfits := k.gdt_fits
  exact toNat_add_ofNat (by omega)

theorem toNat_gate {i : Nat} (hi : i < 256) :
    (k.idt + UInt32.ofNat (8 * i)).toNat = k.idt.toNat + 8 * i := by
  have hfits := k.idt_fits
  exact toNat_add_ofNat (by omega)

theorem toNat_tss {offset : Nat} (h : offset < 104) :
    (k.tss + UInt32.ofNat offset).toNat = k.tss.toNat + offset := by
  have hfits := k.tss_fits
  exact toNat_add_ofNat (by omega)

/-- A descriptor is what it was if the bytes that change are apart from the table. -/
theorem load_entry {target : UInt32} {size : Nat} (hsame : ∀ a, Outside a target size → m' a = m a)
    (hgdt : k.gdt.toNat + 40 ≤ target.toNat ∨ target.toNat + size ≤ k.gdt.toNat) {i : Nat}
    (hi : i < 5) :
    Descriptor.format.load m' (k.gdt + UInt32.ofNat (8 * i)) =
      Descriptor.format.load m (k.gdt + UInt32.ofNat (8 * i)) := by
  have hfits := k.gdt_fits
  have hentry := toNat_entry (k := k) (show i < 6 by omega)
  refine RecordFormat.load_of_outside hsame ?_ ?_
  · rw [hentry, show Descriptor.format.size = 8 from rfl]
    omega
  · rw [hentry, show Descriptor.format.size = 8 from rfl]
    omega

/-- A block of bytes that is apart from the descriptors and the stack of ring 0 can change. -/
theorem SegmentsLoaded.of_outside (h : k.SegmentsLoaded m top) {target : UInt32} {size : Nat}
    (hsame : ∀ a, Outside a target size → m' a = m a)
    (hgdt : k.gdt.toNat + 40 ≤ target.toNat ∨ target.toNat + size ≤ k.gdt.toNat)
    (htss : k.tss.toNat + 12 ≤ target.toNat ∨ target.toNat + size ≤ k.tss.toNat + 4) :
    k.SegmentsLoaded m' top := by
  have hfits := k.gdt_fits
  have hfits' := k.tss_fits
  have h4 : (k.tss + 4).toNat = k.tss.toNat + 4 := toNat_tss (by decide)
  have h8 : (k.tss + 8).toNat = k.tss.toNat + 8 := toNat_tss (by decide)
  refine ⟨fun i hi => (load_entry hsame hgdt hi).trans (h.entries i hi), ?_, ?_⟩
  · rw [← h.esp0]
    exact load32_of_outside hsame (by omega) (by omega)
  · rw [← h.ss0]
    exact load32_of_outside hsame (by omega) (by omega)

theorem GatesLoaded.of_outside (h : k.GatesLoaded isrTable m) {target : UInt32} {size : Nat}
    (hsame : ∀ a, Outside a target size → m' a = m a)
    (hidt : k.idt.toNat + 2048 ≤ target.toNat ∨ target.toNat + size ≤ k.idt.toNat) :
    k.GatesLoaded isrTable m' := by
  intro i hi
  have hfits := k.idt_fits
  have hgate := toNat_gate (k := k) hi
  rw [← h i hi]
  refine RecordFormat.load_of_outside hsame ?_ ?_
  · rw [hgate, show IDTEntry.format.size = 8 from rfl]
    omega
  · rw [hgate, show IDTEntry.format.size = 8 from rfl]
    omega

theorem update_outside {a b : UInt32} {value : UInt8} (h : Outside b a 1) :
    Function.update m a value b = m b := by
  refine Function.update_of_ne ?_ _ _
  rintro rfl
  unfold Outside at h
  omega

theorem SegmentsLoaded.stack (h : k.SegmentsLoaded m top) (top' : UInt32) :
    k.SegmentsLoaded (k.tssSetKernelStack top' m) top' := by
  have hfits := k.tss_fits
  have hapart := k.gdt_tss
  have h4 : (k.tss + 4).toNat = k.tss.toNat + 4 := toNat_tss (by decide)
  have h8 : (k.tss + 8).toNat = k.tss.toNat + 8 := toNat_tss (by decide)
  have hsame (a : UInt32) (ha : Outside a (k.tss + 4) 4) : k.tssSetKernelStack top' m a = m a :=
    store32_outside ha (by omega)
  refine ⟨fun i hi => ?_, load32_store32_self m _ _, ?_⟩
  · exact (load_entry hsame (by omega) hi).trans (h.entries i hi)
  · rw [← h.ss0]
    exact load32_of_outside hsame (by omega) (by omega)

theorem GatesLoaded.stack (h : k.GatesLoaded isrTable m) (top' : UInt32) :
    k.GatesLoaded isrTable (k.tssSetKernelStack top' m) := by
  have hfits := k.tss_fits
  have hapart := k.idt_tss
  have h4 : (k.tss + 4).toNat = k.tss.toNat + 4 := toNat_tss (by decide)
  refine h.of_outside (fun a ha => store32_outside ha (by omega)) ?_
  omega

/-- The segments stay, and with them the stack that was given last. -/
theorem Kept.segments (h : k.Kept m top m' top') (hloaded : k.SegmentsLoaded m top) :
    k.SegmentsLoaded m' top' := by
  induction h with
  | refl => exact hloaded
  | write _ _ hgdt htss ih =>
    unfold Outside at hgdt htss
    exact ih.of_outside (fun b hb => update_outside hb) (by omega) (by omega)
  | stack _ ih => exact ih.stack _

theorem Kept.gates (h : k.Kept m top m' top') (hloaded : k.GatesLoaded isrTable m) :
    k.GatesLoaded isrTable m' := by
  induction h with
  | refl => exact hloaded
  | write _ hidt _ _ ih =>
    unfold Outside at hidt
    exact ih.of_outside (fun b hb => update_outside hb) (by omega)
  | stack _ ih => exact ih.stack _

/-! ### Boot -/

/-- The descriptor of the task comes after those that handlers use. -/
theorem SegmentsLoaded.storeTask (h : k.SegmentsLoaded m top) (d : Descriptor) :
    k.SegmentsLoaded (Descriptor.format.store m (k.gdt + 40) d) top := by
  have hfits := k.gdt_fits
  have hapart := k.gdt_tss
  have h40 : (k.gdt + 40).toNat = k.gdt.toNat + 40 := toNat_entry (i := 5) (by decide)
  refine h.of_outside (fun a ha => RecordFormat.store_outside ha ?_) ?_ ?_
  · change (k.gdt + 40).toNat + 8 ≤ _
    omega
  · omega
  · change _ ∨ (k.gdt + 40).toNat + 8 ≤ _
    omega

/-- The offset of the permission map comes after the stack of ring 0. -/
theorem SegmentsLoaded.storeMap (h : k.SegmentsLoaded m top) (offset : UInt16) :
    k.SegmentsLoaded (halfWord.store m (k.tss + 102) offset) top := by
  have hfits := k.tss_fits
  have hapart := k.gdt_tss
  have h102 : (k.tss + 102).toNat = k.tss.toNat + 102 := toNat_tss (by decide)
  refine h.of_outside (fun a ha => RecordFormat.store_outside ha ?_) ?_ ?_
  · change (k.tss + 102).toNat + 2 ≤ _
    omega
  · change _ ∨ (k.tss + 102).toNat + 2 ≤ _
    omega
  · omega

/-- The table is filled first, then the task state segment, which is apart from it. -/
theorem initGDT_filled (k : KernelTables) (m : Memory) :
    k.SegmentsLoaded
      (store32 (store32 (clearWords (Descriptor.format.storeTable m k.gdt k.entry 5) k.tss 26)
        (k.tss + 4) (k.tssStack + 4096)) (k.tss + 8) 0x10) (k.tssStack + 4096) := by
  have hgdt := k.gdt_fits
  have htss := k.tss_fits
  have hapart := k.gdt_tss
  have h4 : (k.tss + 4).toNat = k.tss.toNat + 4 := toNat_tss (by decide)
  have h8 : (k.tss + 8).toNat = k.tss.toNat + 8 := toNat_tss (by decide)
  refine ⟨fun i hi => ?_, ?_, load32_store32_self _ _ _⟩
  · have hloaded : Descriptor.format.load (Descriptor.format.storeTable m k.gdt k.entry 5)
        (k.gdt + UInt32.ofNat (8 * i)) = k.entry i :=
      RecordFormat.load_storeTable (by change k.gdt.toNat + 40 ≤ _; omega) (by decide) hi
    rw [← hloaded]
    refine load_entry (fun a (ha : Outside a k.tss 104) => ?_) (by omega) hi
    have hfirst : Outside a (k.tss + 4) 4 := by
      unfold Outside at *
      omega
    have hsecond : Outside a (k.tss + 8) 4 := by
      unfold Outside at *
      omega
    exact (store32_outside hsecond (by omega)).trans
      ((store32_outside hfirst (by omega)).trans (clearWords_outside ha (by omega)))
  · refine (load32_store32_apart (by omega) (by omega) (by omega)).trans ?_
    exact load32_store32_self _ _ _

theorem initGDT_loaded (k : KernelTables) (m : Memory) :
    k.SegmentsLoaded (k.gdtFlush (k.initGDT m)).2.2 (k.tssStack + 4096) :=
  (((initGDT_filled k m).storeMap 104).storeTask _).storeTask _

theorem initIDT_gates (k : KernelTables) (isrTable : UInt8 → UInt32) (m : Memory) :
    k.GatesLoaded isrTable (k.initIDT isrTable m).2 := by
  intro i hi
  have hfits := k.idt_fits
  exact RecordFormat.load_storeTable (by change k.idt.toNat + 2048 ≤ _; omega) (by decide) hi

theorem initIDT_segments (h : k.SegmentsLoaded m top) :
    k.SegmentsLoaded (k.initIDT isrTable m).2 top := by
  have hfits := k.idt_fits
  have hgdt := k.idt_gdt
  have htss := k.idt_tss
  have hsame (a : UInt32) (ha : Outside a k.idt 2048) : (k.initIDT isrTable m).2 a = m a :=
    RecordFormat.storeTable_outside ha (by change k.idt.toNat + 2048 ≤ _; omega) (by decide)
  exact h.of_outside hsame (by omega) (by omega)

/-- The register of the task, which `ltr` fills from the descriptor. -/
theorem gdtFlush_task (k : KernelTables) (m : Memory) :
    (k.gdtFlush (k.initGDT m)).2.1 = ⟨k.tss, 103⟩ := by
  have hfits := k.gdt_fits
  have h40 : (k.gdt + 40).toNat = k.gdt.toNat + 40 := toNat_entry (i := 5) (by decide)
  have htask : Descriptor.format.load (k.initGDT m) (k.gdt + 40) = k.entry 5 :=
    RecordFormat.load_store_self (by change (k.gdt + 40).toNat + 8 ≤ _; omega)
  have hlimit : (k.entry 5).limit = 103 := by
    change (setEntry 0 (104 - 1) 0x89 0x00).limit = 103
    decide
  have hbase : (k.entry 5).base = k.tss := setEntry_base k.tss (104 - 1) 0x89 0x00
  change TableRegister.mk (Descriptor.format.load (k.initGDT m) (k.gdt + 40)).base
    (Descriptor.format.load (k.initGDT m) (k.gdt + 40)).limit = _
  rw [htask, hbase, hlimit]

/-- The table registers after boot. -/
def tables (isrTable : UInt8 → UInt32) (m m' : Memory) : Tables where
  idtr := (k.initIDT isrTable m').1
  gdtr := (k.gdtFlush (k.initGDT m)).1
  task := (k.gdtFlush (k.initGDT m)).2.1
  taskSelector := 0x28

theorem tables_eq (k : KernelTables) (isrTable : UInt8 → UInt32) (m m' : Memory) :
    k.tables isrTable m m' = ⟨⟨k.idt, 2047⟩, ⟨k.gdt, 47⟩, ⟨k.tss, 103⟩, 0x28⟩ := by
  rw [tables, gdtFlush_task]
  rfl

/-! ### What the processor finds -/

theorem entry_code : k.entry 1 = setEntry 0 0xFFFFFFFF 0x9A 0xCF := rfl

theorem entry_data : k.entry 2 = setEntry 0 0xFFFFFFFF 0x92 0xCF := rfl

section Lookups

variable {t : Tables} (ht : t = ⟨⟨k.idt, 2047⟩, ⟨k.gdt, 47⟩, ⟨k.tss, 103⟩, 0x28⟩)

include ht

theorem gate_eq (hgates : k.GatesLoaded isrTable m) (vector : UInt8) :
    t.gate m vector = some (idtEntry isrTable vector.toNat) := by
  have hvector := vector.toNat_lt
  rw [Tables.gate, ht, if_pos (by change _ ≤ 2047; omega), hgates _ (by omega)]

theorem segment_code (hsegments : k.SegmentsLoaded m top) :
    t.segment m 0x08 = some (k.entry 1) := by
  rw [Tables.segment, ht, if_neg (by decide)]
  exact congrArg some (hsegments.entries 1 (by decide))

theorem stack_eq (hsegments : k.SegmentsLoaded m top) : t.stack m 0 = some (top, 0x10) := by
  have hpair : t.stack m 0 =
      some (load32 m (k.tss + 4), (load32 m (k.tss + 8)).toUInt16) := by
    rw [ht]
    rfl
  rw [hpair, hsegments.esp0, hsegments.ss0]
  rfl

theorem stackSegment_eq (hsegments : k.SegmentsLoaded m top) :
    t.stackSegment m 0 0x10 = true := by
  have hdata : t.segment m 0x10 = some (k.entry 2) := by
    rw [Tables.segment, ht, if_neg (by decide)]
    exact congrArg some (hsegments.entries 2 (by decide))
  rw [Tables.stackSegment, hdata, entry_data]
  decide

theorem accept_eq {s : Machine} (hsegments : k.SegmentsLoaded s.memory top)
    (hgates : k.GatesLoaded isrTable s.memory) {cause : Cause} {vector : UInt8}
    (hprivilege : cause = .software → Machine.ring s.cs = 0 ∨ vector = 0x80)
    (error : Option UInt32) :
    t.accept s cause vector error =
      .ok (s.deliver ⟨top, 0x10⟩ kernelCode (isrTable vector) error) := by
  -- the gate, which programs may use only for system calls
  have hallowed : ¬ (cause = .software ∧
      (idtEntry isrTable vector.toNat).dpl < Machine.ring s.cs) := by
    rintro ⟨hsoftware, hlow⟩
    rcases hprivilege hsoftware with hring | rfl
    · exact UInt16.not_lt_zero (hring ▸ hlow)
    · rw [idtEntry_dpl] at hlow
      exact absurd (ring_le s.cs) (UInt16.not_le.mpr hlow)
  have hselector : (idtEntry isrTable vector.toNat).selector = 0x08 := rfl
  have hentry : (idtEntry isrTable vector.toNat).offset = isrTable vector := by
    rw [idtEntry_offset, UInt8.ofNat_toNat]
  -- the code segment, which holds every address
  have hlimit : ¬ (k.entry 1).limit < isrTable vector := by
    rw [entry_code, show (setEntry 0 0xFFFFFFFF 0x9A 0xCF).limit = 0xFFFFFFFF by decide]
    exact Nat.not_lt.mpr (Nat.le_of_lt_succ (UInt32.toNat_lt _))
  have hlevel : (k.entry 1).dpl = 0 := by
    rw [entry_code]
    decide
  have hkind : ((!(k.entry 1).code) || decide (Machine.ring s.cs < 0)) = false := by
    rw [entry_code]
    simp [UInt16.not_lt_zero, show (setEntry 0 0xFFFFFFFF 0x9A 0xCF).code = true by decide]
  have hpresent : (k.entry 1).present = true := by
    rw [entry_code]
    decide
  rw [Tables.accept, gate_eq ht hgates]
  simp only [hselector, segment_code ht hsegments, hallowed, hlimit, idtEntry_interruptGate,
    idtEntry_present, hlevel, hkind, hpresent, stack_eq ht hsegments, stackSegment_eq ht hsegments,
    hentry, Bool.not_true, Bool.false_eq_true, if_false, if_true]
  -- only from ring 0 does the stack stay
  rw [Machine.deliver]
  by_cases hring : Machine.ring s.cs = 0
  · rw [if_pos hring.symm, if_pos hring]
    rfl
  · rw [if_neg (Ne.symm hring), if_neg hring]
    rfl

/-- A program may use no other gate than that of system calls. -/
theorem accept_refused {s : Machine} (hgates : k.GatesLoaded isrTable s.memory) {vector : UInt8}
    (hring : Machine.ring s.cs ≠ 0) (hvector : vector ≠ 0x80) (error : Option UInt32) :
    t.accept s .software vector error = .error (13, 8 * vector.toUInt32 + 2) := by
  have hdpl : (idtEntry isrTable vector.toNat).dpl < Machine.ring s.cs := by
    have hother : vector.toNat ≠ 0x80 := fun h => hvector (UInt8.toNat_inj.mp h)
    rw [idtEntry_dpl, if_neg hother]
    exact UInt16.pos_iff_ne_zero.mpr hring
  rw [Tables.accept, gate_eq ht hgates]
  simp [idtEntry_interruptGate, hdpl]

end Lookups

end KernelTables

/-- The processor and the tables, from their bytes: however the kernel has written to the rest
of memory since boot, and whichever stacks it has given to `tss_set_kernel_stack`, every
interrupt and exception enters the stub of its vector in `isr_table`, in ring 0, and from a
program on the stack given last; and of all `int` instructions a program has only that of
system calls, while any other raises a general protection fault with the vector's error code. -/
theorem traps_dispatched (k : KernelTables) (isrTable : UInt8 → UInt32) {m₀ m₁ m : Memory}
    {top₁ top : UInt32}
    (hgdt : k.Kept (k.gdtFlush (k.initGDT m₀)).2.2 (k.tssStack + 4096) m₁ top₁)
    (hidt : k.Kept (k.initIDT isrTable m₁).2 top₁ m top) (s : Machine) (hmemory : s.memory = m) :
    (∀ cause vector error, cause ≠ .software →
        (k.tables isrTable m₀ m₁).accept s cause vector error =
          .ok (s.deliver ⟨top, 0x10⟩ kernelCode (isrTable vector) error)) ∧
      ∀ vector, (k.tables isrTable m₀ m₁).int s vector =
        .ok (if Machine.ring s.cs = 0 ∨ vector = 0x80 then
          s.deliver ⟨top, 0x10⟩ kernelCode (isrTable vector) none
        else s.deliver ⟨top, 0x10⟩ kernelCode (isrTable 13) (some (8 * vector.toUInt32 + 2))) := by
  have hsegments : k.SegmentsLoaded s.memory top := by
    rw [hmemory]
    exact hidt.segments (KernelTables.initIDT_segments (hgdt.segments (k.initGDT_loaded m₀)))
  have hgates : k.GatesLoaded isrTable s.memory := by
    rw [hmemory]
    exact hidt.gates (k.initIDT_gates isrTable m₁)
  have htables := k.tables_eq isrTable m₀ m₁
  refine ⟨fun cause vector error hcause => ?_, fun vector => ?_⟩
  · exact KernelTables.accept_eq htables hsegments hgates (fun h => absurd h hcause) error
  · -- what is refused raises exception 13, which is not
    rw [Tables.int]
    split_ifs with hallowed
    · rw [KernelTables.accept_eq htables hsegments hgates (fun _ => hallowed)]
    · rw [not_or] at hallowed
      rw [KernelTables.accept_refused htables hgates hallowed.1 hallowed.2]
      exact KernelTables.accept_eq htables hsegments hgates (fun h => by cases h) _

/-- A program tries the vector of the timer, and then a system call, after the kernel has set
its stack. -/
theorem traps_dispatched_program :
    let k : KernelTables :=
      { idt := 0x110000, gdt := 0x111000, tss := 0x112000, tssStack := 0x113000
        idt_fits := by decide, gdt_fits := by decide, tss_fits := by decide
        idt_gdt := by decide, idt_tss := by decide, gdt_tss := by decide }
    let stub (vector : UInt8) : UInt32 := 0x100000 + 16 * vector.toUInt32
    let m := (k.gdtFlush (k.initGDT fun _ => 0)).2.2
    let s : Machine :=
      { userProgram 0 with
        memory := k.tssSetKernelStack 0x200000 (k.initIDT stub m).2 }
    (k.tables stub (fun _ => 0) m).int s 0x20 =
        .ok (s.deliver ⟨0x200000, 0x10⟩ kernelCode 0x1000D0 (some 0x102)) ∧
      (k.tables stub (fun _ => 0) m).int s 0x80 =
        .ok (s.deliver ⟨0x200000, 0x10⟩ kernelCode 0x100800 none) := by
  intro k stub m s
  have hint := (traps_dispatched k stub .refl (.stack .refl) s rfl).2
  have hrefused : ¬ (Machine.ring 0x1B = 0 ∨ (0x20 : UInt8) = 0x80) := by decide
  exact ⟨(hint 0x20).trans (congrArg Except.ok (if_neg hrefused)),
    (hint 0x80).trans (congrArg Except.ok (if_pos (Or.inr rfl)))⟩

end LevOS.Cpu
