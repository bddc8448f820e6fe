import LevOS.Foundation.Words

/-!
# The machine under the interrupt path

The part of an IA-32 processor that the interrupt stubs use: general registers,
the two segment registers an interrupt saves, memory, and the instructions of
`cpu/idt.asm`. Of the flags only the zero flag is computed; the others are not
read before `iretd` reloads the whole register.

## Main definitions

* `Machine`, `Reg`, the machine state
* `Machine.deliver`, what the processor pushes when it accepts an interrupt
* `Instr`, `Machine.run`, the instructions and their execution
-/

namespace LevOS.Cpu

open LevOS.Foundation

/-- The general registers, in the order in which `pusha` pushes them. -/
inductive Reg
  | eax | ecx | edx | ebx | esp | ebp | esi | edi
  deriving DecidableEq, Repr

/-- The machine state. -/
structure Machine where
  regs : Reg → UInt32
  eip : UInt32
  cs : UInt16
  ss : UInt16
  eflags : UInt32
  cr3 : UInt32
  memory : Memory

namespace Machine

/-- Write a register. -/
def set (s : Machine) (r : Reg) (value : UInt32) : Machine :=
  { s with regs := Function.update s.regs r value }

/-- The word at a register plus a displacement. -/
def word (s : Machine) (base : Reg) (offset : UInt32) : UInt32 := load32 s.memory (s.regs base + offset)

/-- Push a word. -/
def push (s : Machine) (value : UInt32) : Machine :=
  { s with
    regs := Function.update s.regs .esp (s.regs .esp - 4)
    memory := store32 s.memory (s.regs .esp - 4) value }

/-- Push words, the first one first. -/
def pushAll (s : Machine) (values : List UInt32) : Machine := values.foldl push s

/-- The privilege level of a code selector. -/
def ring (selector : UInt16) : UInt16 := selector &&& 3

/-- `ZF`. -/
def zeroFlag : UInt32 := 0x40

/-- The zero flag after a result. -/
def setZero (s : Machine) (zero : Bool) : Machine :=
  { s with eflags := if zero then s.eflags ||| zeroFlag else s.eflags &&& ~~~zeroFlag }

/-- Whether the zero flag is set. -/
def zero (s : Machine) : Bool := s.eflags &&& zeroFlag != 0

/-- `pusha`: the stack pointer it pushes is the one before. -/
def pusha (s : Machine) : Machine :=
  s.pushAll [s.regs .eax, s.regs .ecx, s.regs .edx, s.regs .ebx, s.regs .esp, s.regs .ebp,
    s.regs .esi, s.regs .edi]

/-- `popa`: the pushed stack pointer is skipped. -/
def popa (s : Machine) : Machine :=
  { s with
    regs := fun
      | .edi => s.word .esp 0
      | .esi => s.word .esp 4
      | .ebp => s.word .esp 8
      | .esp => s.regs .esp + 32
      | .ebx => s.word .esp 16
      | .edx => s.word .esp 20
      | .ecx => s.word .esp 24
      | .eax => s.word .esp 28 }

/-- `iretd`: a return to another privilege level also restores the stack. -/
def iretd (s : Machine) : Machine :=
  let cs := (s.word .esp 4).toUInt16
  let s' := { s with eip := s.word .esp 0, cs := cs, eflags := s.word .esp 8 }
  if ring cs = ring s.cs then s'.set .esp (s.regs .esp + 12)
  else { s'.set .esp (s.word .esp 12) with ss := (s.word .esp 16).toUInt16 }

/-- The ring-0 stack of the task state segment. -/
structure Tss where
  esp0 : UInt32
  ss0 : UInt16

/-- Accept an interrupt through a gate to a kernel code selector: switch to the
ring-0 stack unless the processor is in ring 0 already, push the state to return
to, and push the error code of the exceptions that have one. The gate clears the
trap, interrupt, nested task, resume and virtual mode flags. -/
def deliver (s : Machine) (tss : Tss) (selector : UInt16) (entry : UInt32) (error : Option UInt32) :
    Machine :=
  let frame := [s.eflags, s.cs.toUInt32, s.eip] ++ error.toList
  let entered :=
    if ring s.cs = 0 then s.pushAll frame
    else ({ s.set .esp tss.esp0 with ss := tss.ss0 }).pushAll
      (s.ss.toUInt32 :: s.regs .esp :: frame)
  { entered with cs := selector, eip := entry, eflags := entered.eflags &&& ~~~0x34300 }

end Machine

/-! ## Instructions -/

/-- The labels of `isr_common`. -/
inductive Label
  | keepDirectory | returnFrame
  deriving DecidableEq, Repr

/-- The instructions of the interrupt path. -/
inductive Instr
  | cld
  | pusha
  | popa
  | push (r : Reg)
  | pushImm (value : UInt32)
  | callHandler
  | add (r : Reg) (value : UInt32)
  | mov (r source : Reg)
  | load (r base : Reg) (offset : UInt32)
  | loadAt (r : Reg) (address : UInt32)
  | store (base : Reg) (offset : UInt32) (source : Reg)
  | movCr3 (source : Reg)
  | test (r : Reg)
  | testByte (base : Reg) (offset : UInt32) (value : UInt8)
  | jz (target : Label)
  | jnz (target : Label)
  | label (name : Label)
  | iretd
  deriving DecidableEq, Repr

/-- Instructions that pass control to the next one. -/
def Instr.straight : Instr → Bool
  | .jz _ | .jnz _ | .label _ | .iretd => false
  | _ => true

/-- The effect of an instruction that neither jumps nor returns. A call of the
C handler runs the handler to its return. -/
def Machine.exec (handler : Machine → Machine) (s : Machine) : Instr → Machine
  | .cld => { s with eflags := s.eflags &&& ~~~0x400 }
  | .pusha => s.pusha
  | .popa => s.popa
  | .push r => s.push (s.regs r)
  | .pushImm value => s.push value
  | .callHandler => handler s
  | .add r value => s.set r (s.regs r + value)
  | .mov r source => s.set r (s.regs source)
  | .load r base offset => s.set r (s.word base offset)
  | .loadAt r address => s.set r (load32 s.memory address)
  | .store base offset source =>
    { s with memory := store32 s.memory (s.regs base + offset) (s.regs source) }
  | .movCr3 source => { s with cr3 := s.regs source }
  | .test r => s.setZero (s.regs r == 0)
  | .testByte base offset value => s.setZero (s.memory (s.regs base + offset) &&& value == 0)
  | .jz _ | .jnz _ | .label _ | .iretd => s

/-- Run a list of instructions up to its `iretd`. All jumps go forward: while a
target is pending, instructions are skipped up to its label. -/
def Machine.run (handler : Machine → Machine) : Option Label → List Instr → Machine → Option Machine
  | _, [], _ => none
  | some target, .label name :: rest, s =>
    run handler (if name = target then none else some target) rest s
  | some target, _ :: rest, s => run handler (some target) rest s
  | none, .jz target :: rest, s => run handler (if s.zero then some target else none) rest s
  | none, .jnz target :: rest, s => run handler (if s.zero then none else some target) rest s
  | none, .iretd :: _, s => some s.iretd
  | none, instr :: rest, s => run handler none rest (s.exec handler instr)

end LevOS.Cpu
