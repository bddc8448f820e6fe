import LevOS.Process.Scheduler
import LevOS.Cpu.Isr

/-!
# Interrupts and system calls

`isr_common_handler` of `cpu/interrupts.c` and `syscall.c`, between the entry
and the return path of `isr_common`. The keyboard driver, the interrupt
controller and the terminal behind `putchar` are outside the model.

## Main definitions

* `syscallWrite`, `syscallDispatch`, `isrCommonHandler`
* `Interruption`, `Kernel.interrupt`, a pass from the interrupted code to `iretd`
-/

namespace LevOS

open Foundation Memory Cpu

/-- What a pass through the handler comes to: the context to be resumed, the
`int 0x20` of `process_exit`, or the halt after an exception. -/
inductive Outcome
  | resume (k : Kernel) (context : UInt32)
  | exit (k : Kernel)
  | halt

/-- The bytes of a range, in order. -/
def Memory.Space.loadBytes (access : Access) (s : Space) (address : UInt32) :
    Nat → Option (List UInt8)
  | 0 => some []
  | n + 1 => do
    let bytes ← s.loadBytes access address n
    let byte ← s.loadByte access (address + UInt32.ofNat n)
    return bytes ++ [byte]

/-- The pushes of the processor and the stubs. -/
def Memory.Space.push (access : Access) (s : Space) (top : UInt32) : List UInt32 → Option Space
  | [] => some s
  | word :: words => do
    let s ← s.store access (top - 4) word
    s.push access (top - 4) words

/-- `SYS_WRITE`. -/
def sysWrite : UInt32 := 1

/-- `SYS_GETPID`. -/
def sysGetpid : UInt32 := 2

/-- `SYS_YIELD`. -/
def sysYield : UInt32 := 3

/-- `SYS_EXIT`. -/
def sysExit : UInt32 := 4

namespace Kernel

variable (access : Access) (layout : Layout) (k : Kernel)

/-- Load a field of a context. -/
def loadField (context : UInt32) (field : Field) : Option UInt32 :=
  k.space.load access (field.of context)

/-- Store a field of a context. -/
def storeField (context : UInt32) (field : Field) (value : UInt32) : Option Kernel := do
  let space ← k.space.store access (field.of context) value
  return { k with space := space }

/-- `syscall_write`. -/
def syscallWrite (fd address length : UInt32) : Option (Kernel × Int32) :=
  match k.running with
  | none => some (k, -1)
  | some r =>
    if (k.processes r).user = false ∨ fd ≠ 1 ∨ 256 < length then some (k, -1)
    else do
      if ← userRangeValid access k.space (k.processes r).directory address length then
        let text ← k.space.loadBytes access address length.toNat
        return ({ k with output := k.output ++ text }, length.toInt32)
      else return (k, -1)

/-- `syscall_dispatch`. -/
def syscallDispatch (context : UInt32) : Option Outcome := do
  let call ← k.loadField access context .eax
  if call = sysWrite then
    let fd ← k.loadField access context .ebx
    let address ← k.loadField access context .ecx
    let length ← k.loadField access context .edx
    let (k, result) ← k.syscallWrite access fd address length
    let k ← k.storeField access context .eax result.toUInt32
    return .resume k context
  else if call = sysGetpid then
    let pid := (k.running.map fun r => (k.processes r).pid).getD 0
    let k ← k.storeField access context .eax pid
    return .resume k context
  else if call = sysYield then
    let k ← k.storeField access context .eax 0
    let (k, next) ← k.schedulerYield access layout context
    return .resume k next
  else if call = sysExit then
    return .exit k.processTerminateCurrent
  else
    let k ← k.storeField access context .eax (-1)
    return .resume k context

/-- `isr_common_handler`. -/
def isrCommonHandler (regs : UInt32) : Option Outcome := do
  let k := { k with schedulerNextDirectory := 0 }
  let vector ← k.loadField access regs .vector
  if vector = 0x20 then
    let (k, next) ← k.timerHandler access layout regs
    return .resume k next
  else if vector = 0x21 then return .resume k regs
  else if vector = 0x80 then k.syscallDispatch access layout regs
  else if 0x20 ≤ vector ∧ vector ≤ 0x2F then return .resume k regs
  else if vector < 32 then return .halt
  else return .resume k regs

/-! ## Passes -/

/-- The task state segment as the processor reads it. -/
def tss : Machine.Tss where
  esp0 := k.esp0
  ss0 := 0x10

/-- The return path of `isr_common`: the directory load, and the copy of the
words for `iretd` when the context is one of ring 0. -/
def leave (context : UInt32) : Option Kernel := do
  let k := k.loadDirectory
  let cs ← k.loadField access context .cs
  if cs &&& 3 ≠ 0 then return k
  else
    let eip ← k.loadField access context .eip
    let eflags ← k.loadField access context .eflags
    let saved ← k.loadField access context .esp
    let space ← k.space.store access (saved + 8) eip
    let space ← space.store access (saved + 12) cs
    let space ← space.store access (saved + 16) eflags
    return { k with space := space }

end Kernel

/-- An interruption: the registers at the time, the vector and the error code. -/
structure Interruption where
  cpu : Machine
  vector : UInt8
  error : UInt32

namespace Interruption

variable (event : Interruption) (k : Kernel)

/-- The address of the frame that the processor and the stubs push. -/
def frame : UInt32 := event.cpu.context k.tss event.vector event.error

/-- The words they push, in order. -/
def words : List UInt32 := savedFrame event.cpu k.tss event.vector event.error

/-- The stack they push them on. -/
def stack : UInt32 := event.cpu.entryStack k.tss

end Interruption

namespace Kernel

variable (access : Access) (layout : Layout) (k : Kernel)

/-- The kernel when the handler is called. While it runs, the handler also uses the
stack below the frame: `writes` is what that does to memory. -/
def entered (event : Interruption) (writes : Memory → Memory) : Option Kernel := do
  let space ← k.space.push access (event.stack k) (event.words k)
  return { k with space := { space with memory := writes space.memory } }

/-- A pass through `isr_common`. -/
def interrupt (event : Interruption) (writes : Memory → Memory) : Option Outcome := do
  let k' ← k.entered access event writes
  match ← k'.isrCommonHandler access layout (event.frame k) with
  | .resume k context =>
    let k ← k.leave access context
    return .resume k context
  | .exit k => return .exit k
  | .halt => return .halt

end Kernel

end LevOS
