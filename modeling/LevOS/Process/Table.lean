import LevOS.Memory.Paging
import Mathlib.Data.List.FinRange

/-!
# The process table

`process/process.c`: sixteen slots, the first of which is the bootstrap process
that the kernel booted as. A process owns the page of its kernel stack and its
page directory, and a user process two more pages; its saved context lies at the
top of the stack page.

## Main definitions

* `Process`, `Kernel`, the table and the rest of the kernel's state
* `processSystemInit`, `processCreate`, `processCreateUser`
* `processTerminateCurrent`, `processByPid`
-/

namespace LevOS

open Foundation Memory

/-! ## `struct cpu_context` -/

/-- `sizeof(struct cpu_context)`. -/
def contextSize : UInt32 := 60

/-- The number of words in a context. -/
def contextWords : Nat := 15

/-- The words of a context. -/
inductive Field
  | edi | esi | ebp | esp | ebx | edx | ecx | eax | vector | errorCode | eip | cs | eflags
  | userEsp | userSs
  deriving DecidableEq, Repr

/-- The place of a field, in words. -/
def Field.index : Field → Nat
  | .edi => 0
  | .esi => 1
  | .ebp => 2
  | .esp => 3
  | .ebx => 4
  | .edx => 5
  | .ecx => 6
  | .eax => 7
  | .vector => 8
  | .errorCode => 9
  | .eip => 10
  | .cs => 11
  | .eflags => 12
  | .userEsp => 13
  | .userSs => 14

/-- The address of a field. -/
def Field.of (field : Field) (context : UInt32) : UInt32 := context + UInt32.ofNat (4 * field.index)

/-- Store fields of a context, one after the other. -/
def storeFields (access : Access) (context : UInt32) :
    List (Field × UInt32) → Space → Option Space
  | [], s => some s
  | (field, value) :: fields, s => do
    let s ← s.store access (field.of context) value
    storeFields access context fields s

/-! ## The table -/

/-- `enum process_state`. -/
inductive ProcessState
  | unused | ready | running | zombie
  deriving DecidableEq, Repr

/-- `struct process`. -/
structure Process where
  pid : UInt32
  state : ProcessState
  directory : UInt32
  stackBase : UInt32
  context : UInt32
  entry : UInt32
  argument : UInt32
  bootstrap : Bool
  user : Bool
  userCodeBase : UInt32
  userStackBase : UInt32
  deriving DecidableEq

/-- `MAX_PROCESSES`. -/
abbrev Slot := Fin 16

/-- The bootstrap process has a slot. -/
instance slotCount_neZero : NeZero 16 := ⟨by decide⟩

/-- The kernel's state: memory and pages, the static data of `process.c` and
`scheduler.c`, the ring-0 stack of the task state segment, the timer, and the
characters sent to the terminal. -/
structure Kernel where
  space : Space
  processes : Slot → Process
  nextPid : UInt32
  running : Option Slot
  bootstrapContext : UInt32
  esp0 : UInt32
  schedulerNextDirectory : UInt32
  quantumTicks : UInt32
  ticks : UInt32
  output : List UInt8

/-- An empty slot. -/
def Process.empty : Process where
  pid := 0
  state := .unused
  directory := 0
  stackBase := 0
  context := 0
  entry := 0
  argument := 0
  bootstrap := false
  user := false
  userCodeBase := 0
  userStackBase := 0

/-- A process that may be given the processor. -/
def Process.live (p : Process) : Bool := p.state = .ready || p.state = .running

/-- A slot that a new process may take. -/
def Process.vacant (p : Process) : Bool := p.state = .unused || p.state = .zombie

theorem Process.vacant_eq_not_live (p : Process) : p.vacant = !p.live := by
  unfold Process.vacant Process.live
  cases p.state <;> rfl

section Table

variable (access : Access) (layout : Layout)

/-- `process_kernel_stack_top`. -/
def processKernelStackTop (p : Process) : UInt32 :=
  if p.bootstrap then layout.bootstrapStack + 4096 else p.stackBase + 4096

/-- The record of the bootstrap process. -/
def bootstrapProcess (context : UInt32) : Process :=
  { Process.empty with
    state := .running
    directory := layout.pageDirectory
    context := context
    bootstrap := true }

/-- The place of the bootstrap process's saved context. -/
def bootstrapContextAddress : UInt32 := layout.bootstrapStack + 4096 - contextSize

/-- The table after `process_system_init`. -/
def initialProcesses : Slot → Process :=
  Function.update (fun _ => Process.empty) 0
    (bootstrapProcess layout (bootstrapContextAddress layout))

theorem initialProcesses_zero :
    initialProcesses layout 0 = bootstrapProcess layout (bootstrapContextAddress layout) :=
  Function.update_self _ _ _

theorem initialProcesses_of_ne {i : Slot} (h : i ≠ 0) :
    initialProcesses layout i = Process.empty :=
  Function.update_of_ne h _ _

/-- `process_system_init`. -/
def processSystemInit (k : Kernel) : Option Kernel := do
  let context := bootstrapContextAddress layout
  let space ← k.space.clear access context contextWords
  return { k with
    space := space
    bootstrapContext := context
    processes := initialProcesses layout
    running := some 0
    esp0 := processKernelStackTop layout (initialProcesses layout 0) }

namespace Kernel

variable (k : Kernel)

/-- The slot that the loops of the creation functions stop at. -/
def vacantSlot : Option Slot := (List.finRange 16).tail.find? fun i => (k.processes i).vacant

/-- Give back a page, unless its allocation failed. -/
def release (space : Space) (address : UInt32) : Space :=
  if address ≠ 0 then { space with pmm := space.pmm.freePage address } else space

/-- Enter a new process into a slot. -/
def enterProcess (slot : Slot) (process : Process) (space : Space) : Kernel :=
  { k with
    space := space
    nextPid := k.nextPid + 1
    processes := Function.update k.processes slot process }

theorem enterProcess_self (slot : Slot) (process : Process) (space : Space) :
    (k.enterProcess slot process space).processes slot = process :=
  Function.update_self _ _ _

theorem enterProcess_of_ne {slot i : Slot} (h : i ≠ slot) (process : Process) (space : Space) :
    (k.enterProcess slot process space).processes i = k.processes i :=
  Function.update_of_ne h _ _

/-- The record that `process_create` fills in. -/
def kernelProcess (directory stack entry argument : UInt32) : Process where
  pid := k.nextPid
  state := .ready
  directory := directory
  stackBase := stack
  context := stack + 4096 - contextSize
  entry := entry
  argument := argument
  bootstrap := false
  user := false
  userCodeBase := 0
  userStackBase := 0

/-- The fields that `process_create` sets in the cleared context. -/
def kernelFrame (stack : UInt32) : List (Field × UInt32) :=
  -- the interrupt stubs consume 20 bytes before `pusha`
  [(.eip, layout.processBootstrap), (.cs, 0x08), (.eflags, 0x202), (.esp, stack + 4096 - 20),
    (.userEsp, stack + 4096), (.userSs, 0x10)]

/-- `process_create`. -/
def processCreate (entry argument : UInt32) : Option (Kernel × Int32) :=
  if entry = 0 then some (k, -1)
  else
    match k.vacantSlot with
    | none => some (k, -1)
    | some slot =>
      match k.space.pmm.allocatePage with
      | (stack, pmm) => do
        let (space, directory) ← createPageDirectory access layout { k.space with pmm := pmm }
        if stack = 0 ∨ directory = 0 then
          return ({ k with space := release space stack }, -1)
        else
          let context := stack + 4096 - contextSize
          let space ← space.clear access context contextWords
          let space ← storeFields access context (kernelFrame layout stack) space
          return (k.enterProcess slot (k.kernelProcess directory stack entry argument) space,
            k.nextPid.toInt32)

/-- `USER_CODE_ADDRESS`. -/
def userCodeAddress : UInt32 := 0x00400000

/-- `USER_STACK_TOP`. -/
def userStackTop : UInt32 := 0x00800000

/-- The record that `process_create_user` fills in. -/
def userProcess (directory kernelStack code userStack : UInt32) : Process where
  pid := k.nextPid
  state := .ready
  directory := directory
  stackBase := kernelStack
  context := kernelStack + 4096 - contextSize
  entry := 0
  argument := 0
  bootstrap := false
  user := true
  userCodeBase := code
  userStackBase := userStack

/-- The fields that `process_create_user` sets in the cleared context. -/
def userFrame : List (Field × UInt32) :=
  [(.eip, userCodeAddress), (.cs, 0x1B), (.eflags, 0x202), (.userEsp, userStackTop - 16),
    (.userSs, 0x23)]

/-- `process_create_user`. -/
def processCreateUser (image imageSize : UInt32) : Option (Kernel × Int32) :=
  if image = 0 ∨ imageSize = 0 ∨ 4096 < imageSize then some (k, -1)
  else
    match k.vacantSlot with
    | none => some (k, -1)
    | some slot =>
      match k.space.pmm.allocatePage with
      | (kernelStack, pmm) =>
        match pmm.allocatePage with
        | (code, pmm) =>
          match pmm.allocatePage with
          | (userStack, pmm) => do
            let (space, directory) ←
              createPageDirectory access layout { k.space with pmm := pmm }
            if kernelStack = 0 ∨ code = 0 ∨ userStack = 0 ∨ directory = 0 then
              return ({ k with
                space := release (release (release space kernelStack) code) userStack }, -1)
            else
              let space ← mapPageIn access space directory userCodeAddress code 0x55
              let space ← mapPageIn access space directory (userStackTop - 4096) userStack 0x55
              let space ← space.copyBytes access image code imageSize.toNat
              let context := kernelStack + 4096 - contextSize
              let space ← space.clear access context contextWords
              let space ← storeFields access context userFrame space
              return (k.enterProcess slot (k.userProcess directory kernelStack code userStack)
                space, k.nextPid.toInt32)

/-- Give the process in a slot another state. -/
def setState (slot : Slot) (state : ProcessState) : Kernel :=
  { k with processes := Function.update k.processes slot { k.processes slot with state := state } }

theorem setState_self (slot : Slot) (state : ProcessState) :
    (k.setState slot state).processes slot = { k.processes slot with state := state } :=
  Function.update_self _ _ _

theorem setState_of_ne {slot i : Slot} (h : i ≠ slot) (state : ProcessState) :
    (k.setState slot state).processes i = k.processes i :=
  Function.update_of_ne h _ _

/-- `process_terminate_current`, which is also the first part of `process_exit`. -/
def processTerminateCurrent : Kernel :=
  match k.running with
  | none => k
  | some r =>
    if (k.processes r).bootstrap then k else k.setState r .zombie

/-- `process_by_pid`. -/
def processByPid (pid : UInt32) : Option Slot :=
  (List.finRange 16).find? fun i => (k.processes i).state ≠ .unused && (k.processes i).pid = pid

end Kernel

end Table

end LevOS
