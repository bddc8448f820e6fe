import LevOS.Process.Table

/-!
# The scheduler

`process/scheduler.c` with the accessors of `process.c` that it uses: a
round-robin pass over the table. The directory of the process chosen is left in
`scheduler_next_directory` for the return path of the interrupt.

## Main definitions

* `processNextRoundRobin`, `processSaveContext`
* `schedulerInit`, `schedule`, `schedulerTick`, `schedulerYield`, `timerHandler`
-/

namespace LevOS

open Foundation Memory

variable (access : Access) (layout : Layout)

/-- `scheduler_init`. -/
def schedulerInit (k : Kernel) : Option Kernel := do
  let k ← processSystemInit access layout k
  return { k with schedulerNextDirectory := 0, quantumTicks := 0 }

namespace Kernel

variable (k : Kernel)

/-- `process_count`. -/
def processCount : Nat := (List.finRange 16).countP fun i => (k.processes i).live

/-- The order in which `process_next_round_robin` looks at the slots: from the
one after the running one, which comes last. -/
def rotation : List Slot := (List.finRange 16).map fun step => k.running.getD 0 + step + 1

/-- The slot at which the loop of `process_next_round_robin` stops. -/
def nextLive : Option Slot := k.rotation.find? fun i => (k.processes i).live

/-- Give the processor to a slot. -/
def dispatch (slot : Slot) : Kernel :=
  let process := { k.processes slot with state := ProcessState.running }
  { k with
    running := some slot
    processes := Function.update k.processes slot process
    esp0 := processKernelStackTop layout process }

theorem dispatch_self (slot : Slot) :
    (k.dispatch layout slot).processes slot = { k.processes slot with state := .running } :=
  Function.update_self _ _ _

theorem dispatch_of_ne {slot i : Slot} (h : i ≠ slot) :
    (k.dispatch layout slot).processes i = k.processes i :=
  Function.update_of_ne h _ _

/-- `process_next_round_robin`. -/
def processNextRoundRobin : Kernel × Option Slot :=
  match k.nextLive with
  | some slot => (k.dispatch layout slot, some slot)
  | none => (k, k.running)

/-- `process_save_context`. The structure is copied word by word. -/
def processSaveContext (context : UInt32) : Option Kernel :=
  match k.running with
  | none => some k
  | some r => do
    if (k.processes r).bootstrap then
      let space ← k.space.copy access context k.bootstrapContext contextWords
      return { k with
        space := space
        processes := Function.update k.processes r
          { k.processes r with context := k.bootstrapContext } }
    else if (k.processes r).context = context then
      return k
    else
      let space ← k.space.copy access context (k.processes r).context contextWords
      return { k with space := space }

/-- `schedule`. Before `scheduler_init` there is no current process to look at. -/
def schedule (context : UInt32) : Option (Kernel × UInt32) := do
  let k := { k with schedulerNextDirectory := 0 }
  let current ← k.running
  if k.processCount < 2 ∧ (k.processes current).state ≠ .zombie then
    return (k, context)
  else
    let k ← k.processSaveContext access context
    match k.processNextRoundRobin layout with
    | (k, none) => return (k, context)
    | (k, some next) =>
      if (k.processes next).context = 0 then
        return (k, context)
      else if (k.processes next).context ≠ context then
        return ({ k with schedulerNextDirectory := (k.processes next).directory },
          (k.processes next).context)
      else
        return (k, context)

/-- `scheduler_tick`. -/
def schedulerTick (context : UInt32) : Option (Kernel × UInt32) :=
  { k with quantumTicks := k.quantumTicks + 1 }.schedule access layout context

/-- `scheduler_yield`. -/
def schedulerYield (context : UInt32) : Option (Kernel × UInt32) := k.schedule access layout context

/-- `timer_handler`. -/
def timerHandler (context : UInt32) : Option (Kernel × UInt32) :=
  { k with ticks := k.ticks + 1 }.schedulerTick access layout context

/-- The directory load of `isr_common`. -/
def loadDirectory : Kernel :=
  if k.schedulerNextDirectory = 0 then k
  else { k with space := { k.space with cr3 := k.schedulerNextDirectory } }

end Kernel

end LevOS
