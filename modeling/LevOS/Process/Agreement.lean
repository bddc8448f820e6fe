import LevOS.Process.Interrupts
import LevOS.Process.Stacks
import Mathlib.Logic.Relation

/-!
# The processor and the table agree

`running`, `cr3` and the ring-0 stack of the task state segment change in
different places: in the round-robin pass, in the return path of `isr_common`
through `scheduler_next_directory`, and in `tss_set_kernel_stack`. After every
completed pass they speak of the same process.

## Main definitions

* `Event`, `Kernel.step`, `Event.Proper`, runs with interrupts
* `Agrees`, the invariant

## Main results

* `isrCommonHandler_cases`, `Kernel.step_interrupt`, what a pass does
* `Agrees.pass`, `Agrees.step`
-/

namespace LevOS

open Foundation Memory Cpu

/-! ## Runs -/

/-- An event of a run. `terminate` is `process_terminate_current` and the first
part of `process_exit`, whose `int 0x20` follows as an interruption; `other` is
whatever the code between two events does to memory. -/
inductive Event
  | create (entry argument : UInt32)
  | createUser (image imageSize : UInt32)
  | terminate
  | other (memory : Memory)
  | interrupt (event : Interruption) (writes : Memory → Memory)

/-- The kernel after an event, unless the system halts. -/
def Kernel.step (access : Access) (layout : Layout) (k : Kernel) : Event → Option Kernel
  | .create entry argument => (k.processCreate access layout entry argument).map Prod.fst
  | .createUser image imageSize => (k.processCreateUser access layout image imageSize).map Prod.fst
  | .terminate => some k.processTerminateCurrent
  | .other memory => some { k with space := { k.space with memory := memory } }
  | .interrupt event writes => do
    match ← k.interrupt access layout event writes with
    | .resume k _ => return k
    | .exit k => return k
    | .halt => none

/-- An event that can occur: code of ring 0 runs on the stack of its process, and
a process that has marked itself goes on to its `int 0x20` without creating
others. -/
def Event.Proper (layout : Layout) (k : Kernel) : Event → Prop
  | .create _ _ | .createUser _ _ =>
    ∀ r, k.running = some r → (k.processes r).state ≠ .zombie
  | .interrupt event _ =>
    Machine.ring event.cpu.cs = 0 → ∀ r, k.running = some r → k.OnStack layout r (event.frame k)
  | .terminate | .other _ => True

/-- One state leads to another by an event. -/
def Kernel.Step (access : Access) (layout : Layout) (k k' : Kernel) : Prop :=
  ∃ event : Event, event.Proper layout k ∧ k.step access layout event = some k'

/-! ## The handler -/

/-- The handler calls `schedule`: on a timer interrupt and in `SYS_YIELD`. -/
def Kernel.schedules (access : Access) (k : Kernel) (regs : UInt32) : Prop :=
  k.loadField access regs .vector = some 0x20 ∨
    (k.loadField access regs .vector = some 0x80 ∧ k.loadField access regs .eax = some sysYield)

section Handler

variable {access : Access} {layout : Layout} {k k' : Kernel}

theorem Kernel.storeField_eq {context value : UInt32} {field : Field}
    (h : k.storeField access context field value = some k') :
    ∃ m, k' = { k with space := { k.space with memory := m } } := by
  obtain ⟨space, hstore, hpair⟩ := Option.bind_eq_some_iff.mp h
  obtain ⟨m, rfl⟩ := Space.store_eq hstore
  exact ⟨m, (Option.some.inj hpair).symm⟩

theorem Kernel.syscallWrite_eq {fd address length : UInt32} {result : Int32}
    (h : k.syscallWrite access fd address length = some (k', result)) :
    ∃ output, k' = { k with output := output } := by
  have hsame : ∃ output, k = { k with output := output } := ⟨k.output, rfl⟩
  unfold Kernel.syscallWrite at h
  split at h
  · obtain ⟨rfl, -⟩ := Prod.mk.inj (Option.some.inj h)
    exact hsame
  · split_ifs at h
    · obtain ⟨rfl, -⟩ := Prod.mk.inj (Option.some.inj h)
      exact hsame
    · obtain ⟨valid, -, hrest⟩ := Option.bind_eq_some_iff.mp h
      split_ifs at hrest
      · obtain ⟨text, -, hpair⟩ := Option.bind_eq_some_iff.mp hrest
        obtain ⟨rfl, -⟩ := Prod.mk.inj (Option.some.inj hpair)
        exact ⟨_, rfl⟩
      · obtain ⟨rfl, -⟩ := Prod.mk.inj (Option.some.inj hrest)
        exact hsame

/-- What a system call comes to. -/
theorem syscallDispatch_cases {context : UInt32} {outcome : Outcome}
    (h : k.syscallDispatch access layout context = some outcome) :
    (∃ m output, outcome = .resume { k with
        space := { k.space with memory := m }, output := output } context ∧
        k.loadField access context .eax ≠ some sysYield) ∨
      (∃ m k' next,
        Kernel.schedule access layout { k with space := { k.space with memory := m } } context =
          some (k', next) ∧ outcome = .resume k' next ∧
          k.loadField access context .eax = some sysYield) ∨
      outcome = .exit k.processTerminateCurrent := by
  obtain ⟨call, hcall, h⟩ := Option.bind_eq_some_iff.mp h
  have hother {call' : UInt32} (heq : call = call') (hne : call' ≠ sysYield) :
      k.loadField access context .eax ≠ some sysYield := by
    rw [hcall, heq]
    exact fun hs => hne (Option.some.inj hs)
  -- write, getpid, yield, exit, and any other number
  split_ifs at h with hwrite hgetpid hyield hexit
  · obtain ⟨fd, -, h⟩ := Option.bind_eq_some_iff.mp h
    obtain ⟨address, -, h⟩ := Option.bind_eq_some_iff.mp h
    obtain ⟨length, -, h⟩ := Option.bind_eq_some_iff.mp h
    obtain ⟨⟨k₁, result⟩, hsyscall, h⟩ := Option.bind_eq_some_iff.mp h
    obtain ⟨output, rfl⟩ := Kernel.syscallWrite_eq hsyscall
    obtain ⟨k₂, hstore, h⟩ := Option.bind_eq_some_iff.mp h
    obtain ⟨m, rfl⟩ := Kernel.storeField_eq hstore
    exact .inl ⟨m, output, (Option.some.inj h).symm, hother hwrite (by decide)⟩
  · obtain ⟨k₁, hstore, h⟩ := Option.bind_eq_some_iff.mp h
    obtain ⟨m, rfl⟩ := Kernel.storeField_eq hstore
    exact .inl ⟨m, k.output, (Option.some.inj h).symm, hother hgetpid (by decide)⟩
  · obtain ⟨k₁, hstore, h⟩ := Option.bind_eq_some_iff.mp h
    obtain ⟨m, rfl⟩ := Kernel.storeField_eq hstore
    obtain ⟨⟨k', next⟩, hsched, h⟩ := Option.bind_eq_some_iff.mp h
    exact .inr (.inl ⟨m, k', next, hsched, (Option.some.inj h).symm, hyield ▸ hcall⟩)
  · exact .inr (.inr (Option.some.inj h).symm)
  · obtain ⟨k₁, hstore, h⟩ := Option.bind_eq_some_iff.mp h
    obtain ⟨m, rfl⟩ := Kernel.storeField_eq hstore
    exact .inl ⟨m, k.output, (Option.some.inj h).symm, hother rfl hyield⟩

/-- What a pass through the handler comes to: it returns the interrupted frame,
calls `schedule` on it, marks the running process, or halts. -/
theorem isrCommonHandler_cases {regs : UInt32} {outcome : Outcome}
    (h : k.isrCommonHandler access layout regs = some outcome) :
    (∃ m output, outcome = .resume { k with
        space := { k.space with memory := m }, output := output,
        schedulerNextDirectory := 0 } regs ∧ ¬ k.schedules access regs) ∨
      (∃ m quantum ticks k' next,
        Kernel.schedule access layout { k with
          space := { k.space with memory := m }, quantumTicks := quantum, ticks := ticks,
          schedulerNextDirectory := 0 } regs = some (k', next) ∧ outcome = .resume k' next ∧
          k.schedules access regs) ∨
      outcome = .exit { k with schedulerNextDirectory := 0 }.processTerminateCurrent ∨
      outcome = .halt := by
  obtain ⟨vector, hvector, h⟩ := Option.bind_eq_some_iff.mp h
  have hload : k.loadField access regs .vector = some vector := hvector
  have hquiet (hv : vector ≠ 0x20) (hv' : vector ≠ 0x80) : ¬ k.schedules access regs := by
    rintro (hs | ⟨hs, -⟩)
    · exact hv (Option.some.inj (hload.symm.trans hs))
    · exact hv' (Option.some.inj (hload.symm.trans hs))
  -- timer, keyboard, system calls, other lines, exceptions, and any other vector
  split_ifs at h with h20 h21 h80 hirq hexception
  · obtain ⟨⟨k', next⟩, hsched, hpair⟩ := Option.bind_eq_some_iff.mp h
    exact .inr (.inl ⟨k.space.memory, k.quantumTicks + 1, k.ticks + 1, k', next, hsched,
      (Option.some.inj hpair).symm, .inl (h20 ▸ hload)⟩)
  · obtain rfl := Option.some.inj h
    exact .inl ⟨k.space.memory, k.output, rfl, hquiet h20 (by rw [h21]; decide)⟩
  · rcases syscallDispatch_cases h with ⟨m, output, rfl, hcall⟩ |
      ⟨m, k', next, hsched, rfl, hcall⟩ | rfl
    · refine .inl ⟨m, output, rfl, ?_⟩
      rintro (hs | ⟨-, hs⟩)
      · exact h20 (Option.some.inj (hload.symm.trans hs))
      · exact hcall hs
    · exact .inr (.inl ⟨m, k.quantumTicks, k.ticks, k', next, hsched, rfl,
        .inr ⟨h80 ▸ hload, hcall⟩⟩)
    · exact .inr (.inr (.inl rfl))
  · obtain rfl := Option.some.inj h
    exact .inl ⟨k.space.memory, k.output, rfl, hquiet h20 h80⟩
  · exact .inr (.inr (.inr (Option.some.inj h).symm))
  · obtain rfl := Option.some.inj h
    exact .inl ⟨k.space.memory, k.output, rfl, hquiet h20 h80⟩

/-- The return path loads the directory and may change memory. -/
theorem Kernel.leave_eq {context : UInt32} (h : k.leave access context = some k') :
    ∃ m, k' = { k.loadDirectory with space := { k.loadDirectory.space with memory := m } } := by
  obtain ⟨cs, -, h⟩ := Option.bind_eq_some_iff.mp h
  split_ifs at h
  · exact ⟨k.loadDirectory.space.memory, (Option.some.inj h).symm⟩
  · obtain ⟨eip, -, h⟩ := Option.bind_eq_some_iff.mp h
    obtain ⟨eflags, -, h⟩ := Option.bind_eq_some_iff.mp h
    obtain ⟨saved, -, h⟩ := Option.bind_eq_some_iff.mp h
    obtain ⟨s₁, hstore₁, h⟩ := Option.bind_eq_some_iff.mp h
    obtain ⟨s₂, hstore₂, h⟩ := Option.bind_eq_some_iff.mp h
    obtain ⟨s₃, hstore₃, h⟩ := Option.bind_eq_some_iff.mp h
    obtain ⟨m₁, rfl⟩ := Space.store_eq hstore₁
    obtain ⟨m₂, rfl⟩ := Space.store_eq hstore₂
    obtain ⟨m₃, rfl⟩ := Space.store_eq hstore₃
    exact ⟨m₃, (Option.some.inj h).symm⟩

theorem Memory.Space.push_eq {s s' : Space} {top : UInt32} {words : List UInt32}
    (h : s.push access top words = some s') : ∃ m, s' = { s with memory := m } := by
  induction words generalizing s top with
  | nil => exact ⟨s.memory, (Option.some.inj h).symm⟩
  | cons word words ih =>
    obtain ⟨s₁, hstore, hrest⟩ := Option.bind_eq_some_iff.mp h
    obtain ⟨m₁, rfl⟩ := Space.store_eq hstore
    obtain ⟨m₂, rfl⟩ := ih hrest
    exact ⟨m₂, rfl⟩

theorem Kernel.entered_eq {event : Interruption} {writes : Memory → Memory}
    (h : k.entered access event writes = some k') :
    ∃ m, k' = { k with space := { k.space with memory := m } } := by
  obtain ⟨space, hpush, hpair⟩ := Option.bind_eq_some_iff.mp h
  obtain ⟨m, rfl⟩ := Space.push_eq hpush
  exact ⟨writes m, (Option.some.inj hpair).symm⟩

/-- A pass that resumes a context goes through all three stages. -/
theorem Kernel.interrupt_resume {event : Interruption} {writes : Memory → Memory}
    {context : UInt32} (h : k.interrupt access layout event writes = some (.resume k' context)) :
    ∃ e k₁, k.entered access event writes = some e ∧
      e.isrCommonHandler access layout (event.frame k) = some (.resume k₁ context) ∧
      k₁.leave access context = some k' := by
  obtain ⟨e, hentered, h⟩ := Option.bind_eq_some_iff.mp h
  obtain ⟨handled, hhandler, h⟩ := Option.bind_eq_some_iff.mp h
  cases handled with
  | resume k₁ context' =>
    obtain ⟨k₂, hleave, hpair⟩ := Option.bind_eq_some_iff.mp h
    obtain ⟨rfl, rfl⟩ := Outcome.resume.inj (Option.some.inj hpair)
    exact ⟨e, k₁, hentered, hhandler, hleave⟩
  | exit k₁ => cases Option.some.inj h
  | halt => cases Option.some.inj h

/-- A pass that ends in `process_exit` has marked the running process. -/
theorem Kernel.interrupt_exit {event : Interruption} {writes : Memory → Memory}
    (h : k.interrupt access layout event writes = some (.exit k')) :
    ∃ e, k.entered access event writes = some e ∧
      e.isrCommonHandler access layout (event.frame k) = some (.exit k') ∧
      k' = { e with schedulerNextDirectory := 0 }.processTerminateCurrent := by
  obtain ⟨e, hentered, h⟩ := Option.bind_eq_some_iff.mp h
  obtain ⟨handled, hhandler, h⟩ := Option.bind_eq_some_iff.mp h
  cases handled with
  | resume k₁ context' =>
    obtain ⟨k₂, -, hpair⟩ := Option.bind_eq_some_iff.mp h
    cases Option.some.inj hpair
  | exit k₁ =>
    obtain rfl := Outcome.exit.inj (Option.some.inj h)
    refine ⟨e, hentered, hhandler, ?_⟩
    rcases isrCommonHandler_cases hhandler with ⟨m, output, heq, -⟩ |
      ⟨m, quantum, ticks, k₂, next, -, heq, -⟩ | heq | heq
    · cases heq
    · cases heq
    · exact Outcome.exit.inj heq
    · cases heq
  | halt => cases Option.some.inj h

/-- An interruption returns to a context, or ends in `process_exit`. -/
theorem Kernel.step_interrupt {event : Interruption} {writes : Memory → Memory}
    (h : k.step access layout (.interrupt event writes) = some k') :
    (∃ m k₁ context, Kernel.isrCommonHandler access layout
        { k with space := { k.space with memory := m } } (event.frame k) =
          some (.resume k₁ context) ∧ k₁.leave access context = some k') ∨
      ∃ m, k' = Kernel.processTerminateCurrent { k with
        space := { k.space with memory := m }, schedulerNextDirectory := 0 } := by
  obtain ⟨outcome, hinterrupt, hrest⟩ := Option.bind_eq_some_iff.mp h
  cases outcome with
  | resume k₂ context =>
    obtain rfl := Option.some.inj hrest
    obtain ⟨e, k₁, hentered, hhandler, hleave⟩ := Kernel.interrupt_resume hinterrupt
    obtain ⟨m, rfl⟩ := Kernel.entered_eq hentered
    exact .inl ⟨m, k₁, context, hhandler, hleave⟩
  | exit k₂ =>
    obtain rfl := Option.some.inj hrest
    obtain ⟨e, hentered, -, rfl⟩ := Kernel.interrupt_exit hinterrupt
    obtain ⟨m, rfl⟩ := Kernel.entered_eq hentered
    exact .inr ⟨m, rfl⟩
  | halt => cases hrest

end Handler

/-! ## The invariant -/

/-- The directory in force and the ring-0 stack are those of the running process. -/
structure Agrees (layout : Layout) (pool : Finset Nat) (k : Kernel) : Prop where
  owned : Owned layout pool k
  directory : ∀ r, k.running = some r → k.space.cr3 = (k.processes r).directory
  stack : ∀ r, k.running = some r → k.esp0 = processKernelStackTop layout (k.processes r)

section Agreement

variable {access : Access} {layout : Layout} {pool : Finset Nat} {k k' : Kernel}

/-- Nothing but memory, counters and output has changed. -/
theorem Agrees.congr (h : Agrees layout pool k) (hpmm : k'.space.pmm = k.space.pmm)
    (hcr3 : k'.space.cr3 = k.space.cr3) (hrunning : k'.running = k.running)
    (hprocesses : k'.processes = k.processes) (hesp0 : k'.esp0 = k.esp0)
    (hcontext : k'.bootstrapContext = k.bootstrapContext) : Agrees layout pool k' := by
  have hshrinks : k.space.pmm.Shrinks k'.space.pmm := by
    rw [hpmm]
    exact .refl h.owned.sound
  refine ⟨h.owned.congr hshrinks ?_ hcontext (by rw [hprocesses]) (.refl hprocesses),
    fun r hr => ?_, fun r hr => ?_⟩
  · rw [hrunning]
    unfold Kernel.Occupied
    rw [hprocesses]
    exact h.owned.current
  · rw [hcr3, hprocesses]
    exact h.directory r (hrunning ▸ hr)
  · rw [hesp0, hprocesses]
    exact h.stack r (hrunning ▸ hr)

theorem Agrees.creation (h : Agrees layout pool k) {rejected : Prop} {pages : Nat} {result : Int32}
    (hcreation : Creation rejected pages k k' result)
    (hmarked : ∀ r, k.running = some r → (k.processes r).state ≠ .zombie) :
    Agrees layout pool k' := by
  have howned := h.owned.creation hcreation
  cases hcreation with
  | failed m pmm hshrinks hreason => exact ⟨howned, h.directory, h.stack⟩
  | entered slot process m pmm hvacant hfresh hpid =>
    -- the running process is alive, so its slot is not vacant
    have hkeep (r : Slot) (hr : k.running = some r) :
        (k.enterProcess slot process { k.space with memory := m, pmm := pmm }).processes r =
          k.processes r :=
      k.enterProcess_of_ne (h.owned.running_ne_vacant hvacant hr (hmarked r hr)) _ _
    refine ⟨howned, fun r hr => ?_, fun r hr => ?_⟩
    · rw [hkeep r hr]
      exact h.directory r hr
    · rw [hkeep r hr]
      exact h.stack r hr

theorem Agrees.terminate (h : Agrees layout pool k) :
    Agrees layout pool k.processTerminateCurrent := by
  have howned := h.owned.terminate
  rcases h.owned.terminate_cases with ⟨-, heq⟩ | ⟨r, hr, -, heq⟩
  · rwa [heq]
  · rw [heq] at howned ⊢
    refine ⟨howned, fun r' hr' => ?_, fun r' hr' => ?_⟩
    all_goals
      obtain rfl : r = r' := Option.some.inj (hr.symm.trans hr')
      rw [k.setState_self]
    · exact h.directory r hr
    · exact h.stack r hr

/-- An interruption in ring 3 pushes its frame at the place of the saved context. -/
theorem Agrees.frame_user (h : Agrees layout pool k) {event : Interruption} {r : Slot}
    (hr : k.running = some r) (hring : Machine.ring event.cpu.cs ≠ 0) :
    event.frame k = (k.processes r).context := by
  have hused := h.owned.used_running hr
  rw [h.owned.context_eq hused, ← h.stack r hr, Interruption.frame, Machine.context,
    savedFrame_user hring, Machine.entryStack, if_neg hring]
  rfl

/-- The frame of an interruption is on the stack of the running process, so it is
not the saved context of another one. -/
theorem Agrees.frame_ne (h : Agrees layout pool k)
    (hpool : AboveKernel layout pool) {event : Interruption}
    {writes : Memory → Memory} (hproper : (Event.interrupt event writes).Proper layout k)
    {r j : Slot} (hr : k.running = some r) (hj : k.Used j) (hne : j ≠ r) :
    event.frame k ≠ (k.processes j).context := by
  have hused := h.owned.used_running hr
  have hframe : k.OnStack layout r (event.frame k) := by
    by_cases hring : Machine.ring event.cpu.cs = 0
    · exact hproper hring r hr
    · rw [h.frame_user hr hring]
      exact h.owned.onStack_context hused
  intro heq
  rw [heq] at hframe
  exact hne (h.owned.onStack_unique hpool hj hused (h.owned.onStack_context hj) hframe)

/-- A completed pass: the processor is given to the running process of the table,
which is another one than before or resumes where it was. -/
structure Resumed (layout : Layout) (k k' : Kernel) (regs context : UInt32) (i : Slot) : Prop where
  running : k'.running = some i
  directory : k'.space.cr3 = (k'.processes i).directory
  stack : k'.esp0 = processKernelStackTop layout (k'.processes i)
  context : (k.running ≠ some i ∧ context = (k'.processes i).context) ∨
    (k.running = some i ∧ context = regs)

theorem Agrees.pass (h : Agrees layout pool k) {regs context : UInt32} {k₁ : Kernel}
    (hframe : ∀ r j, k.running = some r → k.Used j → j ≠ r → regs ≠ (k.processes j).context)
    (hhandler : k.isrCommonHandler access layout regs = some (.resume k₁ context))
    (hleave : k₁.leave access context = some k') :
    Agrees layout pool k' ∧ ∃ i, Resumed layout k k' regs context i ∧
      ((k'.processes i).state = .zombie →
        (k.processes i).state = .zombie ∧ ¬ k.schedules access regs) := by
  obtain ⟨r, hr, hused⟩ := h.owned.current
  obtain ⟨m', rfl⟩ := Kernel.leave_eq hleave
  rcases isrCommonHandler_cases hhandler with ⟨m, output, heq, hquiet⟩ |
    ⟨m, quantum, ticks, k₂, next, hschedule, heq, -⟩ | heq | heq
  · obtain ⟨rfl, rfl⟩ := Outcome.resume.inj heq
    rw [Kernel.loadDirectory, if_pos rfl]
    refine ⟨h.congr rfl rfl rfl rfl rfl rfl, r,
      ⟨hr, h.directory r hr, h.stack r hr, .inr ⟨hr, rfl⟩⟩, fun hzombie => ⟨hzombie, hquiet⟩⟩
  · obtain ⟨rfl, rfl⟩ := Outcome.resume.inj heq
    have hbefore : Agrees layout pool { k with
        space := { k.space with memory := m }, quantumTicks := quantum, ticks := ticks,
        schedulerNextDirectory := 0 } := h.congr rfl rfl rfl rfl rfl rfl
    have hafter := hbefore.owned.schedule hschedule
    obtain ⟨r', hr', ⟨-, halive, rfl, rfl⟩ | ⟨i, space, hne, hnext, hsave, rfl, rfl⟩⟩ :=
      hbefore.owned.schedule_cases hschedule
    · rw [Kernel.loadDirectory, if_pos rfl]
      obtain rfl : r = r' := Option.some.inj (hr.symm.trans hr')
      exact ⟨h.congr rfl rfl rfl rfl rfl rfl, r,
        ⟨hr, h.directory r hr, h.stack r hr, .inr ⟨hr, rfl⟩⟩, fun hzombie => absurd hzombie halive⟩
    · obtain rfl : r = r' := Option.some.inj (hr.symm.trans hr')
      obtain ⟨m₁, rfl⟩ := Kernel.savedSpace_eq hsave
      have hi : k.Used i := Kernel.used_of_live (Kernel.live_of_nextLive hnext)
      -- the context returned is another one, so the directory is published and loaded
      have hother : ¬ (k.processes i).context = regs := (hframe r i hr hi hne).symm
      have hdirectory : (k.processes i).directory ≠ 0 := h.owned.directory_ne_zero hi
      rw [if_neg hother] at hafter ⊢
      rw [Kernel.loadDirectory, if_neg hdirectory]
      set dispatched := Kernel.dispatch layout { k with
        space := { k.space with memory := m₁ }, quantumTicks := quantum, ticks := ticks,
        schedulerNextDirectory := 0 } i
      have hself : dispatched.processes i = { k.processes i with state := .running } :=
        Kernel.dispatch_self _ _ _
      have hcr3 : (k.processes i).directory = (dispatched.processes i).directory := by rw [hself]
      have hesp0 : dispatched.esp0 = processKernelStackTop layout (dispatched.processes i) := by
        rw [hself]
        rfl
      have hcontext : (k.processes i).context = (dispatched.processes i).context := by rw [hself]
      refine ⟨⟨hafter.setMemory m' _, ?_, ?_⟩, i, ⟨rfl, hcr3, hesp0, .inl ⟨?_, hcontext⟩⟩, ?_⟩
      · intro i' hi'
        obtain rfl : i = i' := Option.some.inj hi'
        exact hcr3
      · intro i' hi'
        obtain rfl : i = i' := Option.some.inj hi'
        exact hesp0
      · rw [hr]
        exact fun heq => hne (Option.some.inj heq).symm
      · intro hzombie
        change (dispatched.processes i).state = .zombie at hzombie
        rw [hself] at hzombie
        cases hzombie
  · cases heq
  · cases heq

theorem Agrees.setMemory (h : Agrees layout pool k) (m : Memory) :
    Agrees layout pool { k with space := { k.space with memory := m } } :=
  h.congr rfl rfl rfl rfl rfl rfl

theorem Agrees.step (h : Agrees layout pool k)
    (hpool : AboveKernel layout pool)
    (hstep : k.Step access layout k') : Agrees layout pool k' := by
  obtain ⟨event, hproper, hevent⟩ := hstep
  cases event with
  | create entry argument =>
    obtain ⟨⟨k₁, result⟩, hcreate, rfl⟩ := Option.map_eq_some_iff.mp hevent
    exact h.creation (processCreate_creation h.owned.sound hcreate) hproper
  | createUser image imageSize =>
    obtain ⟨⟨k₁, result⟩, hcreate, rfl⟩ := Option.map_eq_some_iff.mp hevent
    exact h.creation (processCreateUser_creation h.owned.sound hcreate) hproper
  | terminate =>
    obtain rfl := Option.some.inj hevent
    exact h.terminate
  | other memory =>
    obtain rfl := Option.some.inj hevent
    exact h.setMemory memory
  | interrupt event writes =>
    rcases Kernel.step_interrupt hevent with ⟨m, k₁, context, hhandler, hleave⟩ | ⟨m, rfl⟩
    · exact ((h.setMemory m).pass
        (fun r j hr hj hne => h.frame_ne hpool hproper hr hj hne) hhandler hleave).1
    · apply Agrees.terminate
      exact h.congr rfl rfl rfl rfl rfl rfl

theorem Agrees.reach (h : Agrees layout pool k)
    (hpool : AboveKernel layout pool)
    (hsteps : Relation.ReflTransGen (Kernel.Step access layout) k k') : Agrees layout pool k' := by
  induction hsteps with
  | refl => exact h
  | tail _ hstep ih => exact ih.step hpool hstep

/-- The processor and the table agree after `scheduler_init`. -/
theorem schedulerInit_agrees {memory : Memory} {pmm : Pmm} {esp0 : UInt32} (hsound : pmm.Sound)
    (hinit : schedulerInit access layout (Kernel.boot layout memory pmm esp0) = some k) :
    Agrees layout pmm.free k := by
  have hboot := Kernel.boot_pmm layout memory pmm esp0
  have howned := schedulerInit_owned (hboot.symm ▸ hsound) hinit
  rw [hboot] at howned
  refine ⟨howned, fun r hr => ?_, fun r hr => ?_⟩
  all_goals
    obtain ⟨m, rfl⟩ := schedulerInit_eq hinit
    obtain rfl : 0 = r := Option.some.inj hr
  · change (Kernel.boot layout memory pmm esp0).space.cr3 = (initialProcesses layout 0).directory
    rw [initialProcesses_zero, Kernel.boot, initPaging]
    rfl
  · rfl

end Agreement

end LevOS
