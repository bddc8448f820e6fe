import LevOS.Process.Frames

/-!
# After a pass

After every completed pass through `isr_common` the processor and the table
speak of the same process. It is not one that has exited, but for one case: a
process that has marked itself in `process_exit` and is interrupted before its
`int 0x20` resumes, unless the interrupt is one that schedules.

## Main results

* `interrupt_agrees`
* `Agrees.handled`, what a scheduling interruption comes to
* `Agrees.tick_switches`, a tick that gives the processor to the only other process
-/

namespace LevOS

open Foundation Memory Cpu

section Agreement

variable {access : Access} {layout : Layout} {k : Kernel}

/-- The processor and the table agree: in every run, after a completed pass
through `isr_common`, the directory in force and the ring-0 stack are those of
the running process; the context resumed is its saved one after a switch and the
interrupted frame otherwise, and then the process has not exited, unless it had
marked itself before and the pass did not schedule. The round-robin loop always
finds a process with a context. -/
theorem interrupt_agrees {bytes : Pmm → Memory} {info : UInt32} {fuel : Nat} {pmm : Pmm}
    {memory : Memory} {esp0 : UInt32} {k₀ : Kernel}
    (hpmm : Pmm.pmmInit bytes layout.kernelEnd info fuel = some pmm)
    (hinit : schedulerInit access layout (Kernel.boot layout memory pmm esp0) = some k₀)
    (hreach : Relation.ReflTransGen (Kernel.Step access layout) k₀ k) :
    (∃ i, k.nextLive = some i ∧ (k.processes i).context ≠ 0) ∧
      ∀ (event : Interruption) (writes : Memory → Memory) (k' : Kernel) (context : UInt32),
        (Event.interrupt event writes).Proper layout k →
        k.interrupt access layout event writes = some (.resume k' context) →
        ∃ entered i, k.entered access event writes = some entered ∧
          Resumed layout k k' (event.frame k) context i ∧
          ((k'.processes i).state = .zombie →
            (k.processes i).state = .zombie ∧ ¬ entered.schedules access (event.frame k)) := by
  have hpool : AboveKernel layout pmm.free := aboveKernel_pmmInit hpmm
  have hagrees := (schedulerInit_agrees (Pmm.pmmInit_sound hpmm) hinit).reach hpool hreach
  constructor
  · obtain ⟨i, hi⟩ : ∃ i, k.nextLive = some i :=
      Option.isSome_iff_exists.mp
        (List.find?_isSome.mpr ⟨0, k.mem_rotation 0, hagrees.owned.live_zero⟩)
    exact ⟨i, hi, hagrees.owned.context_ne_zero (Kernel.live_of_nextLive hi)⟩
  · intro event writes k' context hproper hinterrupt
    obtain ⟨e, k₁, hentered, hhandler, hleave⟩ := Kernel.interrupt_resume hinterrupt
    obtain ⟨m, rfl⟩ := Kernel.entered_eq hentered
    obtain ⟨-, i, hresumed, hzombie⟩ := (hagrees.setMemory m).pass
      (fun r j hr hj hne => hagrees.frame_ne hpool hproper hr hj hne) hhandler hleave
    exact ⟨_, i, hentered,
      ⟨hresumed.running, hresumed.directory, hresumed.stack, hresumed.context⟩, hzombie⟩

end Agreement

/-! ## Scheduling interruptions -/

/-- What a scheduling interruption comes to once the frame has been pushed: the process keeps
the processor, or its context is saved and another process goes on from its own. -/
theorem Agrees.handled {layout : Layout} {pool : Finset Nat} {k k₁ : Kernel} {event : Interruption}
    {m₀ : Memory} {next : UInt32} (h : Agrees layout pool k) (hschedules : event.Schedules)
    (hfit : (event.frame k).toNat + 52 ≤ 2 ^ 32)
    (hcontents : ∀ n < 15, load32 m₀ (event.frame k + UInt32.ofNat (4 * n)) =
      (event.contents k).getD n 0)
    (hhandler : Kernel.isrCommonHandler direct layout
      { k with space := { k.space with memory := m₀ } } (event.frame k) = some (.resume k₁ next)) :
    ∃ r m, k.running = some r ∧ (∀ a, Outside a (event.frame k) 52 → m a = m₀ a) ∧
      (∀ n < 15, load32 m (event.frame k + UInt32.ofNat (4 * n)) = (event.left k).getD n 0) ∧
      ((next = event.frame k ∧ k₁.running = k.running ∧ k₁.processes = k.processes ∧
          (k.processes r).state ≠ .zombie ∧ k₁.space.memory = m) ∨
        ∃ i space, i ≠ r ∧ (k.processes i).live = true ∧ next = (k.processes i).context ∧
          Kernel.savedSpace direct { k with space := { k.space with memory := m } } r
            (event.frame k) = some space ∧
          k₁.running = some i ∧ k₁.space.memory = space.memory ∧
          k₁.processes i = { k.processes i with state := .running } ∧
          ∀ j ≠ i, k₁.processes j = k.processes j) := by
  obtain ⟨m, quantum, ticks, heq, hsame, hleft⟩ := isrCommonHandler_schedules layout
    (e := { k with space := { k.space with memory := m₀ } }) hschedules hfit hcontents
  rw [heq] at hhandler
  obtain ⟨result, hschedule, hresume⟩ := Option.map_eq_some_iff.mp hhandler
  obtain ⟨rfl, rfl⟩ := Outcome.resume.inj hresume
  -- the handler has only counted the tick or stored the result of the call
  have hbefore : Agrees layout pool { k with
      space := { k.space with memory := m }
      schedulerNextDirectory := 0
      quantumTicks := quantum
      ticks := ticks } := h.congr rfl rfl rfl rfl rfl rfl
  obtain ⟨r, hr, ⟨-, halive, hkernel, hnext⟩ | ⟨i, space, hir, hlive, hsave, hnext, hkernel⟩⟩ :=
    hbefore.owned.schedule_cases hschedule
  · rw [hkernel, hnext]
    exact ⟨r, m, hr, hsame, hleft, .inl ⟨rfl, rfl, rfl, halive, rfl⟩⟩
  · rw [hkernel, hnext]
    exact ⟨r, m, hr, hsame, hleft, .inr ⟨i, space, hir, Kernel.live_of_nextLive hlive, rfl, hsave,
      rfl, rfl, Kernel.dispatch_self layout _ i, fun j hj => Kernel.dispatch_of_ne layout _ hj⟩⟩

/-! ## The first switch -/

/-- A timer tick while the bootstrap process runs. -/
def bootTick : Interruption where
  cpu := {
    regs := Function.update (fun _ => 0) .esp 0x117000
    eip := 0x101000
    cs := 0x08
    ss := 0x10
    eflags := 0x202
    cr3 := 0x110000
    memory := fun _ => 0 }
  vector := 0x20
  error := 0

section First

variable {pool : Finset Nat} {k : Kernel}

theorem bootTick_ring : Machine.ring bootTick.cpu.cs = 0 := by decide

theorem bootTick_frame : bootTick.frame k = 0x116FCC := by
  rw [Interruption.frame_eq, Interruption.length_words, Interruption.stack, Machine.entryStack,
    if_pos bootTick_ring, if_pos bootTick_ring]
  decide

theorem bootTick_proper (hr : k.running = some 0) :
    (Event.interrupt bootTick id).Proper sampleLayout k := by
  intro _ r hr'
  obtain rfl : 0 = r := Option.some.inj (hr.symm.trans hr')
  rw [bootTick_frame, Kernel.OnStack, if_pos rfl]
  decide

/-- A tick gives the processor to the only other live process. -/
theorem Agrees.tick_switches {layout : Layout} (h : Agrees layout pool k) {event : Interruption}
    (htick : event.vector = 0x20) (hfit : (event.frame k).toNat + 52 ≤ 2 ^ 32) {r i : Slot}
    (hr : k.running = some r) (hir : i ≠ r) (hlive : (k.processes i).live = true)
    (honly : ∀ j ≠ r, (k.processes j).live = true → j = i) (hself : (k.processes r).live = true) :
    ∃ e k₁ context, k.entered direct event id = some e ∧
      e.isrCommonHandler direct layout (event.frame k) = some (.resume k₁ context) ∧
      k₁.running = some i ∧ k₁.processes i = { k.processes i with state := .running } ∧
      ∀ j ≠ i, k₁.processes j = k.processes j := by
  obtain ⟨m, quantum, ticks, heq, -, -⟩ := isrCommonHandler_schedules layout
    (e := { k with space := { k.space with
      memory := pushWords k.space.memory (event.stack k) (event.words k) } })
    (.inl htick) hfit fun n hn => Interruption.load32_pushed hn
  have hbefore : Agrees layout pool { k with
      space := { k.space with memory := m }
      schedulerNextDirectory := 0
      quantumTicks := quantum
      ticks := ticks } := h.congr rfl rfl rfl rfl rfl rfl
  obtain ⟨m₁, directory, next, hschedule⟩ :=
    hbefore.owned.schedule_to hr hir hlive honly (.inr hself) (event.frame k)
  rw [hschedule] at heq
  exact ⟨_, _, _, Kernel.entered_direct _ _ _, heq, rfl, Kernel.dispatch_self layout _ i,
    fun j hj => Kernel.dispatch_of_ne layout _ hj⟩

/-- The pass of a tick. -/
theorem Agrees.tick_pass {layout : Layout} (h : Agrees layout pool k) {event : Interruption}
    (htick : event.vector = 0x20) (hfit : (event.frame k).toNat + 52 ≤ 2 ^ 32) {r i : Slot}
    (hr : k.running = some r) (hir : i ≠ r) (hlive : (k.processes i).live = true)
    (honly : ∀ j ≠ r, (k.processes j).live = true → j = i) (hself : (k.processes r).live = true) :
    ∃ k' context, k.interrupt direct layout event id = some (.resume k' context) ∧
      k'.running = some i ∧ k'.processes i = { k.processes i with state := .running } ∧
      ∀ j ≠ i, k'.processes j = k.processes j := by
  obtain ⟨e, k₁, context, hentered, hhandler, hrunning, hnew, hother⟩ :=
    h.tick_switches htick hfit hr hir hlive honly hself
  obtain ⟨k', hleave⟩ := k₁.leave_total context
  obtain ⟨htable, hrunning'⟩ := Kernel.leave_table hleave
  exact ⟨k', context, Kernel.interrupt_of_resume hentered hhandler hleave,
    hrunning'.trans hrunning, htable ▸ hnew, htable ▸ hother⟩

theorem bootTick_fit : (bootTick.frame k).toNat + 52 ≤ 2 ^ 32 := by
  rw [bootTick_frame]
  decide

theorem Agrees.bootTick_switches (h : Agrees sampleLayout pool k) (hr : k.running = some 0)
    {i : Slot} (hi : i ≠ 0) (hlive : (k.processes i).live = true)
    (honly : ∀ j ≠ 0, (k.processes j).live = true → j = i) :
    ∃ e k₁ context, k.entered direct bootTick id = some e ∧
      e.isrCommonHandler direct sampleLayout (bootTick.frame k) = some (.resume k₁ context) ∧
      k₁.running = some i ∧ k₁.processes i = { k.processes i with state := .running } ∧
      ∀ j ≠ i, k₁.processes j = k.processes j :=
  h.tick_switches rfl bootTick_fit hr hi hlive honly h.owned.live_zero

theorem Agrees.bootTick_pass (h : Agrees sampleLayout pool k) (hr : k.running = some 0)
    {i : Slot} (hi : i ≠ 0) (hlive : (k.processes i).live = true)
    (honly : ∀ j ≠ 0, (k.processes j).live = true → j = i) :
    ∃ k' context, k.interrupt direct sampleLayout bootTick id = some (.resume k' context) ∧
      k'.running = some i ∧ k'.processes i = { k.processes i with state := .running } ∧
      ∀ j ≠ i, k'.processes j = k.processes j :=
  h.tick_pass rfl bootTick_fit hr hi hlive honly h.owned.live_zero

end First

/-- A kernel process is created after a boot without a memory map. -/
theorem noMapFirst :
    ∃ (pmm : Pmm) (k₀ k : Kernel),
      Pmm.pmmInit (fun _ _ => 0) sampleLayout.kernelEnd 0 0 = some pmm ∧
      schedulerInit direct sampleLayout (Kernel.boot sampleLayout (fun _ => 0) pmm 0) = some k₀ ∧
      k₀.step direct sampleLayout (.create 0x101000 0) = some k ∧
      k₀.Step direct sampleLayout k ∧ Agrees sampleLayout pmm.free k ∧ k.running = some 0 ∧
      (k.processes 1).live = true ∧ ∀ j ≠ 0, (k.processes j).live = true → j = 1 := by
  obtain ⟨pmm, k₀, process, m, p, hpmm, hinit, hcreate, hfresh, -, -, -, hrunning, htable, -⟩ :=
    noMapCreate
  have hstep : k₀.step direct sampleLayout (.create 0x101000 0) =
      some (k₀.enterProcess 1 process { k₀.space with memory := m, pmm := p }) := by
    rw [Kernel.step, hcreate]
    rfl
  have hproper : (Event.create 0x101000 0).Proper sampleLayout k₀ := by
    intro r hr
    obtain rfl : 0 = r := Option.some.inj (hrunning.symm.trans hr)
    rw [htable, initialProcesses_zero]
    rintro ⟨⟩
  have hagrees := (schedulerInit_agrees (Pmm.pmmInit_sound hpmm) hinit).step
    (aboveKernel_pmmInit hpmm) ⟨_, hproper, hstep⟩
  refine ⟨pmm, k₀, _, hpmm, hinit, hstep, ⟨_, hproper, hstep⟩, hagrees, hrunning, ?_,
    fun j hj hlive => ?_⟩
  · rw [Kernel.enterProcess_self, Process.live, hfresh.state]
    rfl
  · by_contra hne
    rw [Kernel.enterProcess_of_ne _ hne, htable, initialProcesses_of_ne sampleLayout hj] at hlive
    cases hlive

/-- A process is created, and a tick gives it the processor. -/
theorem interrupt_agrees_switch :
    ∃ (pmm : Pmm) (k₀ k k' : Kernel) (context : UInt32),
      schedulerInit direct sampleLayout (Kernel.boot sampleLayout (fun _ => 0) pmm 0) = some k₀ ∧
      k₀.step direct sampleLayout (.create 0x101000 0) = some k ∧
      k.interrupt direct sampleLayout bootTick id = some (.resume k' context) ∧
      Resumed sampleLayout k k' (bootTick.frame k) context 1 ∧
      (k'.processes 1).state ≠ .zombie := by
  obtain ⟨pmm, k₀, k, hpmm, hinit, hcreate, hstep, hagrees, hr, hlive, honly⟩ := noMapFirst
  obtain ⟨k', context, hpass, hrunning, hself, -⟩ :=
    hagrees.bootTick_pass hr (by decide) hlive honly
  obtain ⟨-, i, -, hresumed, -⟩ := (interrupt_agrees hpmm hinit (.single hstep)).2 bootTick id k'
    context (bootTick_proper hr) hpass
  obtain rfl : 1 = i := Option.some.inj (hrunning.symm.trans hresumed.running)
  refine ⟨pmm, k₀, k, k', context, hinit, hcreate, hpass, hresumed, ?_⟩
  rw [hself]
  rintro ⟨⟩

/-- A key is pressed while ring-0 code runs. -/
def keyPress (esp : UInt32) : Interruption where
  cpu := {
    regs := Function.update (fun _ => 0) .esp esp
    eip := 0x101000
    cs := 0x08
    ss := 0x10
    eflags := 0x202
    cr3 := 0x110000
    memory := fun _ => 0 }
  vector := 0x21
  error := 0

theorem keyPress_frame (esp : UInt32) (k : Kernel) : (keyPress esp).frame k = esp - 52 := by
  have hring : Machine.ring (keyPress esp).cpu.cs = 0 := show Machine.ring 0x08 = 0 by decide
  rw [Interruption.frame_eq, Interruption.length_words, Interruption.stack, Machine.entryStack,
    if_pos hring, if_pos hring]
  rfl

/-- The keyboard handler returns the interrupted frame. -/
theorem keyPress_pass (k : Kernel) (esp : UInt32) :
    ∃ k' context, k.interrupt direct sampleLayout (keyPress esp) id = some (.resume k' context) ∧
      k'.running = k.running ∧ k'.processes = k.processes := by
  set e : Kernel := { k with space := { k.space with
    memory := pushWords k.space.memory ((keyPress esp).stack k) ((keyPress esp).words k) } }
  have hvector : load32 e.space.memory (Field.vector.of ((keyPress esp).frame k)) = 0x21 :=
    (Interruption.load32_pushed (show 8 < 15 by decide)).trans Interruption.contents_vector
  obtain ⟨k', hleave⟩ := Kernel.leave_total { e with schedulerNextDirectory := 0 }
    ((keyPress esp).frame k)
  obtain ⟨htable, hrunning⟩ := Kernel.leave_table hleave
  exact ⟨k', _, Kernel.interrupt_of_resume (Kernel.entered_direct k _ id)
    (isrCommonHandler_keyboard hvector) hleave, hrunning, htable⟩

/-- A process marks itself in `process_exit` and is interrupted by the keyboard before its
`int 0x20`: the process resumed has exited. -/
theorem interrupt_resumes_zombie :
    ∃ (pmm : Pmm) (k₀ k k' : Kernel) (event : Interruption) (context : UInt32) (i : Slot),
      Pmm.pmmInit (fun _ _ => 0) sampleLayout.kernelEnd 0 0 = some pmm ∧
      schedulerInit direct sampleLayout (Kernel.boot sampleLayout (fun _ => 0) pmm 0) = some k₀ ∧
      Relation.ReflTransGen (Kernel.Step direct sampleLayout) k₀ k ∧
      (Event.interrupt event id).Proper sampleLayout k ∧
      k.interrupt direct sampleLayout event id = some (.resume k' context) ∧
      k'.running = some i ∧ (k'.processes i).state = .zombie := by
  obtain ⟨pmm, k₀, k₁, hpmm, hinit, -, hstep, hagrees, hr, hlive, honly⟩ := noMapFirst
  have hpool : AboveKernel sampleLayout pmm.free := aboveKernel_pmmInit hpmm
  obtain ⟨k₂, context, hpass, hrunning, hself, -⟩ :=
    hagrees.bootTick_pass hr (by decide) hlive honly
  have hstep₁ : k₁.Step direct sampleLayout k₂ :=
    ⟨.interrupt bootTick id, bootTick_proper hr, by rw [Kernel.step, hpass]; rfl⟩
  have hagrees₂ := hagrees.step hpool hstep₁
  -- the process marks itself
  have hstep₂ : k₂.Step direct sampleLayout k₂.processTerminateCurrent := ⟨.terminate, trivial, rfl⟩
  have hagrees₃ := hagrees₂.terminate
  have hexit : k₂.processTerminateCurrent = k₂.setState 1 .zombie := by
    rcases hagrees₂.owned.terminate_cases with ⟨hzero, -⟩ | ⟨r, hr', -, heq⟩
    · rw [hrunning] at hzero
      cases hzero
    · rwa [← Option.some.inj (hrunning.symm.trans hr')] at heq
  rw [hexit] at hstep₂ hagrees₃
  have hzombie : ((k₂.setState 1 .zombie).processes 1).state = .zombie := by
    rw [k₂.setState_self]
  have hocc : (k₂.setState 1 .zombie).Occupied 1 := by
    refine ⟨by decide, ?_⟩
    rw [hzombie]
    rintro ⟨⟩
  have hcontext := hagrees₃.owned.context_toNat hocc
  obtain ⟨haligned, habove⟩ := hagrees₃.owned.stackBase_spec hpool hocc
  have hlt := ((k₂.setState 1 .zombie).processes 1).stackBase.toNat_lt
  -- and is interrupted on its stack
  obtain ⟨k', context', hkey, hrunning', htable⟩ := keyPress_pass (k₂.setState 1 .zombie)
    ((k₂.setState 1 .zombie).processes 1).context
  refine ⟨pmm, k₀, _, k', _, context', 1, hpmm, hinit,
    .tail (.tail (.single hstep) hstep₁) hstep₂, fun _ r hr' => ?_, hkey, hrunning'.trans hrunning,
    htable ▸ hzombie⟩
  obtain rfl : 1 = r := Option.some.inj (hrunning.symm.trans hr')
  rw [keyPress_frame, Kernel.OnStack, if_neg (by decide), UInt32.toNat_sub]
  simp only [UInt32.reduceToNat]
  omega

end LevOS
