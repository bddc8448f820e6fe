import LevOS.Process.Resume
import LevOS.Cpu.Segments

/-!
# Data segments

`gdt_flush` loads the kernel's data segment into `ds` and `es`, and nothing loads
them again: they are not in `struct cpu_context`, and `isr_common` leaves them
alone. They stay as long as only ring-0 code is resumed. The first `iretd` to a
user process clears them; the program starts without data segments, and so does
the handler at the next interrupt.

## Main definitions

* `Segmented`, `Segmented.step`, the processor with its data segment registers
* `Segmented.Meets`, what the handler and the programs need of the registers

## Main results

* `segments_usable`
-/

namespace LevOS

open Foundation Memory Cpu

/-! ## Runs -/

/-- The processor with its data segment registers. -/
structure Segmented where
  processor : Processor
  segments : Segments

/-- A moment of a run: an event, or a program that loads a register. -/
inductive Moment
  | event (event : Event)
  | load (register : SegmentReg) (selector : UInt16)

namespace Segmented

variable (gdt : List Descriptor) (access : Access) (layout : Layout) (s s' : Segmented)

/-- The state after `init_GDT`: the kernel runs, in ring 0. -/
def boot (k : Kernel) : Segmented := ⟨⟨k, 0⟩, gdtFlush⟩

/-- The registers after an event: interrupts leave them as they are, and so do the
handlers; `iretd` may clear them. -/
def after (ring : UInt16) : Event → Segments
  | .interrupt _ _ => s.segments.iretd gdt ring
  | _ => s.segments

/-- One moment. After `gdt_flush` no code of the kernel loads a register. -/
def step : Moment → Option Segmented
  | .event event =>
    (s.processor.step access layout event).map fun processor =>
      ⟨processor, s.after gdt processor.ring event⟩
  | .load register selector =>
    if s.processor.ring ≠ 0 ∧ Segments.loads gdt s.processor.ring selector then
      some { s with segments := s.segments.load selector register }
    else none

/-- The registers `ds` and `es` name data segments that a level may use. -/
def Usable (level : UInt16) : Prop :=
  usable gdt level s.segments.ds = true ∧ usable gdt level s.segments.es = true

/-- What a pass through `isr_common` needs: the handler, in ring 0, has data segments when
it is called, and so has the program when `iretd` enters its ring. -/
def Meets : Moment → Prop
  | .event (.interrupt _ _) =>
    s.Usable gdt 0 ∧ (s'.processor.ring ≠ 0 → s'.Usable gdt s'.processor.ring)
  | _ => True

/-- A moment after which ring-0 code runs. -/
def KernelStep : Prop :=
  ∃ moment, s.step gdt access layout moment = some s' ∧ s'.processor.ring = 0

end Segmented

/-! ## The registers in ring 0 -/

section Registers

variable {tss : UInt32} {access : Access} {layout : Layout} {s s' : Segmented}

/-- As long as ring-0 code runs, the registers are those of `gdt_flush`. -/
theorem Segmented.step_kernel (hring : s.processor.ring = 0) (hsegments : s.segments = gdtFlush)
    {moment : Moment} (hstep : s.step (initGDT tss) access layout moment = some s')
    (hring' : s'.processor.ring = 0) : s'.segments = gdtFlush := by
  cases moment with
  | event event =>
    obtain ⟨processor, -, rfl⟩ := Option.map_eq_some_iff.mp hstep
    cases event with
    | interrupt event writes => exact (if_pos hring').trans hsegments
    | create | createUser | terminate | other => exact hsegments
  | load register selector =>
    rw [Segmented.step, if_neg fun hloads => hloads.1 hring] at hstep
    cases hstep

theorem Segmented.reach_kernel {k : Kernel}
    (hreach : Relation.ReflTransGen (Segmented.KernelStep (initGDT tss) access layout)
      (Segmented.boot k) s) : s.processor.ring = 0 ∧ s.segments = gdtFlush := by
  induction hreach with
  | refl => exact ⟨rfl, rfl⟩
  | tail _ hstep ih =>
    obtain ⟨moment, hstep, hring⟩ := hstep
    exact ⟨hring, Segmented.step_kernel ih.1 ih.2 hstep hring⟩

/-- A pass that enters an outer ring leaves no data segments there. -/
theorem Segmented.after_outer (hsegments : s.segments = gdtFlush) {level : UInt16}
    (hlevel : level ≠ 0) (event : Interruption) (writes : Memory → Memory) :
    s.after (initGDT tss) level (.interrupt event writes) = ⟨0, 0, 0, 0⟩ := by
  rw [Segmented.after, hsegments, Segments.iretd, if_neg hlevel]
  simp only [gdtFlush, returned_kernelData tss hlevel]

end Registers

/-- Kernel data segments: in every run from `init_GDT` in which only ring-0 code is
resumed, the handler finds data segments of ring 0 whenever it is called; and the next
pass keeps what the handler and the programs need exactly if it too resumes ring-0 code. -/
theorem segments_usable {tss : UInt32} {access : Access} {layout : Layout} {k : Kernel}
    {s : Segmented}
    (hreach : Relation.ReflTransGen (Segmented.KernelStep (initGDT tss) access layout)
      (Segmented.boot k) s) :
    s.Usable (initGDT tss) 0 ∧
      ∀ moment s', s.step (initGDT tss) access layout moment = some s' →
        (s.Meets (initGDT tss) s' moment ↔ s'.processor.ring = 0) := by
  obtain ⟨hring, hsegments⟩ := Segmented.reach_kernel hreach
  have husable : s.Usable (initGDT tss) 0 := by
    rw [Segmented.Usable, hsegments]
    exact ⟨usable_kernelData tss, usable_kernelData tss⟩
  refine ⟨husable, fun moment s' hstep => ?_⟩
  cases moment with
  | event event =>
    obtain ⟨processor, hprocessor, rfl⟩ := Option.map_eq_some_iff.mp hstep
    by_cases hevent : ∃ interruption writes, event = .interrupt interruption writes
    · obtain ⟨interruption, writes, rfl⟩ := hevent
      refine ⟨fun hmeets => ?_, fun hzero => ⟨husable, fun houter => absurd hzero houter⟩⟩
      -- on the way out the processor clears segments that the outer ring may not use
      by_contra houter
      have hcleared := (hmeets.2 houter).1
      change usable _ _ (s.after _ processor.ring _).ds = true at hcleared
      rw [Segmented.after_outer hsegments houter, usable_null] at hcleared
      cases hcleared
    · rw [Processor.step_of_ne fun interruption writes heq => hevent ⟨interruption, writes, heq⟩]
        at hprocessor
      obtain ⟨k', -, rfl⟩ := Option.map_eq_some_iff.mp hprocessor
      refine iff_of_true ?_ hring
      cases event with
      | interrupt interruption writes => exact absurd ⟨_, _, rfl⟩ hevent
      | create | createUser | terminate | other => trivial
  | load register selector =>
    rw [Segmented.step, if_neg fun hloads => hloads.1 hring] at hstep
    cases hstep

/-- With no other process a tick goes back to the ring-0 code it has interrupted. -/
theorem Agrees.bootTick_returns {pool : Finset Nat} {k : Kernel} (h : Agrees sampleLayout pool k)
    (hr : k.running = some 0) (halone : ∀ j, (k.processes j).live = true → j = 0) :
    ∃ k', Processor.step direct sampleLayout ⟨k, 0⟩ (.interrupt bootTick id) = some ⟨k', 0⟩ := by
  have hpushed : ∀ n < 15, load32 (pushWords k.space.memory (bootTick.stack k) (bootTick.words k))
      (bootTick.frame k + UInt32.ofNat (4 * n)) = (bootTick.contents k).getD n 0 :=
    fun n hn => Interruption.load32_pushed hn
  obtain ⟨m, quantum, ticks, heq, -, -⟩ := isrCommonHandler_schedules sampleLayout
    (e := { k with space := { k.space with
      memory := pushWords k.space.memory (bootTick.stack k) (bootTick.words k) } })
    (.inl rfl) bootTick_fit hpushed
  have hbefore : Agrees sampleLayout pool { k with
      space := { k.space with memory := m }
      schedulerNextDirectory := 0
      quantumTicks := quantum
      ticks := ticks } := h.congr rfl rfl rfl rfl rfl rfl
  obtain ⟨k₁, next, hschedule⟩ := hbefore.owned.schedule_direct (bootTick.frame k)
  rw [hschedule] at heq
  -- there is no other process to go on, so the context is the one that was pushed
  obtain ⟨r, m', hr', -, hleft, ⟨rfl, -, -, -, hmemory⟩ | ⟨i, space, hir, hlive, -⟩⟩ :=
    h.handled (.inl rfl) bootTick_fit hpushed heq
  · have hselector : k₁.returnSelector direct (bootTick.frame k) = some 0x08 := by
      rw [Kernel.returnSelector_direct, Kernel.loadDirectory_memory, hmemory]
      have hcs := (bootTick.left_getD (k := k) (by decide)).trans bootTick.contents_cs
      exact congrArg some ((hleft 11 (by decide)).trans hcs)
    obtain ⟨k', hleave⟩ := k₁.leave_total (bootTick.frame k)
    have hentered : k.entered direct bootTick id = some { k with space := { k.space with
        memory := pushWords k.space.memory (bootTick.stack k) (bootTick.words k) } } :=
      Kernel.entered_direct _ _ _
    rw [Option.map_some] at heq
    have hpass : Processor.pass direct sampleLayout ⟨k, 0⟩ bootTick id =
        some ⟨k', Machine.ring (0x08 : UInt32).toUInt16⟩ :=
      Processor.pass_of_resume bootTick_ring hentered heq hselector hleave
    exact ⟨k', hpass⟩
  · obtain rfl : 0 = r := Option.some.inj (hr.symm.trans hr')
    exact absurd (halone i hlive) hir

/-- A tick comes back to the bootstrap process: the handler has its segments, in that pass and
in the next one. -/
theorem segments_usable_tick :
    ∃ (k : Kernel) (s : Segmented),
      (Segmented.boot k).step (initGDT 0x11B000) direct sampleLayout
        (.event (.interrupt bootTick id)) = some s ∧ s.processor.ring = 0 ∧
      (Segmented.boot k).Meets (initGDT 0x11B000) s (.event (.interrupt bootTick id)) ∧
      s.Usable (initGDT 0x11B000) 0 := by
  obtain ⟨pmm, k₀, hpmm, hinit, -, -⟩ := noMapBoot
  have hagrees := (faithful_start hpmm hinit fun _ => []).agrees
  obtain ⟨m, hk₀⟩ := schedulerInit_eq hinit
  have htable : k₀.processes = initialProcesses sampleLayout := by rw [hk₀]
  have hrunning : k₀.running = some 0 := by rw [hk₀]
  obtain ⟨k', hpass⟩ := hagrees.bootTick_returns hrunning fun j hlive => by
    by_contra hj
    rw [htable, initialProcesses_of_ne sampleLayout hj] at hlive
    cases hlive
  have htick : (Segmented.boot k₀).step (initGDT 0x11B000) direct sampleLayout
      (.event (.interrupt bootTick id)) = some ⟨⟨k', 0⟩, gdtFlush⟩ := by
    rw [Segmented.step, show (Segmented.boot k₀).processor.step direct sampleLayout _ = _ from hpass]
    rfl
  exact ⟨k₀, _, htick, rfl, ((segments_usable .refl).2 _ _ htick).mpr rfl,
    (segments_usable (.single ⟨_, htick, rfl⟩)).1⟩

theorem Segmented.boot_create {access : Access} {layout : Layout} (gdt : List Descriptor)
    {k : Kernel} {image imageSize : UInt32} {processor : Processor}
    (h : Processor.step access layout ⟨k, 0⟩ (.createUser image imageSize) = some processor) :
    (Segmented.boot k).step gdt access layout (.event (.createUser image imageSize)) =
      some ⟨processor, gdtFlush⟩ := by
  rw [Segmented.step, show (Segmented.boot k).processor.step access layout _ = _ from h]
  rfl

/-- The first tick after that resumes a user process, in ring 3 without data segments;
the handler of its next interrupt has none either. -/
theorem segments_cleared :
    ∃ (pmm : Pmm) (k₀ : Kernel) (s s' : Segmented),
      Pmm.pmmInit (fun _ _ => 0) sampleLayout.kernelEnd 0 0 = some pmm ∧
      schedulerInit direct sampleLayout (Kernel.boot sampleLayout (fun _ => 0) pmm 0) = some k₀ ∧
      (Segmented.boot k₀).step (initGDT 0x11B000) direct sampleLayout
        (.event (.createUser 0x101000 1)) = some s ∧
      s.step (initGDT 0x11B000) direct sampleLayout (.event (.interrupt bootTick id)) = some s' ∧
      s'.processor.ring = 3 ∧ ¬ s'.Usable (initGDT 0x11B000) 3 ∧ ¬ s'.Usable (initGDT 0x11B000) 0 ∧
      ¬ s.Meets (initGDT 0x11B000) s' (.event (.interrupt bootTick id)) := by
  obtain ⟨pmm, k₀, r, hpmm, hinit, hstep, hfits, hr, hframe, hlive, honly⟩ := noMapUser
  have hpool : AboveKernel sampleLayout pmm.free := aboveKernel_pmmInit hpmm
  have hfaithful := ((faithful_start hpmm hinit fun _ => []).step hpool hfits hstep).2
  have hring : Machine.ring bootTick.cpu.cs = r.processor.ring := (hfaithful.boot hr).symm
  obtain ⟨e, k₁, context, hentered, hhandler, hrunning, -⟩ :=
    hfaithful.agrees.bootTick_switches hr (by decide) hlive honly
  -- the context resumed is the initial frame of the process
  obtain ⟨i, hi, -, hwords⟩ := hfaithful.resumes hpool (bootTick_fits hr) hring hentered hhandler
    (by rw [hrunning, hr]; decide)
  obtain rfl : 1 = i := Option.some.inj (hrunning.symm.trans hi)
  have hselector : k₁.returnSelector direct context = some 0x1B := by
    rw [Kernel.returnSelector_direct, Kernel.loadDirectory_memory]
    exact congrArg some ((hwords 11 (by decide)).trans (by rw [hframe]; rfl))
  obtain ⟨k', hleave⟩ := k₁.leave_total context
  have hpass : r.processor.pass direct sampleLayout bootTick id = some ⟨k', 3⟩ :=
    Processor.pass_of_resume hring hentered hhandler hselector hleave
  obtain ⟨processor, hprocessor, rfl⟩ := Option.map_eq_some_iff.mp hstep
  have hcreate := Segmented.boot_create (initGDT 0x11B000) hprocessor
  have htick : (Segmented.mk processor gdtFlush).step (initGDT 0x11B000) direct sampleLayout
      (.event (.interrupt bootTick id)) = some ⟨⟨k', 3⟩, ⟨0, 0, 0, 0⟩⟩ := by
    rw [Segmented.step, show (Segmented.mk processor gdtFlush).processor.step direct sampleLayout
      (.interrupt bootTick id) = some ⟨k', 3⟩ from hpass, Option.map_some,
      Segmented.after_outer rfl (show (3 : UInt16) ≠ 0 by decide)]
  have hnull (level : UInt16) :
      ¬ (Segmented.mk ⟨k', 3⟩ ⟨0, 0, 0, 0⟩).Usable (initGDT 0x11B000) level := by
    rintro ⟨hds, -⟩
    rw [show (Segmented.mk ⟨k', 3⟩ ⟨0, 0, 0, 0⟩).segments.ds = 0 from rfl, usable_null] at hds
    cases hds
  exact ⟨pmm, k₀, _, _, hpmm, hinit, hcreate, htick, rfl, hnull 3, hnull 0,
    fun hmeets => hnull 3 (hmeets.2 (show (3 : UInt16) ≠ 0 by decide))⟩

end LevOS
