import LevOS.Process.Agreement

/-!
# Privilege levels

At which privilege level the processor runs is written nowhere in the table: it
is what the frame says that `iretd` took last. A pass begins at the level of the
code it interrupts and ends at the level of the context it resumes;
`process_exit` stays in the handler, in ring 0.

## Main definitions

* `Processor`, `Processor.step`, the kernel with the privilege level

## Main results

* `Processor.step_kernel`, the kernel takes the steps of `Kernel.step`
* `Processor.pass_cases`, what a pass comes to
-/

namespace LevOS

open Foundation Memory Cpu

/-- The kernel, and the privilege level of the code that runs. -/
structure Processor where
  kernel : Kernel
  ring : UInt16

/-- The code selector in the context that the return path of `isr_common` resumes. -/
def Kernel.returnSelector (access : Access) (k : Kernel) (context : UInt32) : Option UInt32 :=
  k.loadDirectory.loadField access context .cs

section Passes

variable {access : Access} {layout : Layout} {k e k₁ k' : Kernel} {event : Interruption}
  {writes : Memory → Memory} {context : UInt32}

theorem Kernel.interrupt_of_resume (hentered : k.entered access event writes = some e)
    (hhandler : e.isrCommonHandler access layout (event.frame k) = some (.resume k₁ context))
    (hleave : k₁.leave access context = some k') :
    k.interrupt access layout event writes = some (.resume k' context) := by
  simp only [Kernel.interrupt, hentered, hhandler, hleave, Option.bind_eq_bind, Option.bind_some]
  rfl

theorem Kernel.interrupt_of_exit (hentered : k.entered access event writes = some e)
    (hhandler : e.isrCommonHandler access layout (event.frame k) = some (.exit k')) :
    k.interrupt access layout event writes = some (.exit k') := by
  simp only [Kernel.interrupt, hentered, hhandler, Option.bind_eq_bind, Option.bind_some]
  rfl

end Passes

namespace Processor

variable (access : Access) (layout : Layout) (s : Processor)

/-- A pass through `isr_common`. Interruptions are of the code that runs. -/
def pass (event : Interruption) (writes : Memory → Memory) : Option Processor :=
  if Machine.ring event.cpu.cs = s.ring then do
    let entered ← s.kernel.entered access event writes
    match ← entered.isrCommonHandler access layout (event.frame s.kernel) with
    | .resume k context =>
      let selector ← k.returnSelector access context
      let k ← k.leave access context
      return ⟨k, Machine.ring selector.toUInt16⟩
    | .exit k => return ⟨k, 0⟩
    | .halt => none
  else none

/-- The processor after an event. -/
def step : Event → Option Processor
  | .interrupt event writes => s.pass access layout event writes
  | event => (s.kernel.step access layout event).map fun k => ⟨k, s.ring⟩

variable {access layout s} {s' : Processor}

/-- What a pass comes to: a context is resumed at the level of its selector, or the
process goes on to its `int 0x20` in ring 0. -/
theorem pass_cases {event : Interruption} {writes : Memory → Memory}
    (h : s.pass access layout event writes = some s') :
    Machine.ring event.cpu.cs = s.ring ∧ ∃ entered,
      s.kernel.entered access event writes = some entered ∧
      ((∃ k context selector,
          entered.isrCommonHandler access layout (event.frame s.kernel) =
            some (.resume k context) ∧
          k.returnSelector access context = some selector ∧
          k.leave access context = some s'.kernel ∧
          s'.ring = Machine.ring selector.toUInt16) ∨
        (entered.isrCommonHandler access layout (event.frame s.kernel) = some (.exit s'.kernel) ∧
          s'.ring = 0)) := by
  unfold pass at h
  split_ifs at h with hring
  obtain ⟨entered, hentered, h⟩ := Option.bind_eq_some_iff.mp h
  obtain ⟨outcome, hhandler, h⟩ := Option.bind_eq_some_iff.mp h
  refine ⟨hring, entered, hentered, ?_⟩
  cases outcome with
  | resume k context =>
    obtain ⟨selector, hselector, h⟩ := Option.bind_eq_some_iff.mp h
    obtain ⟨k', hleave, h⟩ := Option.bind_eq_some_iff.mp h
    obtain rfl := Option.some.inj h
    exact .inl ⟨k, context, selector, hhandler, hselector, hleave, rfl⟩
  | exit k =>
    obtain rfl := Option.some.inj h
    exact .inr ⟨hhandler, rfl⟩
  | halt => cases h

theorem pass_of_resume {event : Interruption} {writes : Memory → Memory} {entered k k' : Kernel}
    {context selector : UInt32} (hring : Machine.ring event.cpu.cs = s.ring)
    (hentered : s.kernel.entered access event writes = some entered)
    (hhandler : entered.isrCommonHandler access layout (event.frame s.kernel) =
      some (.resume k context))
    (hselector : k.returnSelector access context = some selector)
    (hleave : k.leave access context = some k') :
    s.pass access layout event writes = some ⟨k', Machine.ring selector.toUInt16⟩ := by
  simp only [pass, hring, if_true, hentered, hhandler, hselector, hleave, Option.bind_eq_bind,
    Option.bind_some]
  rfl

/-- Other events leave the privilege level alone. -/
theorem step_of_ne {event : Event}
    (hevent : ∀ interruption writes, event ≠ .interrupt interruption writes) :
    s.step access layout event =
      (s.kernel.step access layout event).map fun k => ⟨k, s.ring⟩ := by
  cases event with
  | interrupt event writes => exact absurd rfl (hevent event writes)
  | create | createUser | terminate | other => rfl

/-- The kernel takes the step that it takes without a view of the privilege level. -/
theorem step_kernel {event : Event} (h : s.step access layout event = some s') :
    s.kernel.step access layout event = some s'.kernel := by
  by_cases hevent : ∃ interruption writes, event = .interrupt interruption writes
  · obtain ⟨interruption, writes, rfl⟩ := hevent
    obtain ⟨-, entered, hentered, hcases⟩ := pass_cases h
    rcases hcases with ⟨k, context, selector, hhandler, -, hleave, -⟩ | ⟨hhandler, -⟩
    · rw [Kernel.step, Kernel.interrupt_of_resume hentered hhandler hleave]
      rfl
    · rw [Kernel.step, Kernel.interrupt_of_exit hentered hhandler]
      rfl
  · rw [step_of_ne fun interruption writes heq => hevent ⟨interruption, writes, heq⟩] at h
    obtain ⟨k, hstep, rfl⟩ := Option.map_eq_some_iff.mp h
    exact hstep

end Processor

/-- The privilege level of a selector in memory is in its two low bits. -/
theorem ring_toUInt16 (selector : UInt32) :
    Machine.ring selector.toUInt16 = 0 ↔ selector &&& 3 = 0 := by
  have hlow (n : Nat) : n &&& 3 = n % 4 := Nat.and_two_pow_sub_one_eq_mod n 2
  rw [Machine.ring, ← UInt16.toNat_inj, ← UInt32.toNat_inj, UInt16.toNat_and, UInt32.toNat_and,
    UInt32.toNat_toUInt16]
  change _ &&& 3 = 0 ↔ _ &&& 3 = 0
  rw [hlow, hlow]
  omega

end LevOS
