import LevOS.Process.Privilege
import LevOS.Process.TableRuns
import LevOS.Process.Start

/-!
# Frames of interruptions

Where addresses are physical ones, an interruption leaves its frame on the stack
of the running process, as a `struct cpu_context`. In ring 0 the processor pushes
no stack pointer, so the last two words of the structure are whatever lies above
the frame.

## Main definitions

* `Interruption.contents`, the words of the frame
* `Interruption.left`, the frame that a scheduling pass saves
* `returned`, memory after a return

## Main results

* `Interruption.load32_pushed`
* `isrCommonHandler_schedules`, `isrCommonHandler_exits`
* `Kernel.leave_memory`
-/

namespace LevOS

open Foundation Memory Cpu

/-! ## Contents -/

/-- The contents of the frame: the words pushed, and in ring 0 the two words above them. -/
def Interruption.contents (event : Interruption) (k : Kernel) : List UInt32 :=
  (event.words k).reverse ++
    if Machine.ring event.cpu.cs = 0 then
      [load32 k.space.memory (event.stack k), load32 k.space.memory (event.stack k + 4)]
    else []

/-- The frame that a scheduling pass saves: `SYS_YIELD` returns zero. -/
def Interruption.left (event : Interruption) (k : Kernel) : List UInt32 :=
  if event.vector = 0x80 then (event.contents k).set Field.eax.index 0 else event.contents k

section Contents

variable {k : Kernel} {event : Interruption} {writes : Memory → Memory} {a : UInt32} {m : Memory}

theorem Interruption.length_words :
    (event.words k).length = if Machine.ring event.cpu.cs = 0 then 13 else 15 := by
  by_cases hring : Machine.ring event.cpu.cs = 0
  · rw [Interruption.words, savedFrame_kernel hring, if_pos hring]
    rfl
  · rw [Interruption.words, savedFrame_user hring, if_neg hring]
    rfl

theorem Interruption.length_contents : (event.contents k).length = 15 := by
  rw [Interruption.contents, List.length_append, List.length_reverse, Interruption.length_words]
  split_ifs
  · rfl
  · rfl

theorem Interruption.frame_eq :
    event.frame k = event.stack k - UInt32.ofNat (4 * (event.words k).length) :=
  rfl

/-- The pushes change the frame only. -/
theorem Interruption.pushed_outside
    (hfit : (event.frame k).toNat + 4 * (event.words k).length ≤ 2 ^ 32)
    (ha : Outside a (event.frame k) (4 * (event.words k).length)) :
    pushWords m (event.stack k) (event.words k) a = m a := by
  have hlength : (event.words k).length ≤ 15 := savedFrame_length_le _ _ _ _
  apply pushWords_of_le (by omega)
  exact ha.le hfit

theorem Interruption.load32_pushed {n : Nat} (hn : n < 15) :
    load32 (pushWords k.space.memory (event.stack k) (event.words k))
        (event.frame k + UInt32.ofNat (4 * n)) = (event.contents k).getD n 0 := by
  have hlength := event.length_words (k := k)
  have hle : (event.words k).length ≤ 15 := savedFrame_length_le _ _ _ _
  by_cases hpushed : n < (event.words k).length
  · rw [Interruption.contents, List.getD_append _ _ _ _ (by simpa using hpushed)]
    exact load32_pushWords_bottom (by omega) hpushed
  · -- the words above the frame of an interruption in ring 0
    have hring : Machine.ring event.cpu.cs = 0 := by
      by_contra hring
      rw [if_neg hring] at hlength
      omega
    rw [if_pos hring] at hlength
    have habove : load32 (pushWords k.space.memory (event.stack k) (event.words k))
        (event.frame k + UInt32.ofNat (4 * n)) =
          load32 k.space.memory (event.frame k + UInt32.ofNat (4 * n)) := by
      apply load32_congr
      intro b hb
      apply pushWords_of_le (by omega)
      rw [← Interruption.frame_eq, UInt32.add_assoc, ← UInt32.ofNat_add, toNat_add_ofNat_sub,
        UInt32.sub_self, UInt32.toNat_zero]
      omega
    have hstack : event.frame k + UInt32.ofNat (4 * n) =
        event.stack k + UInt32.ofNat (4 * (n - 13)) := by
      rw [Interruption.frame_eq, hlength, show 4 * n = 4 * 13 + 4 * (n - 13) by omega,
        UInt32.ofNat_add, ← UInt32.add_assoc, UInt32.sub_add_cancel]
    rw [habove, hstack, Interruption.contents, List.getD_append_right _ _ _ _ (by simp; omega),
      List.length_reverse, hlength, if_pos hring]
    obtain rfl | rfl : n = 13 ∨ n = 14 := by omega
    · exact congrArg (load32 k.space.memory) (UInt32.add_zero _)
    · rfl

/-- The handler finds the frame as it was pushed. -/
theorem Interruption.load32_entered
    (hbelow : ∀ m a, writes m a ≠ m a → 60 ≤ (a - event.frame k).toNat) {n : Nat} (hn : n < 15) :
    load32 (writes (pushWords k.space.memory (event.stack k) (event.words k)))
        (event.frame k + UInt32.ofNat (4 * n)) = (event.contents k).getD n 0 := by
  rw [← Interruption.load32_pushed hn]
  apply load32_congr
  intro b hb
  by_contra hne
  have hfar := hbelow _ _ hne
  rw [UInt32.add_assoc, ← UInt32.ofNat_add, toNat_add_ofNat_sub, UInt32.sub_self,
    UInt32.toNat_zero] at hfar
  omega

theorem Interruption.contents_vector : (event.contents k).getD 8 0 = event.vector.toUInt32 := by
  by_cases hring : Machine.ring event.cpu.cs = 0
  · rw [Interruption.contents, Interruption.words, savedFrame_kernel hring]
    rfl
  · rw [Interruption.contents, Interruption.words, savedFrame_user hring]
    rfl

theorem Interruption.contents_eax : (event.contents k).getD 7 0 = event.cpu.regs .eax := by
  by_cases hring : Machine.ring event.cpu.cs = 0
  · rw [Interruption.contents, Interruption.words, savedFrame_kernel hring]
    rfl
  · rw [Interruption.contents, Interruption.words, savedFrame_user hring]
    rfl

theorem Interruption.contents_cs : (event.contents k).getD 11 0 = event.cpu.cs.toUInt32 := by
  by_cases hring : Machine.ring event.cpu.cs = 0
  · rw [Interruption.contents, Interruption.words, savedFrame_kernel hring]
    rfl
  · rw [Interruption.contents, Interruption.words, savedFrame_user hring]
    rfl

/-- The saved stack pointer of ring 0 is the place of the vector. -/
theorem Interruption.contents_esp (hring : Machine.ring event.cpu.cs = 0) :
    (event.contents k).getD 3 0 = event.frame k + 32 := by
  have hlength := event.length_words (k := k)
  rw [if_pos hring] at hlength
  rw [Interruption.frame_eq, hlength, Interruption.stack, Machine.entryStack, if_pos hring,
    Interruption.contents, Interruption.words, savedFrame_kernel hring]
  change event.cpu.regs .esp - 20 = event.cpu.regs .esp - 52 + 32
  grind

/-- The fields other than `eax` are saved as they were. -/
theorem Interruption.left_getD {n : Nat} (hn : n ≠ 7) :
    (event.left k).getD n 0 = (event.contents k).getD n 0 := by
  rw [Interruption.left]
  split_ifs
  · rw [List.getD_eq_getElem?_getD, List.getElem?_set_ne (by exact Ne.symm hn),
      ← List.getD_eq_getElem?_getD]
  · rfl

theorem ring_toUInt32 (selector : UInt16) :
    Machine.ring selector = 0 ↔ selector.toUInt32 &&& 3 = 0 := by
  rw [← ring_toUInt16, UInt16.toUInt16_toUInt32]

end Contents

/-! ## The words for the return -/

/-- Memory after `isr_common` has written the words for `iretd` again, above a saved stack
pointer. -/
def iretWords (m : Memory) (saved eip cs eflags : UInt32) : Memory :=
  store32 (store32 (store32 m (saved + 8) eip) (saved + 12) cs) (saved + 16) eflags

/-- Memory after a return to a context: the words are written for one of ring 0 only. -/
def returned (m : Memory) (context : UInt32) : Memory :=
  if load32 m (Field.cs.of context) &&& 3 ≠ 0 then m
  else iretWords m (load32 m (Field.esp.of context)) (load32 m (Field.eip.of context))
    (load32 m (Field.cs.of context)) (load32 m (Field.eflags.of context))

section Return

variable {m m' : Memory} {saved eip cs eflags a : UInt32}

theorem iretWords_of_le (h : 12 ≤ (a - (saved + 8)).toNat) :
    iretWords m saved eip cs eflags a = m a := by
  have ha := a.toNat_lt
  have hs := saved.toNat_lt
  rw [UInt32.toNat_sub, UInt32.toNat_add] at h
  rw [iretWords, store32_of_le, store32_of_le, store32_of_le]
  all_goals
    rw [UInt32.toNat_sub, UInt32.toNat_add]
    simp only [UInt32.reduceToNat] at *
    omega

/-- Each byte depends on the byte that was there. -/
theorem iretWords_congr (h : m a = m' a) :
    iretWords m saved eip cs eflags a = iretWords m' saved eip cs eflags a := by
  simp only [iretWords, store32, h]

end Return

/-! ## The handler -/

/-- Interruptions that call `schedule`: timer ticks and `SYS_YIELD`. -/
def Interruption.Schedules (event : Interruption) : Prop :=
  event.vector = 0x20 ∨ event.vector = 0x80 ∧ event.cpu.regs .eax = sysYield

/-- `SYS_EXIT`. -/
def Interruption.Exits (event : Interruption) : Prop :=
  event.vector = 0x80 ∧ event.cpu.regs .eax = sysExit

section Handler

variable {layout : Layout} {k e : Kernel} {event : Interruption} {writes : Memory → Memory}
  {regs : UInt32}

theorem Memory.Space.push_direct (s : Space) (top : UInt32) (words : List UInt32) :
    s.push direct top words = some { s with memory := pushWords s.memory top words } := by
  induction words generalizing s top with
  | nil => rfl
  | cons word words ih =>
    rw [Space.push]
    exact ih { s with memory := store32 s.memory (top - 4) word } (top - 4)

theorem Kernel.entered_direct (k : Kernel) (event : Interruption) (writes : Memory → Memory) :
    k.entered direct event writes = some { k with
      space := { k.space with
        memory := writes (pushWords k.space.memory (event.stack k) (event.words k)) } } := by
  rw [Kernel.entered, Space.push_direct]
  rfl

theorem Kernel.loadField_direct (k : Kernel) (context : UInt32) (field : Field) :
    k.loadField direct context field = some (load32 k.space.memory (field.of context)) :=
  rfl

theorem isrCommonHandler_tick (hvector : load32 e.space.memory (Field.vector.of regs) = 0x20) :
    e.isrCommonHandler direct layout regs =
      (Kernel.schedule direct layout { e with
        schedulerNextDirectory := 0
        ticks := e.ticks + 1
        quantumTicks := e.quantumTicks + 1 } regs).map fun result =>
          .resume result.1 result.2 := by
  simp only [Kernel.isrCommonHandler, Kernel.loadField_direct, Option.bind_eq_bind,
    Option.bind_some, hvector, if_true, Kernel.timerHandler, Kernel.schedulerTick]
  cases Kernel.schedule direct layout _ regs <;> rfl

theorem isrCommonHandler_keyboard
    (hvector : load32 e.space.memory (Field.vector.of regs) = 0x21) :
    e.isrCommonHandler direct layout regs =
      some (.resume { e with schedulerNextDirectory := 0 } regs) := by
  simp only [Kernel.isrCommonHandler, Kernel.loadField_direct, Option.bind_eq_bind,
    Option.bind_some, hvector]
  rfl

/-- What a system call finds in the frame decides what it does. -/
theorem isrCommonHandler_call (hvector : load32 e.space.memory (Field.vector.of regs) = 0x80) :
    e.isrCommonHandler direct layout regs =
      Kernel.syscallDispatch direct layout { e with schedulerNextDirectory := 0 } regs := by
  simp only [Kernel.isrCommonHandler, Kernel.loadField_direct, Option.bind_eq_bind,
    Option.bind_some, hvector]
  rfl

theorem isrCommonHandler_yield (hvector : load32 e.space.memory (Field.vector.of regs) = 0x80)
    (heax : load32 e.space.memory (Field.eax.of regs) = sysYield) :
    e.isrCommonHandler direct layout regs =
      (Kernel.schedule direct layout { e with
        schedulerNextDirectory := 0
        space := { e.space with memory := store32 e.space.memory (Field.eax.of regs) 0 } }
        regs).map fun result => .resume result.1 result.2 := by
  rw [isrCommonHandler_call hvector, Kernel.syscallDispatch, Kernel.loadField_direct]
  simp only [Option.bind_eq_bind, Option.bind_some, heax]
  change Option.bind (Kernel.schedule direct layout _ regs) _ = _
  cases Kernel.schedule direct layout _ regs <;> rfl

theorem isrCommonHandler_exit (hvector : load32 e.space.memory (Field.vector.of regs) = 0x80)
    (heax : load32 e.space.memory (Field.eax.of regs) = sysExit) :
    e.isrCommonHandler direct layout regs =
      some (.exit { e with schedulerNextDirectory := 0 }.processTerminateCurrent) := by
  rw [isrCommonHandler_call hvector, Kernel.syscallDispatch, Kernel.loadField_direct]
  simp only [Option.bind_eq_bind, Option.bind_some, heax]
  rfl

/-- A scheduling interruption calls `schedule` with the frame to be saved. -/
theorem isrCommonHandler_schedules (layout : Layout) (hschedules : event.Schedules)
    (hfit : (event.frame k).toNat + 52 ≤ 2 ^ 32)
    (hcontents : ∀ n < 15, load32 e.space.memory (event.frame k + UInt32.ofNat (4 * n)) =
      (event.contents k).getD n 0) :
    ∃ m quantum ticks,
      e.isrCommonHandler direct layout (event.frame k) =
        (Kernel.schedule direct layout { e with
          space := { e.space with memory := m }
          schedulerNextDirectory := 0
          quantumTicks := quantum
          ticks := ticks } (event.frame k)).map (fun result => .resume result.1 result.2) ∧
      (∀ a, Outside a (event.frame k) 52 → m a = e.space.memory a) ∧
      ∀ n < 15, load32 m (event.frame k + UInt32.ofNat (4 * n)) = (event.left k).getD n 0 := by
  have hvector := (hcontents 8 (by decide)).trans event.contents_vector
  have heax := (hcontents 7 (by decide)).trans event.contents_eax
  -- the timer leaves the frame alone, `SYS_YIELD` stores its result there
  rcases hschedules with htick | ⟨hcall, hyield⟩
  · rw [htick] at hvector
    refine ⟨e.space.memory, _, _, isrCommonHandler_tick hvector, fun _ _ => rfl, fun n hn => ?_⟩
    rw [hcontents n hn, Interruption.left, htick, if_neg (by decide)]
  · rw [hcall] at hvector
    rw [hyield] at heax
    refine ⟨_, _, _, isrCommonHandler_yield hvector heax, fun a ha => ?_, fun n hn => ?_⟩
    · have haddress : (Field.eax.of (event.frame k)).toNat = (event.frame k).toNat + 28 :=
        toNat_add_ofNat (n := 28) (by omega)
      apply store32_outside
      · unfold Outside at *
        omega
      · omega
    · -- `eax` is word 7 of the frame
      by_cases hn' : n = 7
      · subst hn'
        rw [Interruption.left, if_pos hcall, List.getD_eq_getElem?_getD]
        change load32 (store32 _ (Field.eax.of (event.frame k)) 0) (Field.eax.of (event.frame k)) =
          (((event.contents k).set 7 0)[7]?).getD 0
        rw [load32_store32_self, List.getElem?_set_self (by rw [event.length_contents]; decide)]
        rfl
      · rw [event.left_getD hn', ← hcontents n hn]
        apply load32_store32_of_apart
        · rw [Field.of, UInt32.toNat_sub, UInt32.toNat_add, UInt32.toNat_add, UInt32.toNat_ofNat',
            UInt32.toNat_ofNat', show Field.eax.index = 7 from rfl]
          omega
        · rw [Field.of, UInt32.toNat_sub, UInt32.toNat_add, UInt32.toNat_add, UInt32.toNat_ofNat',
            UInt32.toNat_ofNat', show Field.eax.index = 7 from rfl]
          omega

/-- `SYS_EXIT` marks the running process. -/
theorem isrCommonHandler_exits (layout : Layout) (hexits : event.Exits)
    (hcontents : ∀ n < 15, load32 e.space.memory (event.frame k + UInt32.ofNat (4 * n)) =
      (event.contents k).getD n 0) :
    e.isrCommonHandler direct layout (event.frame k) =
      some (.exit { e with schedulerNextDirectory := 0 }.processTerminateCurrent) := by
  have hvector := (hcontents 8 (by decide)).trans event.contents_vector
  have heax := (hcontents 7 (by decide)).trans event.contents_eax
  rw [hexits.1] at hvector
  rw [hexits.2] at heax
  exact isrCommonHandler_exit hvector heax

/-! ## The return path -/

theorem Kernel.returnSelector_direct (k : Kernel) (context : UInt32) :
    k.returnSelector direct context =
      some (load32 k.loadDirectory.space.memory (Field.cs.of context)) :=
  rfl

theorem Kernel.loadDirectory_memory (k : Kernel) :
    k.loadDirectory.space.memory = k.space.memory := by
  rw [Kernel.loadDirectory]
  split_ifs
  · rfl
  · rfl

theorem Kernel.loadDirectory_table (k : Kernel) :
    k.loadDirectory.processes = k.processes ∧ k.loadDirectory.running = k.running := by
  rw [Kernel.loadDirectory]
  split_ifs
  · exact ⟨rfl, rfl⟩
  · exact ⟨rfl, rfl⟩

/-- What the return path does to memory. -/
theorem Kernel.leave_memory {context : UInt32} {k' : Kernel}
    (hleave : k.leave direct context = some k') :
    k'.space.memory = returned k.space.memory context := by
  unfold Kernel.leave at hleave
  simp only [Kernel.loadField_direct, Option.bind_eq_bind, Option.bind_some,
    Kernel.loadDirectory_memory] at hleave
  unfold returned
  split_ifs at hleave ⊢ with hring
  · rw [← Option.some.inj hleave, Kernel.loadDirectory_memory]
  · obtain rfl := Option.some.inj hleave
    change store32 (store32 (store32 k.loadDirectory.space.memory _ _) _ _) _ _ = _
    rw [Kernel.loadDirectory_memory]
    rfl

/-- The return path changes memory for a context of ring 0 only: three words above its
saved stack pointer. -/
theorem Kernel.leave_direct {context : UInt32} {k' : Kernel}
    (hleave : k.leave direct context = some k')
    (hfit : load32 k.space.memory (Field.cs.of context) &&& 3 = 0 →
      (load32 k.space.memory (Field.esp.of context)).toNat + 20 ≤ 2 ^ 32) {a : UInt32}
    (ha : load32 k.space.memory (Field.cs.of context) &&& 3 = 0 →
      Outside a (load32 k.space.memory (Field.esp.of context) + 8) 12) :
    k'.space.memory a = k.space.memory a := by
  rw [Kernel.leave_memory hleave, returned]
  split_ifs with hring
  · rfl
  · have hring := not_not.mp hring
    have hfit := hfit hring
    have ha := ha hring
    set saved := load32 k.space.memory (Field.esp.of context)
    have h8 : (saved + 8).toNat = saved.toNat + 8 := toNat_add_ofNat (n := 8) (by omega)
    exact iretWords_of_le (ha.le (by omega))

theorem Kernel.leave_total (k : Kernel) (context : UInt32) :
    ∃ k', k.leave direct context = some k' := by
  unfold Kernel.leave
  simp only [Kernel.loadField_direct, Option.bind_eq_bind, Option.bind_some]
  split_ifs
  · exact ⟨_, rfl⟩
  · exact ⟨_, rfl⟩

theorem Kernel.leave_table {access : Access} {context : UInt32} {k' : Kernel}
    (hleave : k.leave access context = some k') :
    k'.processes = k.processes ∧ k'.running = k.running := by
  obtain ⟨m, rfl⟩ := Kernel.leave_eq hleave
  exact k.loadDirectory_table

theorem Kernel.terminate_frame (k : Kernel) :
    k.processTerminateCurrent.space = k.space ∧
      k.processTerminateCurrent.running = k.running ∧
      ∀ j, k.running ≠ some j → k.processTerminateCurrent.processes j = k.processes j := by
  unfold Kernel.processTerminateCurrent
  cases hr : k.running with
  | none => exact ⟨rfl, hr, fun _ _ => rfl⟩
  | some r =>
    simp only
    split_ifs
    · exact ⟨rfl, hr, fun _ _ => rfl⟩
    · exact ⟨rfl, hr, fun j hj => k.setState_of_ne (fun heq => hj (congrArg some heq.symm)) _⟩

end Handler

end LevOS
