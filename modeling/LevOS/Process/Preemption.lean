import LevOS.Process.Resume

/-!
# Preemption of kernel processes

The saved context of a process lies at the end of the stack page that the process runs on
in ring 0. A pass that switches a kernel process out copies its frame there, and the pass
that resumes it writes the words for `iretd` again above the stack pointer that was saved.
What the process has on its stack survives both passes under a condition on the frame and
on the contents of the stack.

## Main definitions

* `Interruption.Live`, the part of a stack page in use
* `Interruption.savedByte`, the context that the pass saves
* `Interruption.Spares`, the condition

## Main results

* `Agrees.preempted`, `Agrees.resumed`, what the two passes do to the stack page
* `preemption_intact`
-/

namespace LevOS

open Foundation Memory Cpu

/-! ## Interruptions of kernel processes -/

namespace Interruption

variable (event : Interruption) (k : Kernel) (r : Slot)

/-- The address is in use: it lies between the stack pointer of the interrupted process and
the end of its stack page. -/
def Live (a : UInt32) : Prop :=
  (event.cpu.regs .esp).toNat ≤ a.toNat ∧ a.toNat < (k.processes r).stackBase.toNat + 4096

/-- From one state to another, no byte in use changes. -/
def Intact (k₁ k₂ : Kernel) : Prop :=
  ∀ a, event.Live k r a → k₂.space.memory a = k₁.space.memory a

/-- Ring-0 code of a process is interrupted with its stack pointer in its stack page. The
handler uses the stack below the frame. -/
structure OnPage (writes : Memory → Memory) : Prop where
  ring : Machine.ring event.cpu.cs = 0
  low : (k.processes r).stackBase.toNat ≤ (event.cpu.regs .esp).toNat
  high : (event.cpu.regs .esp).toNat ≤ (k.processes r).stackBase.toNat + 4096
  below : ∀ m a, writes m a ≠ m a →
    a.toNat < (event.frame k).toNat ∧ 60 ≤ (a - event.frame k).toNat

/-- How far above the frame the saved context begins. -/
def shift : Nat := ((k.processes r).context - event.frame k).toNat

/-- A byte of the context saved: the copy goes upwards, from the frame to a place that may
begin inside of it. -/
def savedByte (j : Nat) : UInt8 :=
  let origin := copyOrigin (event.shift k r) j
  wordByte ((event.left k).getD (origin / 4) 0) (origin % 4)

/-- A field of the context saved. -/
def savedField (field : Field) : UInt32 :=
  load32 (fun a => event.savedByte k r a.toNat) (field.of 0)

/-- The stack survives: the context saved agrees with the bytes in use that it replaces.
Where the copy has reached the stack pointer in the frame before reading it, so do the
words for `iretd`. -/
structure Spares : Prop where
  saved : ∀ j < 60, event.Live k r ((k.processes r).context + UInt32.ofNat j) →
    k.space.memory ((k.processes r).context + UInt32.ofNat j) = event.savedByte k r j
  returned : 0 < event.shift k r → event.shift k r < 16 →
    event.savedField k r .cs &&& 3 = 0 → ∀ a, event.Live k r a →
      iretWords k.space.memory (event.savedField k r .esp) (event.savedField k r .eip)
        (event.savedField k r .cs) (event.savedField k r .eflags) a = k.space.memory a

/-- Ring-0 code is interrupted on the stack of the running process, which the handler uses
below the frame. -/
structure Lands (layout : Layout) (writes : Memory → Memory) : Prop where
  frame : Machine.ring event.cpu.cs = 0 → ∀ i, k.running = some i →
    ∀ a, (a - event.frame k).toNat < 52 → k.OnStack layout i a
  below : ∀ i, k.running = some i → ∀ m a, writes m a ≠ m a →
    k.OnStack layout i a ∧ 60 ≤ (a - event.frame k).toNat

end Interruption

namespace Kernel

variable (layout : Layout) (k : Kernel)

/-- Up to the return of the handler, a pass that takes the processor from the running
process. -/
def SwitchesOut (event : Interruption) (writes : Memory → Memory) (k₁ : Kernel)
    (context : UInt32) : Prop :=
  ∃ e, k.entered direct event writes = some e ∧
    e.isrCommonHandler direct layout (event.frame k) = some (.resume k₁ context) ∧
    k₁.running ≠ k.running

/-- One event, after which the process in a slot does not run. -/
def Waits (r : Slot) (k k' : Kernel) : Prop :=
  k.Step direct layout k' ∧ k'.running ≠ some r

end Kernel

/-! ## Entry -/

section Entry

variable {layout : Layout} {pool : Finset Nat} {k k₁ e : Kernel} {r : Slot} {event : Interruption}
  {writes : Memory → Memory} {next : UInt32}

/-- Only scheduling interruptions take the processor from the running process. -/
theorem Interruption.schedules_of_switched
    (hcontents : ∀ n < 15, load32 e.space.memory (event.frame k + UInt32.ofNat (4 * n)) =
      (event.contents k).getD n 0)
    (hhandler : e.isrCommonHandler direct layout (event.frame k) = some (.resume k₁ next))
    (hswitched : k₁.running ≠ e.running) : event.Schedules := by
  have hvector := (hcontents 8 (by decide)).trans event.contents_vector
  have heax := (hcontents 7 (by decide)).trans event.contents_eax
  rcases isrCommonHandler_cases hhandler with ⟨m, output, heq, -⟩ |
    ⟨m, quantum, ticks, k₂, next, -, -, hschedules⟩ | heq | heq
  · obtain ⟨rfl, -⟩ := Outcome.resume.inj heq
    exact absurd rfl hswitched
  · have hbyte {v : UInt8} (h : event.vector.toUInt32 = v.toUInt32) : event.vector = v :=
      UInt8.toUInt32_inj.mp h
    rcases hschedules with htick | ⟨hcall, hyield⟩
    · exact .inl (hbyte (hvector.symm.trans (Option.some.inj htick)))
    · exact .inr ⟨hbyte (hvector.symm.trans (Option.some.inj hcall)),
        heax.symm.trans (Option.some.inj hyield)⟩
  · cases heq
  · cases heq

/-- The frame of an interruption in ring 0 ends at the stack pointer. -/
theorem Interruption.OnPage.frame_toNat (hon : event.OnPage k r writes)
    (hbase : 4096 ≤ (k.processes r).stackBase.toNat) :
    (event.frame k).toNat + 52 = (event.cpu.regs .esp).toNat := by
  have hlow := hon.low
  have hlt := (event.cpu.regs .esp).toNat_lt
  rw [Interruption.frame_eq, Interruption.length_words, if_pos hon.ring, Interruption.stack,
    Machine.entryStack, if_pos hon.ring, UInt32.toNat_sub, UInt32.toNat_ofNat']
  omega

/-- The entry changes no byte in use. -/
theorem Interruption.OnPage.entered_live (hon : event.OnPage k r writes)
    (hbase : 4096 ≤ (k.processes r).stackBase.toNat) {a : UInt32} (ha : event.Live k r a) :
    writes (pushWords k.space.memory (event.stack k) (event.words k)) a = k.space.memory a := by
  have hframe := hon.frame_toNat hbase
  have hlt := (event.cpu.regs .esp).toNat_lt
  have hlength := event.length_words (k := k)
  rw [if_pos hon.ring] at hlength
  obtain ⟨hesp, -⟩ := ha
  have hwrites : writes (pushWords k.space.memory (event.stack k) (event.words k)) a =
      pushWords k.space.memory (event.stack k) (event.words k) a := by
    by_contra hne
    have hbelow := (hon.below _ _ hne).1
    omega
  rw [hwrites]
  apply Interruption.pushed_outside
  · omega
  · unfold Outside
    omega

/-- The frame of a process is not the saved context of another one, even where it reaches
below the stack page. -/
theorem Owned.frame_ne_context (h : Owned layout pool k) (hpool : AboveKernel layout pool)
    (hr : k.Occupied r) (hon : event.OnPage k r writes) {j : Slot} (hj : k.Used j) (hne : j ≠ r) :
    event.frame k ≠ (k.processes j).context := by
  have hbase := h.le_stackBase hr
  have hframe := hon.frame_toNat hbase
  have hlow := hon.low
  have hhigh := hon.high
  obtain ⟨haligned, habove⟩ := h.stackBase_spec hpool hr
  intro heq
  rw [heq] at hframe
  rcases hj with rfl | hj
  · have hcontext := h.context_zero_toNat
    have hmem := layout.bootstrapStack_mem
    omega
  · have hcontext := h.context_toNat hj
    obtain ⟨haligned', -⟩ := h.stackBase_spec hpool hj
    have hsame : (k.processes j).stackBase.toNat = (k.processes r).stackBase.toNat := by omega
    refine hne (h.onStack_unique hpool (.inr hj) (.inr hr)
      (a := (k.processes r).stackBase) ?_ ?_)
    · rw [Kernel.OnStack, if_neg hj.1]
      omega
    · rw [Kernel.OnStack, if_neg hr.1]
      omega

end Entry

/-! ## The pass that switches the process out -/

/-- The stack page after the pass that switches its process out. -/
structure Preempted (k k₁ : Kernel) (r : Slot) (event : Interruption) : Prop where
  running : k₁.running ≠ some r
  process : k₁.processes r = k.processes r
  kept : ∀ a, event.Live k r a → Outside a (k.processes r).context 60 →
    k₁.space.memory a = k.space.memory a
  saved : ∀ j < 60,
    k₁.space.memory ((k.processes r).context + UInt32.ofNat j) = event.savedByte k r j

section Preempting

variable {layout : Layout} {pool : Finset Nat} {k k₁ k' : Kernel} {r : Slot} {event : Interruption}
  {writes : Memory → Memory} {next : UInt32}

/-- Saving a context leaves a copy of it, which may repeat its start. -/
theorem Kernel.savedSpace_byte {context : UInt32} {space : Space}
    (hsave : k.savedSpace direct r context = some space) {j : Nat} (hj : j < 60) :
    space.memory ((k.processes r).context + UInt32.ofNat j) = k.space.memory
      (context + UInt32.ofNat (copyOrigin ((k.processes r).context - context).toNat j)) := by
  unfold Kernel.savedSpace at hsave
  split_ifs at hsave with hplace
  · -- the context is in its place already
    rw [← Option.some.inj hsave, hplace.2, UInt32.sub_self, UInt32.toNat_zero, copyOrigin_zero]
  · rw [Space.copy_direct] at hsave
    rw [← Option.some.inj hsave]
    exact copyWords_apply (n := 15) (by decide) hj

theorem Agrees.preempted (h : Agrees layout pool k) (hr : k.running = some r) (hr0 : r ≠ 0)
    (hon : event.OnPage k r writes) (hout : k.SwitchesOut layout event writes k₁ next) :
    Preempted k k₁ r event := by
  have hused := h.owned.used_running hr
  have hocc := hused.resolve_left hr0
  have hbase := h.owned.le_stackBase hocc
  have hframe := hon.frame_toNat hbase
  have hlt := (event.cpu.regs .esp).toNat_lt
  have hcontents (n : Nat) (hn : n < 15) :=
    Interruption.load32_entered (k := k) (fun m a hne => (hon.below m a hne).2) hn
  obtain ⟨e, hentered, hhandler, hswitched⟩ := hout
  rw [Kernel.entered_direct] at hentered
  obtain rfl := Option.some.inj hentered
  obtain ⟨r', m, hr', hsame, hleft, ⟨-, hstays, -⟩ |
      ⟨i, space, hir, -, -, hsave, hrunning, hmemory, -, hother⟩⟩ :=
    h.handled (Interruption.schedules_of_switched hcontents hhandler hswitched) (by omega) hcontents
      hhandler
  · exact absurd hstays hswitched
  · obtain rfl : r = r' := Option.some.inj (hr.symm.trans hr')
    rw [hrunning] at hswitched
    refine ⟨fun hrun => hir (Option.some.inj (hrunning.symm.trans hrun)), hother r hir.symm,
      fun a ha houtside => ?_, fun j hj => ?_⟩
    · -- the byte lies above the frame and apart from the saved context
      have habove : Outside a (event.frame k) 52 := by
        have hesp := ha.1
        unfold Outside
        omega
      rw [hmemory]
      calc space.memory a = m a :=
            Kernel.savedSpace_direct hsave (h.owned.context_fits hused) houtside
        _ = _ := hsame a habove
        _ = k.space.memory a := hon.entered_live hbase ha
    · rw [hmemory]
      have hcopy := Kernel.savedSpace_byte hsave hj
      set origin := copyOrigin ((k.processes r).context - event.frame k).toNat j
      have horigin : origin < 60 := lt_of_le_of_lt (copyOrigin_le _ _) hj
      have hbyte : m (event.frame k + UInt32.ofNat origin) =
          wordByte ((event.left k).getD (origin / 4) 0) (origin % 4) := by
        rw [← hleft _ (Nat.div_lt_of_lt_mul horigin),
          wordByte_load32 _ _ (Nat.mod_lt _ (by decide)), UInt32.add_assoc, ← UInt32.ofNat_add,
          Nat.div_add_mod]
      exact hcopy.trans hbyte

/-- The pass is completed by a return to another process. -/
theorem Agrees.switched_out (h : Agrees layout pool k) (hpool : AboveKernel layout pool)
    (hr : k.running = some r) (hr0 : r ≠ 0) (hon : event.OnPage k r writes)
    (hout : k.SwitchesOut layout event writes k₁ next) (hleave : k₁.leave direct next = some k') :
    Agrees layout pool k' := by
  have hused := h.owned.used_running hr
  obtain ⟨e, hentered, hhandler, -⟩ := hout
  obtain ⟨m, rfl⟩ := Kernel.entered_eq hentered
  refine ((h.setMemory m).pass (fun r' j hr' hj hne => ?_) hhandler hleave).1
  obtain rfl : r = r' := Option.some.inj (hr.symm.trans hr')
  exact h.owned.frame_ne_context hpool (hused.resolve_left hr0) hon hj hne

/-- The first of the two conditions is about this pass. -/
theorem Preempted.intact_iff (h : Preempted k k₁ r event) :
    event.Intact k r k k₁ ↔ ∀ j < 60, event.Live k r ((k.processes r).context + UInt32.ofNat j) →
      k.space.memory ((k.processes r).context + UInt32.ofNat j) = event.savedByte k r j := by
  constructor
  · intro hintact j hj hlive
    exact (hintact _ hlive).symm.trans (h.saved j hj)
  · intro hsaved a ha
    by_cases houtside : Outside a (k.processes r).context 60
    · exact h.kept a ha houtside
    · obtain ⟨j, hj, rfl⟩ : ∃ j < 60, a = (k.processes r).context + UInt32.ofNat j := by
        unfold Outside at houtside
        refine ⟨a.toNat - (k.processes r).context.toNat, by omega, ?_⟩
        apply UInt32.toNat_inj.mp
        have hlt := a.toNat_lt
        rw [toNat_add_ofNat (by omega)]
        omega
      exact (h.saved j hj).trans (hsaved j hj ha).symm

/-- The words of the context saved. -/
theorem Preempted.savedField (h : Preempted k k₁ r event) (field : Field) :
    load32 k₁.space.memory (field.of (k.processes r).context) = event.savedField k r field := by
  have hindex : field.index < 15 := field.index_lt
  apply load32_eq_of_bytes
  intro b hb
  have hsmall : (field.of 0 + UInt32.ofNat b).toNat = 4 * field.index + b := by
    rw [Field.of, UInt32.zero_add, ← UInt32.ofNat_add, UInt32.toNat_ofNat']
    omega
  rw [hsmall, Field.of, UInt32.add_assoc, ← UInt32.ofNat_add]
  exact h.saved _ (by omega)

end Preempting

/-! ## Waiting -/

section Waiting

variable {layout : Layout} {pool : Finset Nat} {k k' : Kernel} {r : Slot}

/-- An event leaves a process alone that waits for the processor before and after it. -/
theorem Agrees.step_waiting (h : Agrees layout pool k) (hlive : (k.processes r).live = true)
    (hbefore : k.running ≠ some r) (hstep : k.Waits layout r k') :
    k'.processes r = k.processes r := by
  obtain ⟨⟨event, -, hevent⟩, hafter⟩ := hstep
  cases event with
  | create entry argument =>
    obtain ⟨⟨k₁, result⟩, hcreate, rfl⟩ := Option.map_eq_some_iff.mp hevent
    exact (processCreate_creation h.owned.sound hcreate).process_eq hlive
  | createUser image imageSize =>
    obtain ⟨⟨k₁, result⟩, hcreate, rfl⟩ := Option.map_eq_some_iff.mp hevent
    exact (processCreateUser_creation h.owned.sound hcreate).process_eq hlive
  | terminate =>
    obtain rfl := Option.some.inj hevent
    exact k.terminate_frame.2.2 r hbefore
  | other memory =>
    obtain rfl := Option.some.inj hevent
    rfl
  | interrupt event writes =>
    rcases Kernel.step_interrupt hevent with ⟨m, k₁, context, hhandler, hleave⟩ | ⟨m, rfl⟩
    · obtain ⟨htable, hrunning⟩ := Kernel.leave_table hleave
      rw [htable]
      rw [hrunning] at hafter
      rcases isrCommonHandler_cases hhandler with ⟨m, output, heq, -⟩ |
        ⟨m, quantum, ticks, k₂, next, hschedule, heq, -⟩ | heq | heq
      · obtain ⟨rfl, -⟩ := Outcome.resume.inj heq
        rfl
      · obtain ⟨rfl, -⟩ := Outcome.resume.inj heq
        have hcounted : Agrees layout pool { k with
            space := { k.space with memory := m }, quantumTicks := quantum, ticks := ticks,
            schedulerNextDirectory := 0 } := h.congr rfl rfl rfl rfl rfl rfl
        obtain ⟨i, -, ⟨-, -, rfl, -⟩ | ⟨j, space, -, -, -, -, rfl⟩⟩ :=
          hcounted.owned.schedule_cases hschedule
        · rfl
        · -- the process chosen is the one that runs afterwards
          exact Kernel.dispatch_of_ne layout _ fun heq => hafter (congrArg some heq.symm)
      · cases heq
      · cases heq
    · exact (Kernel.terminate_frame _).2.2 r hbefore

/-- As long as a live process waits, its record stays. -/
theorem Agrees.waiting (h : Agrees layout pool k) (hpool : AboveKernel layout pool)
    (hlive : (k.processes r).live = true) (hidle : k.running ≠ some r)
    (hsteps : Relation.ReflTransGen (Kernel.Waits layout r) k k') :
    Agrees layout pool k' ∧ k'.processes r = k.processes r ∧ k'.running ≠ some r := by
  induction hsteps with
  | refl => exact ⟨h, rfl, hidle⟩
  | tail _ hstep ih =>
    obtain ⟨hagrees, hprocess, hwaits⟩ := ih
    exact ⟨hagrees.step hpool hstep.1,
      (hagrees.step_waiting (hprocess ▸ hlive) hwaits hstep).trans hprocess, hstep.2⟩

end Waiting

/-! ## The pass that resumes the process -/

/-- A return depends on the context and on the byte that was there. -/
theorem returned_congr {m m' : Memory} {context a : UInt32} (hfit : context.toNat + 60 ≤ 2 ^ 32)
    (h : ∀ b : UInt32, context.toNat ≤ b.toNat → b.toNat < context.toNat + 60 → m' b = m b)
    (ha : m' a = m a) : returned m' context a = returned m context a := by
  have hfield (field : Field) : load32 m' (field.of context) = load32 m (field.of context) :=
    load32_context_congr hfit h field.index_lt
  rw [returned, returned, hfield, hfield, hfield, hfield]
  split_ifs
  · exact ha
  · exact iretWords_congr ha

section Resuming

variable {layout : Layout} {pool : Finset Nat} {k k' : Kernel} {r : Slot} {event : Interruption}
  {writes : Memory → Memory} {context : UInt32}

theorem Owned.not_onStack_zero (h : Owned layout pool k) {i : Slot} (hi : k.Used i) :
    ¬ k.OnStack layout i 0 := by
  have hkernel := layout.kernelStack_mem
  have hboot := layout.bootstrapStack_mem
  unfold Kernel.OnStack
  rw [UInt32.toNat_zero]
  rcases hi with rfl | hi
  · rw [if_pos rfl]
    omega
  · have hbase := h.le_stackBase hi
    rw [if_neg hi.1]
    omega

/-- The stack that ring-0 code uses during an interruption is that of the running process. -/
theorem Agrees.entered_onStack (h : Agrees layout pool k)
    {i : Slot} (hi : k.running = some i) (hlands : event.Lands k layout writes) :
    (event.frame k).toNat + 52 ≤ 2 ^ 32 ∧
      ∀ a, ¬ k.OnStack layout i a → Outside a (event.frame k) 52 ∧
        writes (pushWords k.space.memory (event.stack k) (event.words k)) a =
          k.space.memory a := by
  have hused := h.owned.used_running hi
  have hlength := event.length_words (k := k)
  -- the frame lies on the stack of the running process
  have hspan : ∀ a, (a - event.frame k).toNat < 4 * (event.words k).length →
      k.OnStack layout i a := by
    intro a ha
    by_cases hring : Machine.ring event.cpu.cs = 0
    · rw [hlength, if_pos hring] at ha
      exact hlands.frame hring i hi a ha
    · rw [hlength, if_neg hring, h.frame_user hi hring] at ha
      have hfits := h.owned.context_fits hused
      have hlt := a.toNat_lt
      have hlt' := (k.processes i).context.toNat_lt
      rw [UInt32.toNat_sub] at ha
      apply h.owned.onStack_inContext hused
      unfold Kernel.InContext
      omega
  have hshort : 52 ≤ 4 * (event.words k).length := by
    rw [hlength]
    split_ifs
    · exact le_rfl
    · decide
  have hlong : (event.words k).length ≤ 15 := savedFrame_length_le _ _ _ _
  refine ⟨?_, fun a ha => ⟨?_, ?_⟩⟩
  · -- it does not reach around the end of memory
    by_contra hwraps
    refine h.owned.not_onStack_zero hused (hspan 0 ?_)
    have hlt := (event.frame k).toNat_lt
    rw [UInt32.toNat_sub, UInt32.toNat_zero]
    omega
  · have hfar := mt (hspan a) ha
    have hlt := (event.frame k).toNat_lt
    have hlt' := a.toNat_lt
    rw [UInt32.toNat_sub] at hfar
    unfold Outside
    omega
  · have hwrites : writes (pushWords k.space.memory (event.stack k) (event.words k)) a =
        pushWords k.space.memory (event.stack k) (event.words k) a := by
      by_contra hne
      exact ha (hlands.below i hi _ _ hne).1
    rw [hwrites]
    exact pushWords_of_le (by omega) (Nat.not_lt.mp (mt (hspan a) ha))

/-- A pass that resumes a process changes its stack page only by the words for `iretd`. -/
theorem Agrees.resumed (h : Agrees layout pool k) (hpool : AboveKernel layout pool)
    (hlive : (k.processes r).live = true) (hidle : k.running ≠ some r)
    (hlands : event.Lands k layout writes)
    (hpass : k.interrupt direct layout event writes = some (.resume k' context))
    (hresumes : k'.running = some r) {a : UInt32} (ha : k.OnStack layout r a) :
    k'.space.memory a = returned k.space.memory (k.processes r).context a := by
  obtain ⟨i, hi, hused⟩ := h.owned.current
  have hir : i ≠ r := fun heq => hidle (heq ▸ hi)
  have hr := Kernel.used_of_live hlive
  obtain ⟨hfit, houtside⟩ := h.entered_onStack hi hlands
  have hapart {b : UInt32} (hb : k.OnStack layout r b) : ¬ k.OnStack layout i b :=
    fun hib => hir (h.owned.onStack_unique hpool hused hr hib hb)
  obtain ⟨e, k₁, hentered, hhandler, hleave⟩ := Kernel.interrupt_resume hpass
  rw [(Kernel.leave_table hleave).2] at hresumes
  rw [Kernel.leave_memory hleave]
  have hcontents (n : Nat) (hn : n < 15) :=
    Interruption.load32_entered (k := k) (fun m a hne => (hlands.below i hi m a hne).2) hn
  rw [Kernel.entered_direct] at hentered
  obtain rfl := Option.some.inj hentered
  obtain ⟨i', m, hi', hsame, -, ⟨-, hstays, -⟩ |
      ⟨j, space, -, -, hnext, hsave, hrunning, hmem, -⟩⟩ :=
    h.handled (Interruption.schedules_of_switched hcontents hhandler (hresumes ▸ Ne.symm hidle))
      hfit hcontents hhandler
  · exact absurd (hstays.symm.trans hresumes) hidle
  · obtain rfl : i = i' := Option.some.inj (hi.symm.trans hi')
    obtain rfl : j = r := Option.some.inj (hrunning.symm.trans hresumes)
    rw [hnext, hmem]
    -- what the pass has done so far is on the stack of the other process
    have hmemory {b : UInt32} (hb : k.OnStack layout j b) : space.memory b = k.space.memory b := by
      have hb' := hapart hb
      obtain ⟨hframe, hwritten⟩ := houtside b hb'
      have hcontext : Outside b (k.processes i).context 60 := by
        by_contra hinside
        refine hb' (h.owned.onStack_inContext hused ?_)
        unfold Outside at hinside
        unfold Kernel.InContext
        omega
      calc space.memory b = m b :=
            Kernel.savedSpace_direct hsave (h.owned.context_fits hused) hcontext
        _ = _ := hsame b hframe
        _ = k.space.memory b := hwritten
    exact returned_congr (h.owned.context_fits hr)
      (fun b hb hb' => hmemory (h.owned.onStack_inContext hr ⟨hb, hb'⟩)) (hmemory ha)

end Resuming

/-! ## Both passes -/

section Both

variable {layout : Layout} {pool : Finset Nat} {k k₁ k₂ k₃ : Kernel} {r : Slot}
  {event : Interruption} {writes : Memory → Memory}

/-- Unless the copy reaches it, the stack pointer is saved as it was pushed. -/
theorem Interruption.savedField_esp (hring : Machine.ring event.cpu.cs = 0)
    (hshift : event.shift k r = 0 ∨ 16 ≤ event.shift k r) :
    event.savedField k r .esp = event.frame k + 32 := by
  apply load32_of_wordByte
  intro b hb
  have hindex : (Field.esp.of 0 + UInt32.ofNat b).toNat = 12 + b := by
    rw [Field.of, UInt32.zero_add, ← UInt32.ofNat_add, UInt32.toNat_ofNat',
      show Field.esp.index = 3 from rfl]
    omega
  have horigin : copyOrigin (event.shift k r) (12 + b) = 12 + b := by
    rcases hshift with hzero | hlarge
    · rw [hzero, copyOrigin_zero]
    · exact copyOrigin_of_lt (by omega)
  rw [hindex, Interruption.savedByte, horigin, show (12 + b) / 4 = 3 by omega,
    show (12 + b) % 4 = b by omega, event.left_getD (by decide), event.contents_esp hring]

/-- The words written for a return to that stack pointer are not in use. -/
theorem Interruption.OnPage.iretWords_live (hon : event.OnPage k r writes)
    (hbase : 4096 ≤ (k.processes r).stackBase.toNat)
    (hshift : event.shift k r = 0 ∨ 16 ≤ event.shift k r) (m : Memory) (eip cs eflags : UInt32)
    {a : UInt32} (ha : event.Live k r a) :
    iretWords m (event.savedField k r .esp) eip cs eflags a = m a := by
  have hframe := hon.frame_toNat hbase
  have hesp := ha.1
  have hlt := a.toNat_lt
  apply iretWords_of_le
  rw [Interruption.savedField_esp hon.ring hshift, UInt32.toNat_sub, UInt32.toNat_add,
    UInt32.toNat_add]
  simp only [UInt32.reduceToNat]
  omega

theorem Interruption.OnPage.onStack_live (hon : event.OnPage k r writes) (hr : r ≠ 0) {a : UInt32}
    (ha : event.Live k r a) : k.OnStack layout r a := by
  rw [Kernel.OnStack, if_neg hr]
  exact ⟨hon.low.trans ha.1, ha.2⟩

/-- The second of the two conditions is about the return. -/
theorem Preempted.resumed_iff (h : Preempted k k₁ r event) (howned : Owned layout pool k)
    (hr : k.Occupied r) (hon : event.OnPage k r writes) (hintact : event.Intact k r k k₁)
    (hpage : ∀ a, k.OnStack layout r a → k₂.space.memory a = k₁.space.memory a)
    (hresumed : ∀ a, event.Live k r a →
      k₃.space.memory a = returned k₂.space.memory (k.processes r).context a) :
    event.Intact k r k₂ k₃ ↔ (0 < event.shift k r → event.shift k r < 16 →
      event.savedField k r .cs &&& 3 = 0 → ∀ a, event.Live k r a →
        iretWords k.space.memory (event.savedField k r .esp) (event.savedField k r .eip)
          (event.savedField k r .cs) (event.savedField k r .eflags) a = k.space.memory a) := by
  have hfield (field : Field) : load32 k₂.space.memory (field.of (k.processes r).context) =
      event.savedField k r field := by
    rw [← h.savedField field]
    exact load32_context_congr (howned.context_fits (.inr hr))
      (fun a hlow hhigh => hpage a (howned.onStack_inContext (.inr hr) ⟨hlow, hhigh⟩))
      field.index_lt
  have hsame {a : UInt32} (ha : event.Live k r a) : k₂.space.memory a = k.space.memory a :=
    (hpage a (hon.onStack_live hr.1 ha)).trans (hintact a ha)
  -- only a return to ring 0 writes anything, namely the words for `iretd`
  have hreturn {a : UInt32} (ha : event.Live k r a) : k₃.space.memory a =
      if event.savedField k r .cs &&& 3 ≠ 0 then k.space.memory a
      else iretWords k.space.memory (event.savedField k r .esp) (event.savedField k r .eip)
        (event.savedField k r .cs) (event.savedField k r .eflags) a := by
    rw [hresumed a ha, returned, hfield, hfield, hfield, hfield]
    split_ifs
    · exact hsame ha
    · exact iretWords_congr (hsame ha)
  constructor
  · intro hsecond _ _ hring a ha
    rw [← hsame ha, ← hsecond a ha, hreturn ha, if_neg (not_not.mpr hring)]
  · intro hcondition a ha
    rw [hreturn ha, hsame ha]
    split_ifs with hring
    · rfl
    · by_cases hshift : 0 < event.shift k r ∧ event.shift k r < 16
      · exact hcondition hshift.1 hshift.2 (not_not.mp hring) a ha
      · exact hon.iretWords_live (howned.le_stackBase hr) (by omega) _ _ _ _ ha

/-- A frame pushed in the place of the saved context is not copied: the words above it,
which are in use, stay as they are. -/
theorem Interruption.OnPage.spares (hon : event.OnPage k r writes) (howned : Owned layout pool k)
    (hr : k.Occupied r) (hplace : event.frame k = (k.processes r).context) :
    event.Spares k r := by
  have hshift : event.shift k r = 0 := by
    rw [Interruption.shift, hplace, UInt32.sub_self, UInt32.toNat_zero]
  refine ⟨fun j hj hlive => ?_, fun hpositive => absurd hshift hpositive.ne'⟩
  have hframe := hon.frame_toNat (howned.le_stackBase hr)
  have hfits := howned.context_fits (.inr hr)
  have hesp := hlive.1
  have hlength := event.length_words (k := k)
  rw [if_pos hon.ring] at hlength
  rw [← hplace] at hesp hfits ⊢
  rw [toNat_add_ofNat (by omega)] at hesp
  have habove : pushWords k.space.memory (event.stack k) (event.words k)
      (event.frame k + UInt32.ofNat j) = k.space.memory (event.frame k + UInt32.ofNat j) := by
    apply pushWords_of_le (by omega)
    rw [← Interruption.frame_eq, toNat_add_ofNat_sub, UInt32.sub_self, UInt32.toNat_zero]
    omega
  rw [← habove, Interruption.savedByte, hshift, copyOrigin_zero, event.left_getD (by omega),
    ← Interruption.load32_pushed (by omega), wordByte_load32 _ _ (Nat.mod_lt _ (by decide)),
    UInt32.add_assoc, ← UInt32.ofNat_add, Nat.div_add_mod]

end Both

/-- Preemption of a kernel process, interrupted at any stack pointer in its stack page and
switched out: the pass changes nothing in use if and only if the context saved agrees with
what it replaces. When the process is resumed later and its stack page has been left alone
meanwhile, both passes change nothing in use if and only if the whole condition holds. The
stack page is reached at its physical address. -/
theorem preemption_intact {layout : Layout} {bytes : Pmm → Memory} {info : UInt32} {fuel : Nat}
    {pmm : Pmm} {memory : Memory} {esp0 : UInt32} {k₀ k k₁ : Kernel} {r : Slot}
    {event : Interruption} {writes : Memory → Memory} {next : UInt32}
    (hpmm : Pmm.pmmInit bytes layout.kernelEnd info fuel = some pmm)
    (hinit : schedulerInit direct layout (Kernel.boot layout memory pmm esp0) = some k₀)
    (hreach : Relation.ReflTransGen (Kernel.Step direct layout) k₀ k)
    (hr : k.running = some r) (hr0 : r ≠ 0) (hon : event.OnPage k r writes)
    (hout : k.SwitchesOut layout event writes k₁ next) :
    (event.Intact k r k k₁ ↔
        ∀ j < 60, event.Live k r ((k.processes r).context + UInt32.ofNat j) →
          k.space.memory ((k.processes r).context + UInt32.ofNat j) = event.savedByte k r j) ∧
      ∀ (k' k₂ k₃ : Kernel) (event' : Interruption) (writes' : Memory → Memory) (context : UInt32),
        (k.processes r).live = true → k₁.leave direct next = some k' →
        Relation.ReflTransGen (Kernel.Waits layout r) k' k₂ →
        (∀ a, k.OnStack layout r a → k₂.space.memory a = k₁.space.memory a) →
        event'.Lands k₂ layout writes' →
        k₂.interrupt direct layout event' writes' = some (.resume k₃ context) →
        k₃.running = some r →
        ((event.Intact k r k k₁ ∧ event.Intact k r k₂ k₃) ↔ event.Spares k r) := by
  have hpool : AboveKernel layout pmm.free := aboveKernel_pmmInit hpmm
  have hagrees := (schedulerInit_agrees (Pmm.pmmInit_sound hpmm) hinit).reach hpool hreach
  have hused := hagrees.owned.used_running hr
  have hocc := hused.resolve_left hr0
  have hpreempted := hagrees.preempted hr hr0 hon hout
  refine ⟨hpreempted.intact_iff, ?_⟩
  intro k' k₂ k₃ event' writes' context hlive hleave hsteps hpage hlands hpass hresumes
  obtain ⟨htable, hrunning⟩ := Kernel.leave_table hleave
  have hprocess' : k'.processes r = k.processes r := by rw [htable, hpreempted.process]
  -- the process waits until the second pass
  obtain ⟨hagrees₂, hprocess, hidle⟩ := (hagrees.switched_out hpool hr hr0 hon hout hleave).waiting
    hpool (hprocess' ▸ hlive) (hrunning ▸ hpreempted.running) hsteps
  rw [hprocess'] at hprocess
  have hresumed (a : UInt32) (ha : event.Live k r a) :
      k₃.space.memory a = returned k₂.space.memory (k.processes r).context a := by
    rw [← hprocess]
    refine hagrees₂.resumed hpool (hprocess ▸ hlive) hidle hlands hpass hresumes ?_
    rw [Kernel.OnStack, if_neg hr0, hprocess]
    exact ⟨hon.low.trans ha.1, ha.2⟩
  have hsecond := fun hintact =>
    hpreempted.resumed_iff hagrees.owned hocc hon hintact hpage hresumed
  constructor
  · rintro ⟨hfirst, hthen⟩
    exact ⟨hpreempted.intact_iff.mp hfirst, (hsecond hfirst).mp hthen⟩
  · intro hspares
    have hfirst := hpreempted.intact_iff.mpr hspares.saved
    exact ⟨hfirst, (hsecond hfirst).mpr hspares.returned⟩

/-! ## A first kernel process -/

/-- A timer tick in ring 0, with a stack pointer and a value in `eax`. -/
def tickAt (esp eax : UInt32) : Interruption where
  cpu := {
    regs := Function.update (Function.update (fun _ => 0) .esp esp) .eax eax
    eip := 0x101000
    cs := 0x08
    ss := 0x10
    eflags := 0x202
    cr3 := 0x110000
    memory := fun _ => 0 }
  vector := 0x20
  error := 0

section Tick

variable {pool : Finset Nat} {k : Kernel} {r : Slot} {esp : UInt32}

theorem tickAt_onPage (eax : UInt32) (hlow : (k.processes r).stackBase.toNat ≤ esp.toNat)
    (hhigh : esp.toNat ≤ (k.processes r).stackBase.toNat + 4096) :
    (tickAt esp eax).OnPage k r id where
  ring := show Machine.ring 0x08 = 0 by decide
  low := hlow
  high := hhigh
  below := fun _ _ hne => absurd rfl hne

/-- A kernel process is created after a boot without a memory map, and a tick gives it the
processor. -/
theorem noMapDispatched :
    ∃ (pmm : Pmm) (k₀ k : Kernel),
      Pmm.pmmInit (fun _ _ => 0) sampleLayout.kernelEnd 0 0 = some pmm ∧
      schedulerInit direct sampleLayout (Kernel.boot sampleLayout (fun _ => 0) pmm 0) = some k₀ ∧
      Relation.ReflTransGen (Kernel.Step direct sampleLayout) k₀ k ∧
      Agrees sampleLayout pmm.free k ∧ k.running = some 1 ∧ (k.processes 1).live = true ∧
      ∀ j ≠ 1, (k.processes j).live = true → j = 0 := by
  obtain ⟨pmm, k₀, k₁, hpmm, hinit, -, hstep, hagrees, hr, hlive, honly⟩ := noMapFirst
  obtain ⟨k, context, hpass, hrunning, hself, hother⟩ :=
    hagrees.bootTick_pass hr (by decide) hlive honly
  have hstep₁ : k₁.Step direct sampleLayout k :=
    ⟨.interrupt bootTick id, bootTick_proper hr, by rw [Kernel.step, hpass]; rfl⟩
  refine ⟨pmm, k₀, k, hpmm, hinit, .tail (.single hstep) hstep₁,
    hagrees.step (aboveKernel_pmmInit hpmm) hstep₁, hrunning, ?_, fun j hj hjlive => ?_⟩
  · rw [hself]
    rfl
  · by_contra hne
    exact hj (honly j hne (hother j hj ▸ hjlive))

theorem tickAt_switches (eax : UInt32) (h : Agrees sampleLayout pool k) (hr : k.running = some 1)
    (hlive : (k.processes 1).live = true) (honly : ∀ j ≠ 1, (k.processes j).live = true → j = 0)
    (hlow : (k.processes 1).stackBase.toNat ≤ esp.toNat)
    (hhigh : esp.toNat ≤ (k.processes 1).stackBase.toNat + 4096) :
    ∃ k₁ next, k.SwitchesOut sampleLayout (tickAt esp eax) id k₁ next ∧ k₁.running = some 0 ∧
      ∀ j ≠ 0, k₁.processes j = k.processes j := by
  have hocc := Kernel.occupied_of_live (show (1 : Slot) ≠ 0 by decide) hlive
  have hframe := (tickAt_onPage eax hlow hhigh).frame_toNat (h.owned.le_stackBase hocc)
  have hlt := ((tickAt esp eax).cpu.regs .esp).toNat_lt
  obtain ⟨e, k₁, next, hentered, hhandler, hrunning, -, hother⟩ :=
    h.tick_switches (show (tickAt esp eax).vector = 0x20 from rfl) (by omega) hr (by decide)
      h.owned.live_zero honly hlive
  refine ⟨k₁, next, ⟨e, hentered, hhandler, ?_⟩, hrunning, hother⟩
  rw [hrunning, hr]
  decide

end Tick

/-- A tick arrives when the frame lands in the place of the saved context, and another one
resumes the process: what the process has on its stack is intact. -/
theorem preemption_intact_shallow :
    ∃ (pmm : Pmm) (k₀ k k₁ k₂ k₃ : Kernel) (event : Interruption) (context : UInt32),
      schedulerInit direct sampleLayout (Kernel.boot sampleLayout (fun _ => 0) pmm 0) = some k₀ ∧
      Relation.ReflTransGen (Kernel.Step direct sampleLayout) k₀ k ∧
      k.running = some 1 ∧ (∃ a, event.Live k 1 a) ∧
      (∃ next, k.SwitchesOut sampleLayout event id k₁ next) ∧
      k₂.interrupt direct sampleLayout bootTick id = some (.resume k₃ context) ∧
      k₃.running = some 1 ∧ event.Intact k 1 k k₁ ∧ event.Intact k 1 k₂ k₃ := by
  obtain ⟨pmm, k₀, k, hpmm, hinit, hreach, hagrees, hr, hlive, honly⟩ := noMapDispatched
  have hpool : AboveKernel sampleLayout pmm.free := aboveKernel_pmmInit hpmm
  have h1 : (1 : Slot) ≠ 0 := by decide
  have hocc := Kernel.occupied_of_live h1 hlive
  have hcontext := hagrees.owned.context_toNat hocc
  have hfits := hagrees.owned.context_fits (.inr hocc)
  have hbase := hagrees.owned.le_stackBase hocc
  -- the frame of 52 bytes takes the place of the saved context
  have hesp : ((k.processes 1).context + 52).toNat = (k.processes 1).context.toNat + 52 :=
    toNat_add_ofNat (n := 52) (by omega)
  have hon : (tickAt ((k.processes 1).context + 52) 0).OnPage k 1 id :=
    tickAt_onPage 0 (by omega) (by omega)
  have hplace : (tickAt ((k.processes 1).context + 52) 0).frame k = (k.processes 1).context := by
    have hframe := hon.frame_toNat hbase
    change _ = ((k.processes 1).context + 52).toNat at hframe
    apply UInt32.toNat_inj.mp
    omega
  obtain ⟨k₁, next, hout, hrunning, hother⟩ := tickAt_switches 0 hagrees hr hlive honly hon.low
    hon.high
  obtain ⟨k', hleave⟩ := k₁.leave_total next
  obtain ⟨htable, hrunning'⟩ := Kernel.leave_table hleave
  have hagrees' := hagrees.switched_out hpool hr h1 hon hout hleave
  -- whatever runs next leaves memory as the handler has left it
  set k₂ : Kernel := { k' with space := { k'.space with memory := k₁.space.memory } }
  have hagrees₂ : Agrees sampleLayout pmm.free k₂ := hagrees'.setMemory _
  have hr₂ : k₂.running = some 0 := hrunning'.trans hrunning
  have hprocesses₂ (j : Slot) (hj : j ≠ 0) : k₂.processes j = k.processes j :=
    (congrFun htable j).trans (hother j hj)
  have hwaits : k'.Waits sampleLayout 1 k₂ := by
    refine ⟨⟨.other k₁.space.memory, trivial, rfl⟩, ?_⟩
    rw [hr₂]
    decide
  obtain ⟨k₃, context, hpass, hresumes, -⟩ := hagrees₂.bootTick_pass hr₂ h1
    (hprocesses₂ 1 h1 ▸ hlive) fun j hj hjlive => by
      by_contra hne
      exact hj (honly j hne (hprocesses₂ j hj ▸ hjlive))
  have hlands : bootTick.Lands k₂ sampleLayout id := by
    refine ⟨fun _ i hi a ha => ?_, fun _ _ _ _ hne => absurd rfl hne⟩
    obtain rfl : 0 = i := Option.some.inj (hr₂.symm.trans hi)
    have hlt := a.toNat_lt
    rw [bootTick_frame, UInt32.toNat_sub] at ha
    rw [Kernel.OnStack, if_pos rfl, show sampleLayout.kernelStack.toNat = 0x116000 by decide]
    simp only [UInt32.reduceToNat] at ha
    omega
  have hspares := hon.spares hagrees.owned hocc hplace
  obtain ⟨hfirst, hsecond⟩ := ((preemption_intact hpmm hinit hreach hr h1 hon hout).2 k' k₂ k₃
    bootTick id context hlive hleave (.single hwaits) (fun _ _ => rfl) hlands hpass hresumes).mpr
    hspares
  exact ⟨pmm, k₀, k, k₁, k₂, k₃, _, context, hinit, hreach, hr,
    ⟨(k.processes 1).context + 52, le_rfl, by omega⟩, ⟨next, hout⟩, hpass, hresumes, hfirst,
    hsecond⟩

/-- A tick arrives deeper in the stack: the value in `eax` replaces a byte in use. -/
theorem preemption_overwrites :
    ∃ (pmm : Pmm) (k₀ k k₁ : Kernel) (event : Interruption) (next a : UInt32),
      Pmm.pmmInit (fun _ _ => 0) sampleLayout.kernelEnd 0 0 = some pmm ∧
      schedulerInit direct sampleLayout (Kernel.boot sampleLayout (fun _ => 0) pmm 0) = some k₀ ∧
      Relation.ReflTransGen (Kernel.Step direct sampleLayout) k₀ k ∧
      k.running = some 1 ∧ event.OnPage k 1 id ∧
      k.SwitchesOut sampleLayout event id k₁ next ∧
      event.Live k 1 a ∧ k₁.space.memory a ≠ k.space.memory a := by
  obtain ⟨pmm, k₀, k, hpmm, hinit, hreach, hagrees, hr, hlive, honly⟩ := noMapDispatched
  have h1 : (1 : Slot) ≠ 0 := by decide
  have hocc := Kernel.occupied_of_live h1 hlive
  have hcontext := hagrees.owned.context_toNat hocc
  have hfits := hagrees.owned.context_fits (.inr hocc)
  have hbase := hagrees.owned.le_stackBase hocc
  have hesp : ((k.processes 1).context - 40).toNat = (k.processes 1).context.toNat - 40 := by
    rw [UInt32.toNat_sub]
    simp only [UInt32.reduceToNat]
    omega
  -- the process has 100 bytes on its stack; `eax` is saved 28 bytes into the context
  have haddress : ((k.processes 1).context + UInt32.ofNat 28).toNat =
      (k.processes 1).context.toNat + 28 := toNat_add_ofNat (by omega)
  set byte := k.space.memory ((k.processes 1).context + UInt32.ofNat 28)
  set event := tickAt ((k.processes 1).context - 40) (byte + 1).toUInt32
  have hon : event.OnPage k 1 id := tickAt_onPage _ (by omega) (by omega)
  obtain ⟨k₁, next, hout, -⟩ := tickAt_switches _ hagrees hr hlive honly hon.low hon.high
  have hframe := hon.frame_toNat hbase
  change _ = ((k.processes 1).context - 40).toNat at hframe
  have hshift : 28 < event.shift k 1 := by
    have hlt := (k.processes 1).context.toNat_lt
    rw [Interruption.shift, UInt32.toNat_sub]
    omega
  have hsaved := (hagrees.preempted hr h1 hon hout).saved 28 (by decide)
  rw [Interruption.savedByte, copyOrigin_of_lt hshift] at hsaved
  refine ⟨pmm, k₀, k, k₁, event, next, (k.processes 1).context + UInt32.ofNat 28, hpmm, hinit,
    hreach, hr, hon, hout, ⟨?_, ?_⟩, ?_⟩
  · change ((k.processes 1).context - 40).toNat ≤ _
    omega
  · omega
  · have heax : (event.left k).getD 7 0 = (byte + 1).toUInt32 := by
      rw [Interruption.left, if_neg (show ¬ event.vector = 0x80 by rintro ⟨⟩)]
      exact event.contents_eax
    rw [hsaved]
    change wordByte ((event.left k).getD 7 0) 0 ≠ byte
    rw [heax]
    intro heq
    have hbyte := congrArg UInt8.toNat heq
    rw [wordByte, UInt8.toNat_ofNat', UInt8.toNat_toUInt32, UInt8.toNat_add] at hbyte
    simp only [UInt8.reduceToNat] at hbyte
    omega

end LevOS
