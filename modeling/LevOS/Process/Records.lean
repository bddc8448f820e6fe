import LevOS.Process.Passes
import LevOS.Process.Conservation

/-!
# Frames left behind

A process that loses the processor leaves a frame behind. For a user process the frame
stays where the interrupt pushed it, at the top of its stack page; the frame of the
bootstrap process is copied from the boot stack to a buffer. Runs are of the bootstrap
process and user processes, with timer ticks, `SYS_YIELD` and `SYS_EXIT`; addresses are
physical ones.

## Main definitions

* `Recorded`, `Recorded.step`, a run with a record of the frames left behind
* `Event.Fits`, the events of such runs
* `Faithful`, the invariant

## Main results

* `Faithful.entered`, `Faithful.saved`, where an interruption leaves its frame
* `Faithful.createUser`
-/

namespace LevOS

open Foundation Memory Cpu

/-! ## Runs -/

/-- The frame that `process_create_user` writes. -/
def initialFrame : List UInt32 :=
  [0, 0, 0, 0, 0, 0, 0, 0, 0, 0, 0x00400000, 0x1B, 0x202, 0x007FFFF0, 0x23]

/-- The processor, and for each slot the frame that its process has left behind. -/
structure Recorded where
  processor : Processor
  frames : Slot → List UInt32

/-- The record after an event: a new process has its initial frame, and a process that
loses the processor leaves the frame of its interruption. -/
def Event.record (k k' : Kernel) (frames : Slot → List UInt32) (i : Slot) : Event → List UInt32
  | .createUser _ _ =>
    if k'.nextPid ≠ k.nextPid ∧ k.vacantSlot = some i then initialFrame else frames i
  | .interrupt event _ =>
    if k.running = some i ∧ k'.running ≠ some i then event.left k else frames i
  | .create _ _ | .terminate | .other _ => frames i

/-- One event. -/
def Recorded.step (layout : Layout) (s : Recorded) (event : Event) : Option Recorded :=
  (s.processor.step direct layout event).map fun processor =>
    ⟨processor, fun i => event.record s.processor.kernel processor.kernel s.frames i⟩

/-- The `n` bytes from an address on lie where ring-0 code of a process runs: on the boot
stack, or on a stack page below the frame of a system call. -/
def Kernel.StackHolds (layout : Layout) (k : Kernel) (r : Slot) (a : UInt32) (n : Nat) : Prop :=
  if r = 0 then
    layout.kernelStack.toNat ≤ a.toNat ∧ a.toNat + n ≤ layout.kernelStack.toNat + 16384
  else
    (k.processes r).stackBase.toNat ≤ a.toNat ∧ a.toNat + n ≤ (k.processes r).context.toNat

/-- The interruptions of a run: timer ticks, `SYS_YIELD` and `SYS_EXIT`. In ring 0 the
frame is pushed on the current stack; the handler uses the stack below it. -/
structure Interruption.Fits (layout : Layout) (k : Kernel) (event : Interruption)
    (writes : Memory → Memory) : Prop where
  kind : event.Schedules ∨ event.Exits
  stack : Machine.ring event.cpu.cs = 0 →
    ∀ r, k.running = some r → k.StackHolds layout r (event.frame k) 52
  below : ∀ r, k.running = some r → ∀ m a, writes m a ≠ m a →
    k.OnStack layout r a ∧ a.toNat < (event.frame k).toNat

/-- The address lies in the kernel's own directory. -/
def Memory.Layout.InDirectory (layout : Layout) (a : UInt32) : Prop :=
  layout.pageDirectory.toNat ≤ a.toNat ∧ a.toNat < layout.pageDirectory.toNat + 4096

/-- The events of a run. What the programs do leaves the kernel's directory alone, and
the stacks of the processes that wait for the processor. -/
def Event.Fits (layout : Layout) (k : Kernel) : Event → Prop
  | .createUser _ _ => ∀ r, k.running = some r → (k.processes r).state ≠ .zombie
  | .other memory => ∀ a, (layout.InDirectory a ∨ ∃ j, (k.processes j).live = true ∧
      k.running ≠ some j ∧ k.OnStack layout j a) → memory a = k.space.memory a
  | .interrupt event writes => event.Fits layout k writes
  | .create _ _ | .terminate => False

/-- One event of a run. -/
def Recorded.Step (layout : Layout) (s s' : Recorded) : Prop :=
  ∃ event : Event, event.Fits layout s.processor.kernel ∧ s.step layout event = some s'

/-! ## Saved contexts -/

/-- The address lies in the saved context of a slot. -/
def Kernel.InContext (k : Kernel) (i : Slot) (a : UInt32) : Prop :=
  (k.processes i).context.toNat ≤ a.toNat ∧ a.toNat < (k.processes i).context.toNat + 60

section Contexts

variable {layout : Layout} {pool : Finset Nat} {k k' : Kernel} {i j r : Slot} {a : UInt32}

/-- Words of a saved context depend on its bytes only. -/
theorem load32_context_congr {m m' : Memory} {context : UInt32} (hfit : context.toNat + 60 ≤ 2 ^ 32)
    (h : ∀ a : UInt32, context.toNat ≤ a.toNat → a.toNat < context.toNat + 60 → m' a = m a)
    {n : Nat} (hn : n < 15) :
    load32 m' (context + UInt32.ofNat (4 * n)) = load32 m (context + UInt32.ofNat (4 * n)) := by
  apply load32_congr
  intro b hb
  have haddress : (context + UInt32.ofNat (4 * n) + UInt32.ofNat b).toNat =
      context.toNat + (4 * n + b) := by
    rw [UInt32.add_assoc, ← UInt32.ofNat_add]
    exact toNat_add_ofNat (by omega)
  exact h _ (by omega) (by omega)

/-- The saved context of the bootstrap process lies in its buffer. -/
theorem Owned.inContext_zero (h : Owned layout pool k) (ha : k.InContext 0 a) :
    layout.bootstrapStack.toNat + 4036 ≤ a.toNat ∧
      a.toNat < layout.bootstrapStack.toNat + 4096 := by
  have hcontext := h.context_zero_toNat
  unfold Kernel.InContext at ha
  omega

theorem Owned.onStack_inContext (h : Owned layout pool k) (hi : k.Used i)
    (ha : k.InContext i a) : k.OnStack layout i a := by
  unfold Kernel.OnStack
  rcases hi with rfl | hocc
  · have := h.inContext_zero ha
    rw [if_pos rfl]
    omega
  · have hcontext := h.context_toNat hocc
    unfold Kernel.InContext at ha
    rw [if_neg hocc.1]
    omega

/-- No process runs on the kernel's directory. -/
theorem Owned.not_onStack_directory (h : Owned layout pool k)
    (hpool : AboveKernel layout pool) (hi : k.Used i)
    (ha : layout.InDirectory a) : ¬ k.OnStack layout i a := by
  have hdmem := layout.pageDirectory_mem
  have hboot := layout.directory_bootstrap
  have hkernel := layout.directory_kernel
  unfold Memory.Layout.InDirectory at ha
  unfold Kernel.OnStack
  rcases hi with rfl | hocc
  · rw [if_pos rfl]
    omega
  · obtain ⟨-, habove⟩ := h.stackBase_spec hpool hocc
    rw [if_neg hocc.1]
    omega

end Contexts

/-! ## The invariant -/

/-- A frame to resume from: of ring 0 on the boot stack for the bootstrap process, and of
ring 3 for a user process. -/
def Returns (layout : Layout) (i : Slot) (frame : List UInt32) : Prop :=
  if i = 0 then
    frame.getD 11 0 &&& 3 = 0 ∧ layout.kernelStack.toNat ≤ (frame.getD 3 0).toNat ∧
      (frame.getD 3 0).toNat + 20 ≤ layout.kernelStack.toNat + 16384
  else frame.getD 11 0 &&& 3 ≠ 0

/-- Every process that waits for the processor finds its frame in its saved context. -/
structure Faithful (layout : Layout) (pool : Finset Nat) (s : Recorded) : Prop where
  agrees : Agrees layout pool s.processor.kernel
  rooted : s.processor.kernel.Rooted layout
  boot : s.processor.kernel.running = some 0 → s.processor.ring = 0
  user : ∀ r ≠ 0, s.processor.kernel.running = some r →
    (s.processor.kernel.processes r).live = true → s.processor.ring ≠ 0
  kept : ∀ i, (s.processor.kernel.processes i).live = true →
    s.processor.kernel.running ≠ some i → ∀ n < 15,
      load32 s.processor.kernel.space.memory
        ((s.processor.kernel.processes i).context + UInt32.ofNat (4 * n)) = (s.frames i).getD n 0
  returns : ∀ i, (s.processor.kernel.processes i).live = true →
    s.processor.kernel.running ≠ some i → Returns layout i (s.frames i)

/-- Memory when the handler is called: the frame is on the stack of the running process,
and nothing else has changed. -/
structure Entered (layout : Layout) (k : Kernel) (event : Interruption) (r : Slot) (m : Memory) :
    Prop where
  fit : (event.frame k).toNat + 60 ≤ 2 ^ 32
  span : ∀ a, ¬ k.OnStack layout r a → Outside a (event.frame k) 52
  outside : ∀ a, ¬ k.OnStack layout r a → m a = k.space.memory a
  contents : ∀ n < 15,
    load32 m (event.frame k + UInt32.ofNat (4 * n)) = (event.contents k).getD n 0

/-- Not all words of the frame need be pushed ones. -/
theorem Entered.fit_pushed {layout : Layout} {k : Kernel} {event : Interruption} {r : Slot}
    {m : Memory} (h : Entered layout k event r m) : (event.frame k).toNat + 52 ≤ 2 ^ 32 :=
  le_trans (Nat.add_le_add_left (by decide) _) h.fit

section Passes

variable {layout : Layout} {pool : Finset Nat} {s : Recorded} {event : Interruption}
  {writes : Memory → Memory} {r : Slot}

/-- Where the frame of an interruption lies. -/
theorem Faithful.frame_place (h : Faithful layout pool s)
    (hr : s.processor.kernel.running = some r)
    (hfits : event.Fits layout s.processor.kernel writes)
    (hring : Machine.ring event.cpu.cs = s.processor.ring) :
    (Machine.ring event.cpu.cs = 0 ∧
        s.processor.kernel.StackHolds layout r (event.frame s.processor.kernel) 52) ∨
      (Machine.ring event.cpu.cs ≠ 0 ∧ r ≠ 0 ∧
        event.frame s.processor.kernel = (s.processor.kernel.processes r).context) := by
  by_cases hzero : Machine.ring event.cpu.cs = 0
  · exact .inl ⟨hzero, hfits.stack hzero r hr⟩
  · refine .inr ⟨hzero, ?_, h.agrees.frame_user hr hzero⟩
    rintro rfl
    exact hzero (hring.trans (h.boot hr))

theorem Faithful.entered (h : Faithful layout pool s)
    (hr : s.processor.kernel.running = some r)
    (hfits : event.Fits layout s.processor.kernel writes)
    (hring : Machine.ring event.cpu.cs = s.processor.ring) :
    Entered layout s.processor.kernel event r
      (writes (pushWords s.processor.kernel.space.memory (event.stack s.processor.kernel)
        (event.words s.processor.kernel))) := by
  have hplace := h.frame_place hr hfits hring
  have howned := h.agrees.owned
  set k := s.processor.kernel
  have hused := howned.used_running hr
  have hcfits := howned.context_fits hused
  have hlength := event.length_words (k := k)
  have hkmem := layout.kernelStack_mem
  have himage := layout.image_le
  -- the words pushed are on the stack of the running process
  have hspan : (event.frame k).toNat + 60 ≤ 2 ^ 32 ∧ ∀ a, ¬ k.OnStack layout r a →
      Outside a (event.frame k) (4 * (event.words k).length) := by
    rcases hplace with ⟨hzero, hholds⟩ | ⟨hzero, -, hcontext⟩
    · rw [if_pos hzero] at hlength
      rw [hlength]
      unfold Kernel.StackHolds at hholds
      unfold Kernel.OnStack Outside
      rcases hused with rfl | hocc
      · rw [if_pos rfl] at hholds
        refine ⟨by omega, fun a ha => ?_⟩
        rw [if_pos rfl] at ha
        omega
      · have htop := howned.context_toNat hocc
        rw [if_neg hocc.1] at hholds
        refine ⟨by omega, fun a ha => ?_⟩
        rw [if_neg hocc.1] at ha
        omega
    · rw [if_neg hzero] at hlength
      rw [hlength, hcontext]
      refine ⟨hcfits, fun a ha => ?_⟩
      by_contra hinside
      refine ha (howned.onStack_inContext hused ?_)
      unfold Outside at hinside
      unfold Kernel.InContext
      omega
  obtain ⟨hfit, houtside⟩ := hspan
  have hle : 52 ≤ 4 * (event.words k).length := by
    rw [hlength]
    split_ifs
    · exact le_rfl
    · decide
  have hwords : (event.words k).length ≤ 15 := savedFrame_length_le _ _ _ _
  refine ⟨hfit, fun a ha => (houtside a ha).mono hle, fun a ha => ?_, fun n hn => ?_⟩
  · have hwrites := hfits.below r hr (pushWords k.space.memory (event.stack k) (event.words k)) a
    have hsame := not_imp_comm.mp hwrites fun hstack => ha hstack.1
    exact hsame.trans (Interruption.pushed_outside (by omega) (houtside a ha))
  · refine Interruption.load32_entered (fun m a hne => ?_) hn
    have hbelow := (hfits.below r hr m a hne).2
    have hlt := (event.frame k).toNat_lt
    rw [UInt32.toNat_sub]
    omega

/-- After a pass has saved the running process, its frame is in its saved context. -/
theorem Faithful.saved (h : Faithful layout pool s)
    (hr : s.processor.kernel.running = some r)
    (hfits : event.Fits layout s.processor.kernel writes)
    (hring : Machine.ring event.cpu.cs = s.processor.ring) {p : Kernel} {space : Space}
    (hsave : p.savedSpace direct r (event.frame s.processor.kernel) = some space)
    (htable : p.processes = s.processor.kernel.processes)
    (houtside : ∀ a, ¬ s.processor.kernel.OnStack layout r a →
      p.space.memory a = s.processor.kernel.space.memory a)
    (hleft : ∀ n < 15,
      load32 p.space.memory (event.frame s.processor.kernel + UInt32.ofNat (4 * n)) =
        (event.left s.processor.kernel).getD n 0) :
    (∀ a, ¬ s.processor.kernel.OnStack layout r a →
        space.memory a = s.processor.kernel.space.memory a) ∧
      ((s.processor.kernel.processes r).live = true → ∀ n < 15,
        load32 space.memory ((s.processor.kernel.processes r).context + UInt32.ofNat (4 * n)) =
          (event.left s.processor.kernel).getD n 0) := by
  have hplace := h.frame_place hr hfits hring
  have howned := h.agrees.owned
  have huser := h.user r
  set k := s.processor.kernel
  have hused := howned.used_running hr
  have hcfits := howned.context_fits hused
  refine ⟨fun a ha => ?_, fun hlive n hn => ?_⟩
  · rw [← houtside a ha]
    refine Kernel.savedSpace_direct hsave (htable ▸ hcfits) ?_
    rw [htable]
    by_contra hinside
    refine ha (howned.onStack_inContext hused ?_)
    unfold Outside at hinside
    unfold Kernel.InContext
    omega
  · rcases hplace with ⟨hzero, hholds⟩ | ⟨hzero, hrzero, hcontext⟩
    · -- in ring 0 only the bootstrap process is alive; its frame is copied
      obtain rfl : r = 0 := by
        by_contra hrzero
        exact huser hrzero hr hlive (hring.symm.trans hzero)
      have hcontext := howned.context_zero_toNat
      have hkmem := layout.kernelStack_mem
      have hbmem := layout.bootstrapStack_mem
      have himage := layout.image_le
      have hapart := layout.bootstrap_kernel
      rw [Kernel.StackHolds, if_pos rfl] at hholds
      rw [Kernel.savedSpace, if_neg (fun hne => hne.1 rfl), Space.copy_direct, htable] at hsave
      rw [← Option.some.inj hsave, ← hleft n hn]
      exact load32_copyWords (n := 15) (by omega) (by omega) (by omega) hn
    · rw [Kernel.savedSpace, if_pos ⟨hrzero, by rw [htable, hcontext]⟩] at hsave
      rw [← Option.some.inj hsave, ← hleft n hn, hcontext]

end Passes

/-! ## Steps -/

/-- A step keeps the kernel's directory and the saved contexts of the processes that
wait for the processor. -/
def Kernel.Keeps (layout : Layout) (k k' : Kernel) : Prop :=
  ∀ a, (layout.InDirectory a ∨
      ∃ j, (k.processes j).live = true ∧ k.running ≠ some j ∧ k.InContext j a) →
    k'.space.memory a = k.space.memory a

section Steps

variable {layout : Layout} {pool : Finset Nat} {s s' : Recorded} {r : Slot}

theorem Kernel.Keeps.words {k k' : Kernel} (h : k.Keeps layout k') (howned : Owned layout pool k)
    {j : Slot} (hlive : (k.processes j).live = true) (hwaits : k.running ≠ some j) {n : Nat}
    (hn : n < 15) :
    load32 k'.space.memory ((k.processes j).context + UInt32.ofNat (4 * n)) =
      load32 k.space.memory ((k.processes j).context + UInt32.ofNat (4 * n)) :=
  load32_context_congr (howned.context_fits (Kernel.used_of_live hlive))
    (fun a hlow hhigh => h a (.inr ⟨j, hlive, hwaits, hlow, hhigh⟩)) hn

/-- Every process that waits after a step waited before, or has just been recorded. -/
theorem Faithful.advance (h : Faithful layout pool s) {k' : Kernel} {ring : UInt16}
    {frames : Slot → List UInt32} (hagrees : Agrees layout pool k')
    (hkeeps : s.processor.kernel.Keeps layout k') (hboot : k'.running = some 0 → ring = 0)
    (huser : ∀ r ≠ 0, k'.running = some r → (k'.processes r).live = true → ring ≠ 0)
    (hwaits : ∀ j, (k'.processes j).live = true → k'.running ≠ some j →
      ((s.processor.kernel.processes j).live = true ∧ s.processor.kernel.running ≠ some j ∧
          (k'.processes j).context = (s.processor.kernel.processes j).context ∧
          frames j = s.frames j) ∨
        ((∀ n < 15, load32 k'.space.memory ((k'.processes j).context + UInt32.ofNat (4 * n)) =
          (frames j).getD n 0) ∧ Returns layout j (frames j))) :
    Faithful layout pool ⟨⟨k', ring⟩, frames⟩ := by
  refine ⟨hagrees, ?_, hboot, huser, fun j hlive hidle n hn => ?_, fun j hlive hidle => ?_⟩
  · exact h.rooted.frame fun a hlow hhigh => hkeeps a (.inl ⟨hlow, hhigh⟩)
  · rcases hwaits j hlive hidle with ⟨hlive', hidle', hcontext, hframe⟩ | ⟨hkept, -⟩
    · change load32 k'.space.memory ((k'.processes j).context + _) = (frames j).getD n 0
      rw [hcontext, hframe, hkeeps.words h.agrees.owned hlive' hidle' hn]
      exact h.kept j hlive' hidle' n hn
    · exact hkept n hn
  · rcases hwaits j hlive hidle with ⟨hlive', hidle', -, hframe⟩ | ⟨-, hreturns⟩
    · change Returns layout j (frames j)
      rw [hframe]
      exact h.returns j hlive' hidle'
    · exact hreturns

/-- Memory that changes on the stack of the running process only. -/
theorem Faithful.keeps_of_stack (h : Faithful layout pool s)
    (hpool : AboveKernel layout pool)
    (hr : s.processor.kernel.running = some r) {k' : Kernel}
    (hmemory : ∀ a, ¬ s.processor.kernel.OnStack layout r a →
      k'.space.memory a = s.processor.kernel.space.memory a) :
    s.processor.kernel.Keeps layout k' := by
  have hused := h.agrees.owned.used_running hr
  rintro a (ha | ⟨j, hlive, hwaits, ha⟩)
  · exact hmemory a (h.agrees.owned.not_onStack_directory hpool hused ha)
  · refine hmemory a fun hstack => hwaits ?_
    have hj := Kernel.used_of_live hlive
    rw [h.agrees.owned.onStack_unique hpool hj hused (h.agrees.owned.onStack_inContext hj ha) hstack]
    exact hr

/-- A page that was free is not on the stack of a process. -/
theorem Owned.outside_free {k : Kernel} (h : Owned layout pool k)
    (hpool : AboveKernel layout pool) {j : Slot} (hj : k.Used j)
    {a page : UInt32} (ha : k.InContext j a) (haligned : page.toNat % 4096 = 0)
    (hfree : page.toNat / 4096 ∈ k.space.pmm.free) : Outside a page 4096 := by
  have habove := hpool _ (h.free_subset hfree)
  unfold Outside
  rcases hj with rfl | hocc
  · have hinside := h.inContext_zero ha
    have hmem := layout.bootstrapStack_mem
    omega
  · obtain ⟨-, hsaligned, -, hused⟩ := (h.created j hocc).page _ List.mem_cons_self
    have hne : page.toNat / 4096 ≠ (k.processes j).stackBase.toNat / 4096 :=
      fun heq => hused (heq ▸ hfree)
    have hcontext := h.context_toNat hocc
    unfold Kernel.InContext at ha
    omega

theorem Owned.keeps_createUser {k : Kernel} (h : Owned layout pool k)
    (hpool : AboveKernel layout pool) {m : Memory} {k' : Kernel}
    (hmemory : k'.space.memory = m)
    (hpages : NewPages layout k.space.pmm.allocatePage.1 k.space.pmm.allocatePage.2.allocatePage.1
      k.space.pmm.allocatePage.2.allocatePage.2.allocatePage.1
      k.space.pmm.allocatePage.2.allocatePage.2.allocatePage.2.allocatePage.1)
    (hstarted : UserStarted layout k.space.memory m k.space.pmm.allocatePage.1
      k.space.pmm.allocatePage.2.allocatePage.1
      k.space.pmm.allocatePage.2.allocatePage.2.allocatePage.1
      k.space.pmm.allocatePage.2.allocatePage.2.allocatePage.2.allocatePage.1) :
    k.Keeps layout k' := by
  have hdmem := layout.pageDirectory_mem
  have htmem := layout.identityTables_mem
  have htable : (tableAddress layout 1).toNat = layout.identityTables.toNat + 4096 * 1 :=
    tableAddress_toNat (by decide)
  obtain ⟨hsabove, hcabove, huabove, hdabove⟩ := hpages.above
  obtain ⟨-, -, hpage⟩ := (hpages.taken h.sound).spec
  simp only [List.mem_cons, List.not_mem_nil, or_false, forall_eq_or_imp, forall_eq] at hpage
  obtain ⟨⟨-, hsaligned, hsfree, -⟩, ⟨-, hcaligned, hcfree, -⟩, -, ⟨-, hdaligned, hdfree, -⟩⟩ := hpage
  intro a ha
  rw [hmemory]
  -- the kernel's directory and tables first, then the contexts of live processes
  rcases ha with ha | ⟨j, hlive, -, ha⟩
  · have hapart := layout.directory_tables
    unfold Memory.Layout.InDirectory at ha
    apply hstarted.frame
    · unfold Outside
      omega
    · unfold Outside
      omega
    · unfold Outside
      omega
    · unfold Outside
      omega
  · have hj := Kernel.used_of_live hlive
    apply hstarted.frame
    · exact h.outside_free hpool hj ha hsaligned hsfree
    · exact h.outside_free hpool hj ha hcaligned hcfree
    · exact h.outside_free hpool hj ha hdaligned hdfree
    · have hapart := layout.tables_bootstrap
      unfold Outside
      -- the context of the bootstrap process is in the image, the others are above it
      rcases hj with rfl | hocc
      · have hinside := h.inContext_zero ha
        omega
      · obtain ⟨-, habove⟩ := h.stackBase_spec hpool hocc
        have hcontext := h.context_toNat hocc
        unfold Kernel.InContext at ha
        omega

theorem UserStarted.initial {m m' : Memory} {stack code user directory : UInt32}
    (h : UserStarted layout m m' stack code user directory) (k : Kernel) {n : Nat} (hn : n < 15) :
    load32 m' ((k.userProcess directory stack code user).context + UInt32.ofNat (4 * n)) =
      initialFrame.getD n 0 := by
  have hframe : ∀ n < 15, assigned n Kernel.userFrame 0 = initialFrame.getD n 0 := by decide
  exact (h.context n hn).trans (hframe n hn)

theorem record_created {k : Kernel} {slot : Slot} (hvacant : k.vacantSlot = some slot)
    (frames : Slot → List UInt32) (image imageSize : UInt32) (process : Process) (space : Space) :
    (Event.createUser image imageSize).record k (k.enterProcess slot process space) frames slot =
      initialFrame := by
  refine if_pos ⟨?_, hvacant⟩
  change k.nextPid + 1 ≠ k.nextPid
  grind

theorem Faithful.enterProcess (h : Faithful layout pool s) {slot : Slot} {process : Process}
    {space : Space} {image imageSize : UInt32}
    (hagrees : Agrees layout pool (s.processor.kernel.enterProcess slot process space))
    (hkeeps : s.processor.kernel.Keeps layout
      (s.processor.kernel.enterProcess slot process space))
    (hvacant : s.processor.kernel.vacantSlot = some slot)
    (hmarked : ∀ r, s.processor.kernel.running = some r →
      (s.processor.kernel.processes r).state ≠ .zombie)
    (hinitial : ∀ n < 15, load32 space.memory (process.context + UInt32.ofNat (4 * n)) =
      initialFrame.getD n 0) :
    Faithful layout pool
      ⟨⟨s.processor.kernel.enterProcess slot process space, s.processor.ring⟩, fun i =>
        (Event.createUser image imageSize).record s.processor.kernel
          (s.processor.kernel.enterProcess slot process space) s.frames i⟩ := by
  refine h.advance hagrees hkeeps h.boot (fun r hrzero hr hlive => ?_) fun j hlive hidle => ?_
  · have hne := h.agrees.owned.running_ne_vacant hvacant hr (hmarked r hr)
    refine h.user r hrzero hr ?_
    rwa [Kernel.enterProcess_of_ne _ hne] at hlive
  · by_cases hj : j = slot
    · -- the new process
      subst hj
      have hrecord := record_created hvacant s.frames image imageSize process space
      refine .inr ⟨fun n hn => ?_, ?_⟩
      · rw [Kernel.enterProcess_self, hrecord]
        exact hinitial n hn
      · rw [hrecord, Returns, if_neg (vacantSlot_spec hvacant).1]
        decide
    · rw [Kernel.enterProcess_of_ne _ hj] at hlive
      refine .inl ⟨hlive, hidle, ?_, if_neg fun hentered => hj ?_⟩
      · rw [Kernel.enterProcess_of_ne _ hj]
      · exact Option.some.inj (hentered.2.symm.trans hvacant)

/-- A creation keeps the processes that wait, and records the initial frame of the new
one. -/
theorem Faithful.createUser (h : Faithful layout pool s)
    (hpool : AboveKernel layout pool) {image imageSize : UInt32}
    (hmarked : ∀ r, s.processor.kernel.running = some r →
      (s.processor.kernel.processes r).state ≠ .zombie) {k' : Kernel} {result : Int32}
    (hcreate : s.processor.kernel.processCreateUser direct layout image imageSize =
      some (k', result)) :
    s.processor.kernel.Keeps layout k' ∧ Faithful layout pool ⟨⟨k', s.processor.ring⟩, fun i =>
      (Event.createUser image imageSize).record s.processor.kernel k' s.frames i⟩ := by
  have howned := h.agrees.owned
  have hagrees := h.agrees.creation (processCreateUser_creation howned.sound hcreate) hmarked
  have habove : AboveKernel layout s.processor.kernel.space.pmm.free :=
    hpool.mono howned.free_subset
  rcases h.rooted.createUser_cases howned.sound habove hcreate with
    hfailed | ⟨slot, m, hvacant, hpages, hstarted, heq⟩
  · obtain ⟨pmm, rfl, -, -⟩ := hfailed
    have hkeeps : s.processor.kernel.Keeps layout { s.processor.kernel with
        space := { s.processor.kernel.space with pmm := pmm } } := fun _ _ => rfl
    refine ⟨hkeeps, h.advance hagrees hkeeps h.boot h.user fun j hlive hidle => ?_⟩
    exact .inl ⟨hlive, hidle, rfl, if_neg fun hentered => hentered.1 rfl⟩
  · have hkeeps := howned.keeps_createUser hpool (congrArg (·.space.memory) heq) hpages hstarted
    subst heq
    refine ⟨hkeeps, h.enterProcess hagrees hkeeps hvacant hmarked fun n hn => ?_⟩
    exact hstarted.initial s.processor.kernel hn

end Steps

end LevOS
