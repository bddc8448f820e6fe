import LevOS.Process.Records

/-!
# Resuming where a process was interrupted

A process finds the frame that it has left behind when it is resumed. The passes through
the handlers keep the invariant, whether they give the processor to another process or
not, and what they return is the frame in the record.

## Main results

* `Faithful.pass`, `Faithful.step`
* `schedule_resumes`
-/

namespace LevOS

open Foundation Memory Cpu

/-! ## Passes -/

section Steps

variable {layout : Layout} {pool : Finset Nat} {s s' : Recorded} {r : Slot}
  {event : Interruption} {writes : Memory → Memory} {k' : Kernel} {ring : UInt16}

/-- A pass after which the same process runs. -/
theorem Faithful.idle (h : Faithful layout pool s)
    (hpool : AboveKernel layout pool)
    (hr : s.processor.kernel.running = some r) (hagrees : Agrees layout pool k')
    (hmemory : ∀ a, ¬ s.processor.kernel.OnStack layout r a →
      k'.space.memory a = s.processor.kernel.space.memory a)
    (hrunning : k'.running = s.processor.kernel.running)
    (htable : ∀ j, s.processor.kernel.running ≠ some j →
      k'.processes j = s.processor.kernel.processes j)
    (hboot : k'.running = some 0 → ring = 0)
    (huser : ∀ r ≠ 0, k'.running = some r → (k'.processes r).live = true → ring ≠ 0) :
    s.processor.kernel.Keeps layout k' ∧ Faithful layout pool ⟨⟨k', ring⟩, fun i =>
      (Event.interrupt event writes).record s.processor.kernel k' s.frames i⟩ := by
  have hkeeps := h.keeps_of_stack hpool hr hmemory
  refine ⟨hkeeps, h.advance hagrees hkeeps hboot huser fun j hlive hidle => ?_⟩
  rw [hrunning] at hidle
  rw [htable j hidle] at hlive ⊢
  exact .inl ⟨hlive, hidle, rfl, if_neg fun hswitched => hidle hswitched.1⟩

/-- A pass that gives the processor to another process. -/
theorem Faithful.switched (h : Faithful layout pool s)
    (hpool : AboveKernel layout pool)
    (hr : s.processor.kernel.running = some r) {i : Slot} (hir : i ≠ r)
    (hagrees : Agrees layout pool k')
    (hmemory : ∀ a, ¬ s.processor.kernel.OnStack layout r a →
      (i = 0 → Outside a layout.kernelStack 16384) →
      k'.space.memory a = s.processor.kernel.space.memory a)
    (hsaved : (s.processor.kernel.processes r).live = true → ∀ n < 15,
      load32 k'.space.memory
        ((s.processor.kernel.processes r).context + UInt32.ofNat (4 * n)) =
          (event.left s.processor.kernel).getD n 0)
    (hleft : (s.processor.kernel.processes r).live = true →
      Returns layout r (event.left s.processor.kernel))
    (hrunning : k'.running = some i)
    (htable : ∀ j ≠ i, k'.processes j = s.processor.kernel.processes j)
    (hring : ring = 0 ↔ i = 0) :
    s.processor.kernel.Keeps layout k' ∧ Faithful layout pool ⟨⟨k', ring⟩, fun i =>
      (Event.interrupt event writes).record s.processor.kernel k' s.frames i⟩ := by
  have howned := h.agrees.owned
  have hused := howned.used_running hr
  have hkmem := layout.kernelStack_mem
  have hkeeps : s.processor.kernel.Keeps layout k' := by
    rintro a (ha | ⟨j, hlive, hidle, ha⟩)
    · refine hmemory a (howned.not_onStack_directory hpool hused ha) fun _ => ?_
      have hapart := layout.directory_kernel
      unfold Memory.Layout.InDirectory at ha
      unfold Outside
      omega
    · have hj := Kernel.used_of_live hlive
      refine hmemory a (fun hstack => hidle ?_) fun _ => ?_
      · rw [howned.onStack_unique hpool hj hused (howned.onStack_inContext hj ha) hstack]
        exact hr
      · have hapart := layout.bootstrap_kernel
        unfold Outside
        rcases hj with rfl | hocc
        · have hinside := howned.inContext_zero ha
          omega
        · obtain ⟨-, habove⟩ := howned.stackBase_spec hpool hocc
          have hcontext := howned.context_toNat hocc
          unfold Kernel.InContext at ha
          omega
  refine ⟨hkeeps, h.advance hagrees hkeeps (fun hzero => ?_) (fun i' hi' hrun _ => ?_)
    fun j hlive hidle => ?_⟩
  · exact hring.mpr (Option.some.inj (hrunning.symm.trans hzero))
  · obtain rfl : i = i' := Option.some.inj (hrunning.symm.trans hrun)
    exact fun hzero => hi' (hring.mp hzero)
  · have hji : j ≠ i := fun heq => hidle (heq ▸ hrunning)
    rw [htable j hji] at hlive ⊢
    by_cases hjr : j = r
    · -- the process that has lost the processor
      subst hjr
      have hrecord : (Event.interrupt event writes).record s.processor.kernel k' s.frames j =
          event.left s.processor.kernel := if_pos ⟨hr, hidle⟩
      rw [hrecord]
      exact .inr ⟨hsaved hlive, hleft hlive⟩
    · have hwaits : s.processor.kernel.running ≠ some j := by
        rw [hr]
        exact fun heq => hjr (Option.some.inj heq).symm
      exact .inl ⟨hlive, hwaits, rfl, if_neg fun hswitched => hwaits hswitched.1⟩

theorem Kernel.dispatch_context (layout : Layout) (k : Kernel) (i j : Slot) :
    ((k.dispatch layout i).processes j).context = (k.processes j).context := by
  by_cases hj : j = i
  · rw [hj, k.dispatch_self layout i]
  · rw [k.dispatch_of_ne layout hj]

/-- What the handler returns for a scheduling interruption: the frame, or the saved
context of another process, after the running one has been saved. -/
theorem Faithful.handled (h : Faithful layout pool s)
    (hr : s.processor.kernel.running = some r)
    (hfits : event.Fits layout s.processor.kernel writes)
    (hring : Machine.ring event.cpu.cs = s.processor.ring) (hschedules : event.Schedules)
    {e k₁ : Kernel} {context : UInt32}
    (hentered : s.processor.kernel.entered direct event writes = some e)
    (hhandler : e.isrCommonHandler direct layout (event.frame s.processor.kernel) =
      some (.resume k₁ context)) :
    (∀ a, ¬ s.processor.kernel.OnStack layout r a →
        k₁.space.memory a = s.processor.kernel.space.memory a) ∧
      ((context = event.frame s.processor.kernel ∧
          k₁.running = s.processor.kernel.running ∧
          k₁.processes = s.processor.kernel.processes ∧
          (s.processor.kernel.processes r).state ≠ .zombie ∧
          ∀ n < 15, load32 k₁.space.memory (context + UInt32.ofNat (4 * n)) =
            (event.left s.processor.kernel).getD n 0) ∨
        ∃ i, i ≠ r ∧ (s.processor.kernel.processes i).live = true ∧
          context = (s.processor.kernel.processes i).context ∧
          context = (k₁.processes i).context ∧ k₁.running = some i ∧
          (∀ j ≠ i, k₁.processes j = s.processor.kernel.processes j) ∧
          ((s.processor.kernel.processes r).live = true → ∀ n < 15,
            load32 k₁.space.memory
              ((s.processor.kernel.processes r).context + UInt32.ofNat (4 * n)) =
                (event.left s.processor.kernel).getD n 0)) := by
  have hmemory := h.entered hr hfits hring
  rw [Kernel.entered_direct] at hentered
  obtain rfl := Option.some.inj hentered
  obtain ⟨r', m, hr', hsame, hleft, hcases⟩ :=
    h.agrees.handled hschedules hmemory.fit_pushed hmemory.contents hhandler
  obtain rfl : r = r' := Option.some.inj (hr.symm.trans hr')
  have houtside (a : UInt32) (ha : ¬ s.processor.kernel.OnStack layout r a) :
      m a = s.processor.kernel.space.memory a :=
    (hsame a (hmemory.span a ha)).trans (hmemory.outside a ha)
  -- the running process goes on, or its context is saved and another one dispatched
  rcases hcases with ⟨hnext, hrunning, htable, halive, hmem⟩ |
    ⟨i, space, hir, hlive, hnext, hsave, hrunning, hmem, hself, hother⟩
  · rw [hmem, hnext]
    exact ⟨houtside, .inl ⟨rfl, hrunning, htable, halive, hleft⟩⟩
  · obtain ⟨hout, hwords⟩ := h.saved hr hfits hring hsave rfl houtside hleft
    rw [hmem, hnext]
    exact ⟨hout, .inr ⟨i, hir, hlive, rfl, by rw [hself], hrunning, hother, hwords⟩⟩

/-- The frame that a live process leaves is one to resume from. -/
theorem Faithful.returns_left (h : Faithful layout pool s)
    (hr : s.processor.kernel.running = some r)
    (hfits : event.Fits layout s.processor.kernel writes)
    (hring : Machine.ring event.cpu.cs = s.processor.ring)
    (hlive : (s.processor.kernel.processes r).live = true) :
    Returns layout r (event.left s.processor.kernel) := by
  have hkmem := layout.kernelStack_mem
  have himage := layout.image_le
  unfold Returns
  rw [event.left_getD (by decide), event.left_getD (by decide), event.contents_cs]
  rcases h.frame_place hr hfits hring with ⟨hzero, hholds⟩ | ⟨hzero, hrzero, -⟩
  · obtain rfl : r = 0 := by
      by_contra hrzero
      exact h.user r hrzero hr hlive (hring.symm.trans hzero)
    rw [Kernel.StackHolds, if_pos rfl] at hholds
    have haddress : (event.frame s.processor.kernel + 32).toNat =
        (event.frame s.processor.kernel).toNat + 32 := toNat_add_ofNat (n := 32) (by omega)
    rw [if_pos rfl, event.contents_esp hzero]
    exact ⟨(ring_toUInt32 _).mp hzero, by omega, by omega⟩
  · rw [if_neg hrzero]
    exact fun hcs => hzero ((ring_toUInt32 _).mpr hcs)

theorem Interruption.Fits.proper (hfits : event.Fits layout s.processor.kernel writes)
    (howned : Owned layout pool s.processor.kernel) :
    (Event.interrupt event writes).Proper layout s.processor.kernel := by
  intro hzero r hr
  have hholds := hfits.stack hzero r hr
  unfold Kernel.StackHolds at hholds
  unfold Kernel.OnStack
  split_ifs at hholds ⊢ with hrzero
  · omega
  · have hused := howned.used_running hr
    have hcontext := howned.context_toNat (hused.resolve_left hrzero)
    omega

theorem returnSelector_eq {k₁ : Kernel} {context selector : UInt32}
    (h : k₁.returnSelector direct context = some selector) :
    selector = load32 k₁.space.memory (context + UInt32.ofNat (4 * 11)) := by
  rw [Kernel.returnSelector_direct, Kernel.loadDirectory_memory] at h
  exact (Option.some.inj h).symm

/-- A scheduling pass in which the process keeps the processor. -/
theorem Faithful.pass_stays (h : Faithful layout pool s)
    (hpool : AboveKernel layout pool)
    (hr : s.processor.kernel.running = some r)
    (hfits : event.Fits layout s.processor.kernel writes)
    (hring : Machine.ring event.cpu.cs = s.processor.ring) {k₁ : Kernel} {context selector : UInt32}
    (hagrees : Agrees layout pool k')
    (hout : ∀ a, ¬ s.processor.kernel.OnStack layout r a →
      k₁.space.memory a = s.processor.kernel.space.memory a)
    (hrunning : k₁.running = s.processor.kernel.running)
    (htable : k₁.processes = s.processor.kernel.processes)
    (hwords : ∀ n < 15, load32 k₁.space.memory (context + UInt32.ofNat (4 * n)) =
      (event.left s.processor.kernel).getD n 0)
    (hselector : k₁.returnSelector direct context = some selector)
    (hleave : k₁.leave direct context = some k')
    (hring' : ring = Machine.ring selector.toUInt16) :
    s.processor.kernel.Keeps layout k' ∧ Faithful layout pool ⟨⟨k', ring⟩, fun i =>
      (Event.interrupt event writes).record s.processor.kernel k' s.frames i⟩ := by
  have hentered := h.entered hr hfits hring
  have hcs := (hwords 11 (by decide)).trans
    ((event.left_getD (by decide)).trans event.contents_cs)
  have hsame : ring = s.processor.ring := by
    rw [hring', returnSelector_eq hselector, hcs, UInt16.toUInt16_toUInt32, hring]
  have hesp (hzero : event.cpu.cs.toUInt32 &&& 3 = 0) :
      load32 k₁.space.memory (Field.esp.of context) = event.frame s.processor.kernel + 32 :=
    (hwords 3 (by decide)).trans ((event.left_getD (by decide)).trans
      (event.contents_esp ((ring_toUInt32 _).mpr hzero)))
  have hfit := hentered.fit
  have h32 : (event.frame s.processor.kernel + 32).toNat =
      (event.frame s.processor.kernel).toNat + 32 := toNat_add_ofNat (n := 32) (by omega)
  have h40 : (event.frame s.processor.kernel + 32 + 8).toNat =
      (event.frame s.processor.kernel).toNat + 40 := by
    rw [UInt32.add_assoc]
    exact toNat_add_ofNat (n := 40) (by omega)
  obtain ⟨htable', hrunning'⟩ := Kernel.leave_table hleave
  refine h.idle hpool hr hagrees (fun a ha => ?_) (hrunning'.trans hrunning)
    (fun j _ => by rw [htable', htable]) (fun hzero => ?_) fun r' hr' hrun hlive => ?_
  · rw [← hout a ha]
    -- the words for `iretd` are written where the frame is
    refine Kernel.leave_direct hleave (fun hzero => ?_) fun hzero => ?_
    · rw [hesp (hcs ▸ hzero)]
      omega
    · have hspan := hentered.span a ha
      rw [hesp (hcs ▸ hzero)]
      unfold Outside at *
      omega
  · rw [hsame]
    exact h.boot (by rwa [hrunning', hrunning] at hzero)
  · rw [hsame]
    rw [hrunning', hrunning] at hrun
    rw [htable', htable] at hlive
    exact h.user r' hr' hrun hlive

/-- A scheduling pass that gives the processor to another process. -/
theorem Faithful.pass_switches (h : Faithful layout pool s)
    (hpool : AboveKernel layout pool)
    (hr : s.processor.kernel.running = some r)
    (hfits : event.Fits layout s.processor.kernel writes)
    (hring : Machine.ring event.cpu.cs = s.processor.ring) {k₁ : Kernel} {context selector : UInt32}
    (hagrees : Agrees layout pool k')
    (hout : ∀ a, ¬ s.processor.kernel.OnStack layout r a →
      k₁.space.memory a = s.processor.kernel.space.memory a) {i : Slot} (hir : i ≠ r)
    (hi : (s.processor.kernel.processes i).live = true)
    (hcontext : context = (s.processor.kernel.processes i).context)
    (hrunning : k₁.running = some i)
    (htable : ∀ j ≠ i, k₁.processes j = s.processor.kernel.processes j)
    (hsaved : (s.processor.kernel.processes r).live = true → ∀ n < 15,
      load32 k₁.space.memory
        ((s.processor.kernel.processes r).context + UInt32.ofNat (4 * n)) =
          (event.left s.processor.kernel).getD n 0)
    (hselector : k₁.returnSelector direct context = some selector)
    (hleave : k₁.leave direct context = some k')
    (hring' : ring = Machine.ring selector.toUInt16) :
    s.processor.kernel.Keeps layout k' ∧ Faithful layout pool ⟨⟨k', ring⟩, fun i =>
      (Event.interrupt event writes).record s.processor.kernel k' s.frames i⟩ := by
  have howned := h.agrees.owned
  have hwaits : s.processor.kernel.running ≠ some i := by
    rw [hr]
    exact fun heq => hir (Option.some.inj heq).symm
  have hkeeps : s.processor.kernel.Keeps layout k₁ := h.keeps_of_stack hpool hr hout
  have hwords (n : Nat) (hn : n < 15) :
      load32 k₁.space.memory (context + UInt32.ofNat (4 * n)) = (s.frames i).getD n 0 := by
    rw [hcontext, hkeeps.words howned hi hwaits hn]
    exact h.kept i hi hwaits n hn
  have hcs : load32 k₁.space.memory (Field.cs.of context) = (s.frames i).getD 11 0 :=
    hwords 11 (by decide)
  have hesp : load32 k₁.space.memory (Field.esp.of context) = (s.frames i).getD 3 0 :=
    hwords 3 (by decide)
  have hreturns := h.returns i hi hwaits
  have hkmem := layout.kernelStack_mem
  have himage := layout.image_le
  unfold Returns at hreturns
  obtain ⟨htable', hrunning'⟩ := Kernel.leave_table hleave
  -- only the bootstrap process is resumed in ring 0, and its words go to the boot stack
  have hmemory (a : UInt32) (ha : i = 0 → Outside a layout.kernelStack 16384) :
      k'.space.memory a = k₁.space.memory a := by
    by_cases hizero : i = 0
    · rw [if_pos hizero] at hreturns
      have ha := ha hizero
      have h8 : ((s.frames i).getD 3 0 + 8).toNat = ((s.frames i).getD 3 0).toNat + 8 :=
        toNat_add_ofNat (n := 8) (by omega)
      refine Kernel.leave_direct hleave (fun _ => ?_) fun _ => ?_
      · rw [hesp]
        omega
      · rw [hesp]
        unfold Outside at *
        omega
    · rw [if_neg hizero] at hreturns
      exact Kernel.leave_direct hleave (fun hzero => absurd (hcs ▸ hzero) hreturns)
        fun hzero => absurd (hcs ▸ hzero) hreturns
  refine h.switched hpool hr hir hagrees (fun a ha hizero => ?_) (fun hlive n hn => ?_)
    (fun hlive => h.returns_left hr hfits hring hlive) (hrunning'.trans hrunning)
    (fun j hj => by rw [htable', htable j hj]) ?_
  · rw [hmemory a hizero]
    exact hout a ha
  · rw [← hsaved hlive n hn]
    have hused := Kernel.used_of_live hlive
    refine load32_context_congr (howned.context_fits hused) (fun a hlow hhigh => ?_) hn
    refine hmemory a fun hizero => ?_
    have hocc := hused.resolve_left fun heq => hir (hizero.trans heq.symm)
    obtain ⟨-, habove⟩ := howned.stackBase_spec hpool hocc
    have hcontext := howned.context_toNat hocc
    unfold Outside
    omega
  · rw [hring', ring_toUInt16, returnSelector_eq hselector, hwords 11 (by decide)]
    by_cases hizero : i = 0
    · rw [if_pos hizero] at hreturns
      exact iff_of_true hreturns.1 hizero
    · rw [if_neg hizero] at hreturns
      exact iff_of_false hreturns hizero

/-- A created process that exits is no longer alive. -/
theorem Owned.not_live_terminated {k : Kernel} (h : Owned layout pool k) (hrzero : r ≠ 0)
    (hr : k.running = some r) : ¬ (k.processTerminateCurrent.processes r).live = true := by
  rcases h.terminate_cases with ⟨hzero, -⟩ | ⟨r', hr', -, heq⟩
  · exact absurd (Option.some.inj (hr.symm.trans hzero)) hrzero
  · obtain rfl : r = r' := Option.some.inj (hr.symm.trans hr')
    rw [heq, k.setState_self]
    rintro ⟨⟩

/-- One pass. -/
theorem Faithful.pass (h : Faithful layout pool s)
    (hpool : AboveKernel layout pool)
    (hfits : event.Fits layout s.processor.kernel writes) {p : Processor}
    (hpass : s.processor.pass direct layout event writes = some p) :
    s.processor.kernel.Keeps layout p.kernel ∧ Faithful layout pool ⟨p, fun i =>
      (Event.interrupt event writes).record s.processor.kernel p.kernel s.frames i⟩ := by
  have howned := h.agrees.owned
  obtain ⟨r, hr, -⟩ := howned.current
  have hagrees : Agrees layout pool p.kernel :=
    h.agrees.step hpool ⟨.interrupt event writes, hfits.proper howned,
      Processor.step_kernel (show s.processor.step direct layout _ = some p from hpass)⟩
  obtain ⟨hring, e, hentered, hcases⟩ := Processor.pass_cases hpass
  have hmemory := h.entered hr hfits hring
  -- the handler reschedules, or the process exits and nothing is resumed
  rcases hfits.kind with hschedules | hexits
  · rcases hcases with ⟨k₁, context, selector, hhandler, hselector, hleave, hring'⟩ | ⟨hhandler, -⟩
    · obtain ⟨hout, ⟨-, hrunning, htable, -, hwords⟩ |
        ⟨i, hir, hi, hcontext, -, hrunning, htable, hsaved⟩⟩ :=
          h.handled hr hfits hring hschedules hentered hhandler
      · exact h.pass_stays hpool hr hfits hring hagrees hout hrunning htable hwords hselector hleave
          hring'
      · exact h.pass_switches hpool hr hfits hring hagrees hout hir hi hcontext hrunning htable hsaved
          hselector hleave hring'
    · -- a handler that reschedules does resume something
      rw [Kernel.entered_direct] at hentered
      obtain rfl := Option.some.inj hentered
      obtain ⟨m, quantum, ticks, heq, -, -⟩ :=
        isrCommonHandler_schedules layout (e := { s.processor.kernel with
          space := { s.processor.kernel.space with memory := _ } })
          hschedules hmemory.fit_pushed hmemory.contents
      rw [heq] at hhandler
      obtain ⟨result, -, hresume⟩ := Option.map_eq_some_iff.mp hhandler
      cases hresume
  · rw [Kernel.entered_direct] at hentered
    obtain rfl := Option.some.inj hentered
    have heq := isrCommonHandler_exits layout (e := { s.processor.kernel with
      space := { s.processor.kernel.space with memory := _ } }) hexits hmemory.contents
    rcases hcases with ⟨k₁, context, selector, hhandler, -⟩ | ⟨hhandler, hring'⟩
    · rw [heq] at hhandler
      cases hhandler
    · rw [heq] at hhandler
      have hkernel := Outcome.exit.inj (Option.some.inj hhandler)
      obtain ⟨hspace, hrunning, htable⟩ := Kernel.terminate_frame { s.processor.kernel with
        space := { s.processor.kernel.space with
          memory := writes (pushWords s.processor.kernel.space.memory
            (event.stack s.processor.kernel) (event.words s.processor.kernel)) }
        schedulerNextDirectory := 0 }
      rw [hkernel] at hspace hrunning htable
      -- what the others have saved is as before, and the process is dead now
      refine h.idle hpool hr hagrees (fun a ha => ?_) hrunning htable (fun _ => hring') ?_
      · rw [hspace]
        exact hmemory.outside a ha
      · intro r' hr' hrun hlive
        have hbefore : Agrees layout pool { s.processor.kernel with
            space := { s.processor.kernel.space with
              memory := writes (pushWords s.processor.kernel.space.memory
                (event.stack s.processor.kernel) (event.words s.processor.kernel)) }
            schedulerNextDirectory := 0 } := h.agrees.congr rfl rfl rfl rfl rfl rfl
        exact absurd (hkernel ▸ hlive) (hbefore.owned.not_live_terminated hr' (hrunning ▸ hrun))

/-- One event. -/
theorem Faithful.step (h : Faithful layout pool s)
    (hpool : AboveKernel layout pool) {event : Event}
    (hfits : event.Fits layout s.processor.kernel) (hstep : s.step layout event = some s') :
    s.processor.kernel.Keeps layout s'.processor.kernel ∧ Faithful layout pool s' := by
  obtain ⟨p, hevent, rfl⟩ := Option.map_eq_some_iff.mp hstep
  cases event with
  | create entry argument => exact hfits.elim
  | createUser image imageSize =>
    obtain ⟨k', hkernel, rfl⟩ := Option.map_eq_some_iff.mp hevent
    obtain ⟨⟨k₁, result⟩, hcreate, rfl⟩ := Option.map_eq_some_iff.mp hkernel
    exact h.createUser hpool hfits hcreate
  | terminate => exact hfits.elim
  | other memory =>
    obtain rfl := Option.some.inj hevent
    have hkeeps : s.processor.kernel.Keeps layout { s.processor.kernel with
        space := { s.processor.kernel.space with memory := memory } } := by
      rintro a (ha | ⟨j, hlive, hidle, ha⟩)
      · exact hfits a (.inl ha)
      · refine hfits a (.inr ⟨j, hlive, hidle, ?_⟩)
        exact h.agrees.owned.onStack_inContext (Kernel.used_of_live hlive) ha
    exact ⟨hkeeps, h.advance (h.agrees.setMemory memory) hkeeps h.boot h.user
      fun j hlive hidle => .inl ⟨hlive, hidle, rfl, rfl⟩⟩
  | interrupt event writes => exact h.pass hpool hfits hevent

theorem Faithful.reach (h : Faithful layout pool s)
    (hpool : AboveKernel layout pool)
    (hsteps : Relation.ReflTransGen (Recorded.Step layout) s s') : Faithful layout pool s' := by
  induction hsteps with
  | refl => exact h
  | tail _ hstep ih =>
    obtain ⟨event, hfits, hstep⟩ := hstep
    exact (ih.step hpool hfits hstep).2

end Steps

/-! ## The saved context stays in place -/

section Places

variable {access : Access} {layout : Layout} {pool : Finset Nat} {k k' : Kernel} {j : Slot}

/-- A creation takes over no live slot. -/
theorem Creation.process_eq {rejected : Prop} {pages : Nat} {result : Int32}
    (h : Creation rejected pages k k' result) (hlive : (k.processes j).live = true) :
    k'.processes j = k.processes j := by
  cases h with
  | failed => rfl
  | entered slot process m pmm hvacant =>
    apply Kernel.enterProcess_of_ne
    rintro rfl
    have hstate := (vacantSlot_spec hvacant).2
    rw [Process.vacant_eq_not_live, hlive] at hstate
    cases hstate

theorem Owned.terminate_context (h : Owned layout pool k) :
    (k.processTerminateCurrent.processes j).context = (k.processes j).context := by
  rcases h.terminate_cases with ⟨-, heq⟩ | ⟨r, -, -, heq⟩
  · rw [heq]
  · rw [heq]
    by_cases hj : j = r
    · rw [hj, k.setState_self]
    · rw [k.setState_of_ne hj]

/-- No event moves the saved context of a live process. -/
theorem Agrees.step_context (h : Agrees layout pool k) {event : Event}
    (hstep : k.step access layout event = some k') (hlive : (k.processes j).live = true) :
    (k'.processes j).context = (k.processes j).context := by
  cases event with
  | create entry argument =>
    obtain ⟨⟨k₁, result⟩, hcreate, rfl⟩ := Option.map_eq_some_iff.mp hstep
    rw [(processCreate_creation h.owned.sound hcreate).process_eq hlive]
  | createUser image imageSize =>
    obtain ⟨⟨k₁, result⟩, hcreate, rfl⟩ := Option.map_eq_some_iff.mp hstep
    rw [(processCreateUser_creation h.owned.sound hcreate).process_eq hlive]
  | terminate =>
    obtain rfl := Option.some.inj hstep
    exact h.owned.terminate_context
  | other memory =>
    obtain rfl := Option.some.inj hstep
    rfl
  | interrupt event writes =>
    -- whatever the handler does, it moves the states of processes but not their contexts
    rcases Kernel.step_interrupt hstep with ⟨m, k₁, context, hhandler, hleave⟩ | ⟨m, rfl⟩
    · rw [(Kernel.leave_table hleave).1]
      rcases isrCommonHandler_cases hhandler with ⟨m, output, heq, -⟩ |
        ⟨m, quantum, ticks, k₃, next, hschedule, heq, -⟩ | heq | heq
      · obtain ⟨rfl, -⟩ := Outcome.resume.inj heq
        rfl
      · obtain ⟨rfl, -⟩ := Outcome.resume.inj heq
        have hbefore : Agrees layout pool { k with
            space := { k.space with memory := m }, quantumTicks := quantum, ticks := ticks,
            schedulerNextDirectory := 0 } := h.congr rfl rfl rfl rfl rfl rfl
        obtain ⟨r, -, ⟨-, -, rfl, -⟩ | ⟨i, space, -, -, -, -, rfl⟩⟩ :=
          hbefore.owned.schedule_cases hschedule
        · rfl
        · exact Kernel.dispatch_context layout _ i j
      · cases heq
      · cases heq
    · have hbefore : Agrees layout pool { k with
          space := { k.space with memory := m }, schedulerNextDirectory := 0 } :=
        h.congr rfl rfl rfl rfl rfl rfl
      exact hbefore.owned.terminate_context

end Places

/-! ## Resuming -/

section Resuming

variable {layout : Layout} {bytes : Pmm → Memory} {info : UInt32} {fuel : Nat} {pmm : Pmm}
  {memory : Memory} {esp0 : UInt32} {k₀ : Kernel}

/-- The context of another process that the handler returns holds the frame recorded. -/
theorem Faithful.resumes {pool : Finset Nat} {s : Recorded} (h : Faithful layout pool s)
    (hpool : AboveKernel layout pool) {event : Interruption}
    {writes : Memory → Memory} {entered k₁ : Kernel} {context : UInt32}
    (hfits : event.Fits layout s.processor.kernel writes)
    (hring : Machine.ring event.cpu.cs = s.processor.ring)
    (hentered : s.processor.kernel.entered direct event writes = some entered)
    (hhandler : entered.isrCommonHandler direct layout (event.frame s.processor.kernel) =
      some (.resume k₁ context))
    (hother : k₁.running ≠ s.processor.kernel.running) :
    ∃ i, k₁.running = some i ∧ context = (k₁.processes i).context ∧
      ∀ n < 15, load32 k₁.space.memory (context + UInt32.ofNat (4 * n)) = (s.frames i).getD n 0 := by
  have howned := h.agrees.owned
  obtain ⟨r, hr, -⟩ := howned.current
  rcases hfits.kind with hschedules | hexits
  · obtain ⟨hout, ⟨-, hrunning, -⟩ | ⟨i, hir, hi, hcontext, hplace, hrunning, -⟩⟩ :=
      h.handled hr hfits hring hschedules hentered hhandler
    · exact absurd hrunning hother
    · have hidle : s.processor.kernel.running ≠ some i := by
        rw [hr]
        exact fun heq => hir (Option.some.inj heq).symm
      have hkeeps : s.processor.kernel.Keeps layout k₁ := h.keeps_of_stack hpool hr hout
      refine ⟨i, hrunning, hplace, fun n hn => ?_⟩
      rw [hcontext, hkeeps.words howned hi hidle hn]
      exact h.kept i hi hidle n hn
  · have hmemory := h.entered hr hfits hring
    rw [Kernel.entered_direct] at hentered
    obtain rfl := Option.some.inj hentered
    have heq := isrCommonHandler_exits layout (e := { s.processor.kernel with
      space := { s.processor.kernel.space with memory := _ } }) hexits hmemory.contents
    rw [heq] at hhandler
    cases hhandler

/-- When `scheduler_init` returns, no process waits for the processor. -/
theorem faithful_start (hpmm : Pmm.pmmInit bytes layout.kernelEnd info fuel = some pmm)
    (hinit : schedulerInit direct layout (Kernel.boot layout memory pmm esp0) = some k₀)
    (frames : Slot → List UInt32) : Faithful layout pmm.free ⟨⟨k₀, 0⟩, frames⟩ := by
  have hagrees := schedulerInit_agrees (Pmm.pmmInit_sound hpmm) hinit
  have hrooted := (conserved_start hpmm hinit).1.rooted
  obtain ⟨m, rfl⟩ := schedulerInit_eq hinit
  have hwaits (i : Slot) (hlive : (initialProcesses layout i).live = true)
      (hidle : some 0 ≠ some i) : False := by
    rw [initialProcesses_of_ne layout fun hi => hidle (congrArg some hi.symm)] at hlive
    cases hlive
  refine ⟨hagrees, hrooted, fun _ => rfl, fun r hrzero hr _ => ?_, fun i hlive hidle => ?_,
    fun i hlive hidle => ?_⟩
  · exact absurd (Option.some.inj hr).symm hrzero
  · exact (hwaits i hlive hidle).elim
  · exact (hwaits i hlive hidle).elim

/-- Resume fidelity: in every run, when the handler returns the context of another process,
this context holds the frame that the process has left behind, or its initial frame; and no
event changes the saved context of a process that waits for the processor. -/
theorem schedule_resumes {frames : Slot → List UInt32} {s : Recorded}
    (hpmm : Pmm.pmmInit bytes layout.kernelEnd info fuel = some pmm)
    (hinit : schedulerInit direct layout (Kernel.boot layout memory pmm esp0) = some k₀)
    (hreach : Relation.ReflTransGen (Recorded.Step layout) ⟨⟨k₀, 0⟩, frames⟩ s) :
    (∀ (event : Interruption) (writes : Memory → Memory) (entered k₁ : Kernel) (context : UInt32),
        event.Fits layout s.processor.kernel writes →
        Machine.ring event.cpu.cs = s.processor.ring →
        s.processor.kernel.entered direct event writes = some entered →
        entered.isrCommonHandler direct layout (event.frame s.processor.kernel) =
          some (.resume k₁ context) →
        k₁.running ≠ s.processor.kernel.running →
        ∃ i, k₁.running = some i ∧ context = (k₁.processes i).context ∧
          ∀ n < 15, load32 k₁.space.memory (context + UInt32.ofNat (4 * n)) =
            (s.frames i).getD n 0) ∧
      ∀ (event : Event) (s' : Recorded), event.Fits layout s.processor.kernel →
        s.step layout event = some s' →
        ∀ i, (s.processor.kernel.processes i).live = true →
          s.processor.kernel.running ≠ some i →
          (s'.processor.kernel.processes i).context =
              (s.processor.kernel.processes i).context ∧
            ∀ n < 15, load32 s'.processor.kernel.space.memory
                ((s.processor.kernel.processes i).context + UInt32.ofNat (4 * n)) =
              load32 s.processor.kernel.space.memory
                ((s.processor.kernel.processes i).context + UInt32.ofNat (4 * n)) := by
  have hpool : AboveKernel layout pmm.free := aboveKernel_pmmInit hpmm
  have hfaithful := (faithful_start hpmm hinit frames).reach hpool hreach
  have howned := hfaithful.agrees.owned
  constructor
  · intro event writes entered k₁ context hfits hring hentered hhandler hother
    exact hfaithful.resumes hpool hfits hring hentered hhandler hother
  · intro event s' hfits hstep i hlive hidle
    obtain ⟨hkeeps, -⟩ := hfaithful.step hpool hfits hstep
    obtain ⟨p, hevent, rfl⟩ := Option.map_eq_some_iff.mp hstep
    exact ⟨hfaithful.agrees.step_context (Processor.step_kernel hevent) hlive,
      fun n hn => hkeeps.words howned hlive hidle hn⟩

end Resuming

/-! ## A first user process -/

theorem bootTick_fits {k : Kernel} (hr : k.running = some 0) :
    bootTick.Fits sampleLayout k id := by
  refine ⟨.inl (.inl rfl), fun _ r hr' => ?_, fun _ _ _ _ hne => absurd rfl hne⟩
  obtain rfl : 0 = r := Option.some.inj (hr.symm.trans hr')
  rw [bootTick_frame, Kernel.StackHolds, if_pos rfl]
  decide

/-- A user process is created after a boot without a memory map. -/
theorem noMapUser :
    ∃ (pmm : Pmm) (k₀ : Kernel) (s : Recorded),
      Pmm.pmmInit (fun _ _ => 0) sampleLayout.kernelEnd 0 0 = some pmm ∧
      schedulerInit direct sampleLayout (Kernel.boot sampleLayout (fun _ => 0) pmm 0) = some k₀ ∧
      Recorded.step sampleLayout ⟨⟨k₀, 0⟩, fun _ => []⟩ (.createUser 0x101000 1) = some s ∧
      (Event.createUser 0x101000 1).Fits sampleLayout k₀ ∧
      s.processor.kernel.running = some 0 ∧ s.frames 1 = initialFrame ∧
      (s.processor.kernel.processes 1).live = true ∧
      ∀ j ≠ 0, (s.processor.kernel.processes j).live = true → j = 1 := by
  obtain ⟨pmm, k₀, hpmm, hinit, hspace, hcard⟩ := noMapBoot
  have hsound := Pmm.pmmInit_sound hpmm
  have hvacant := schedulerInit_vacantSlot hinit
  obtain ⟨m, hk₀⟩ := schedulerInit_eq hinit
  have hrunning : k₀.running = some 0 := by rw [hk₀]
  have htable : k₀.processes = initialProcesses sampleLayout := by rw [hk₀]
  obtain ⟨process, space, hready, hcreate⟩ := processCreateUser_entered sampleLayout
    (hspace ▸ hsound) (show ¬ ((0x101000 : UInt32) = 0 ∨ (1 : UInt32) = 0 ∨ 4096 < 1) by decide)
    hvacant (by rw [hspace]; omega)
  have hstep : Recorded.step sampleLayout ⟨⟨k₀, 0⟩, fun _ => []⟩ (.createUser 0x101000 1) =
      some ⟨⟨k₀.enterProcess 1 process space, 0⟩, fun i => (Event.createUser 0x101000 1).record k₀
        (k₀.enterProcess 1 process space) (fun _ => []) i⟩ := by
    rw [Recorded.step, Processor.step_of_ne (by rintro _ _ ⟨⟩), Kernel.step, hcreate]
    rfl
  refine ⟨pmm, k₀, _, hpmm, hinit, hstep, fun r hr => ?_, hrunning,
    record_created hvacant (fun _ => []) 0x101000 1 process space, ?_, fun j hj hlive => ?_⟩
  · obtain rfl : 0 = r := Option.some.inj (hrunning.symm.trans hr)
    rw [htable, initialProcesses_zero]
    rintro ⟨⟩
  · rw [Kernel.enterProcess_self, Process.live, hready]
    rfl
  · by_contra hne
    rw [Kernel.enterProcess_of_ne _ hne, htable, initialProcesses_of_ne sampleLayout hj] at hlive
    cases hlive

/-- A tick after the creation of a user process resumes it from its initial frame. -/
theorem schedule_resumes_started :
    ∃ (pmm : Pmm) (k₀ : Kernel) (s : Recorded) (entered k₁ : Kernel) (context : UInt32),
      Pmm.pmmInit (fun _ _ => 0) sampleLayout.kernelEnd 0 0 = some pmm ∧
      schedulerInit direct sampleLayout (Kernel.boot sampleLayout (fun _ => 0) pmm 0) = some k₀ ∧
      Recorded.step sampleLayout ⟨⟨k₀, 0⟩, fun _ => []⟩ (.createUser 0x101000 1) = some s ∧
      s.processor.kernel.entered direct bootTick id = some entered ∧
      entered.isrCommonHandler direct sampleLayout (bootTick.frame s.processor.kernel) =
        some (.resume k₁ context) ∧
      k₁.running = some 1 ∧
      ∀ n < 15, load32 k₁.space.memory (context + UInt32.ofNat (4 * n)) =
        initialFrame.getD n 0 := by
  obtain ⟨pmm, k₀, s, hpmm, hinit, hstep, hfits, hr, hframe, hlive, honly⟩ := noMapUser
  have hpool : AboveKernel sampleLayout pmm.free := aboveKernel_pmmInit hpmm
  have hfaithful := ((faithful_start hpmm hinit fun _ => []).step hpool hfits hstep).2
  obtain ⟨e, k₁, context, hentered, hhandler, hrunning, -⟩ :=
    hfaithful.agrees.bootTick_switches hr (by decide) hlive honly
  have hother : k₁.running ≠ s.processor.kernel.running := by
    rw [hrunning, hr]
    decide
  obtain ⟨i, hi, -, hwords⟩ := (schedule_resumes hpmm hinit (.single ⟨_, hfits, hstep⟩)).1
    bootTick id e k₁ context (bootTick_fits hr) (hfaithful.boot hr).symm hentered hhandler hother
  obtain rfl : 1 = i := Option.some.inj (hrunning.symm.trans hi)
  rw [hframe] at hwords
  exact ⟨pmm, k₀, s, e, k₁, context, hpmm, hinit, hstep, hentered, hhandler, hrunning, hwords⟩

end LevOS
