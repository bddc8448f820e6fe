import LevOS.Process.RoundRobin

/-!
# The state of the running process

`process_next_round_robin` marks the slot it chooses as running, and nothing marks the
slot that has to give way as ready again. Only the bootstrap process runs before the
first switch, and it cannot exit, so from the first switch on two slots are marked.

## Main definitions

* `OneRunning`, the slot marked as running is the one that runs

## Main results

* `History.oneRunning_iff`
-/

namespace LevOS

open Foundation Memory

/-- Exactly the slot that runs is marked as running, and every other live slot as ready. -/
structure OneRunning (k : Kernel) : Prop where
  running : ∃ r, k.running = some r ∧ ∀ i, (k.processes i).state = .running ↔ i = r
  ready : ∀ i, k.running ≠ some i → (k.processes i).live = true → (k.processes i).state = .ready

/-- The call is a scheduling step. -/
def Call.schedules : Call → Bool
  | .tick _ | .yield _ => true
  | .create _ _ | .createUser _ _ | .terminate | .other _ _ => false

section Passes

variable {access : Access} {layout : Layout} {pool : Finset Nat} {k k' : Kernel}

/-- The bootstrap process is always marked as running. -/
theorem Owned.bootstrap_running (h : Owned layout pool k) : (k.processes 0).state = .running := by
  rw [h.bootstrap]
  rfl

/-- If one slot is marked, it is the bootstrap process that runs. -/
theorem OneRunning.running_zero (h : OneRunning k) (howned : Owned layout pool k) :
    k.running = some 0 := by
  obtain ⟨r, hr, hmarked⟩ := h.running
  rw [hr, ← (hmarked 0).mp howned.bootstrap_running]

/-- As long as no other process is live, only the bootstrap process is marked. -/
theorem Owned.oneRunning_of_alone (h : Owned layout pool k) (hr : k.running = some 0)
    (halone : ∀ i ≠ 0, (k.processes i).live = false) : OneRunning k := by
  constructor
  · refine ⟨0, hr, fun i => ⟨fun hrunning => ?_, fun hi => hi ▸ h.bootstrap_running⟩⟩
    by_contra hi
    have hdead := halone i hi
    rw [Process.live, hrunning] at hdead
    cases hdead
  · intro i hi hlive
    have hne : i ≠ 0 := by
      rintro rfl
      exact hi hr
    rw [halone i hne] at hlive
    cases hlive

/-- A pass by the bootstrap process alone leaves the table as it is. -/
theorem Owned.schedule_alone (h : Owned layout pool k) (hr : k.running = some 0)
    (halone : ∀ i ≠ 0, (k.processes i).live = false) {context next : UInt32}
    (hschedule : k.schedule access layout context = some (k', next)) :
    k'.running = some 0 ∧ k'.processes = k.processes := by
  obtain ⟨r, hr', ⟨-, -, rfl, -⟩ | ⟨i, space, hne, hnext, -, -, -⟩⟩ := h.schedule_cases hschedule
  · exact ⟨hr, rfl⟩
  · obtain rfl : 0 = r := Option.some.inj (hr.symm.trans hr')
    have hlive := Kernel.live_of_nextLive hnext
    rw [halone i hne] at hlive
    cases hlive

/-- A pass by the bootstrap process that finds another live process marks a second slot. -/
theorem Owned.schedule_not_alone (h : Owned layout pool k) (hr : k.running = some 0) {i : Slot}
    (hi : i ≠ 0) (hlive : (k.processes i).live = true) {context next : UInt32}
    (hschedule : k.schedule access layout context = some (k', next)) :
    k'.running ≠ some 0 := by
  obtain ⟨r, hr', ⟨hfew, -, -, -⟩ | ⟨j, space, hne, -, -, -, rfl⟩⟩ := h.schedule_cases hschedule
  · have hzero : (k.processes 0).live = true := by
      rw [Process.live, h.bootstrap_running]
      rfl
    exact absurd (Kernel.two_le_processCount hi hlive hzero) (Nat.not_le.mpr hfew)
  · obtain rfl : 0 = r := Option.some.inj (hr.symm.trans hr')
    exact fun hzero => hne (Option.some.inj hzero)

end Passes

namespace History

variable {access : Access} {layout : Layout} {k₀ : Kernel} {h : History access layout k₀}
  {pool : Finset Nat}

/-- A scheduling step of a history is a pass, from a state that differs in the count of ticks. -/
theorem schedule_of_schedules {t : ℕ} (ht : t < h.length) (hcall : (h.call t).schedules = true) :
    ∃ quantum context next, Kernel.schedule access layout
      { h.kernel t with quantumTicks := quantum } context = some (h.kernel (t + 1), next) := by
  have hstep := h.step t ht
  cases hkind : h.call t with
  | tick context =>
    rw [hkind] at hstep
    obtain ⟨⟨k, next⟩, htick, hnext⟩ := Option.map_eq_some_iff.mp hstep
    exact ⟨_, context, next, by rw [kernel, kernel, ← hnext]; exact htick⟩
  | yield context =>
    rw [hkind] at hstep
    obtain ⟨⟨k, next⟩, hyield, hnext⟩ := Option.map_eq_some_iff.mp hstep
    exact ⟨_, context, next, by rw [kernel, kernel, ← hnext]; exact hyield⟩
  | create _ _ => rw [hkind] at hcall; cases hcall
  | createUser _ _ => rw [hkind] at hcall; cases hcall
  | terminate => rw [hkind] at hcall; cases hcall
  | other _ _ => rw [hkind] at hcall; cases hcall

/-- Only scheduling steps change the running slot. -/
theorem running_zero (hstart : TableRun.Invariant layout pool ⟨k₀, 0⟩) (hzero : k₀.running = some 0)
    {t : ℕ} (ht : t ≤ h.length)
    (hkeep : ∀ s < t, (h.call s).schedules = true → (h.kernel s).running = some 0 →
      (h.kernel (s + 1)).running = some 0) :
    (h.kernel t).running = some 0 := by
  induction t with
  | zero => rwa [kernel, h.start]
  | succ t ih =>
    have hrunning := ih (by omega) fun s hs => hkeep s (by omega)
    by_cases hcall : (h.call t).schedules = true
    · exact hkeep t (Nat.lt_succ_self t) hcall hrunning
    · have hnone : h.dispatched t = none := by
        rw [dispatched]
        cases hkind : h.call t with
        | tick _ => rw [hkind] at hcall; exact absurd rfl hcall
        | yield _ => rw [hkind] at hcall; exact absurd rfl hcall
        | create _ _ => rfl
        | createUser _ _ => rfl
        | terminate => rfl
        | other _ _ => rfl
      rw [(turn hstart ht).stays hnone, hrunning]

/-- A scheduling step by the bootstrap process keeps it running exactly if no other process
is live, and then leaves the table as it is. -/
theorem schedule_running_iff (hstart : TableRun.Invariant layout pool ⟨k₀, 0⟩) {t : ℕ}
    (ht : t < h.length) (hcall : (h.call t).schedules = true)
    (hrunning : (h.kernel t).running = some 0) :
    ((h.kernel (t + 1)).running = some 0 ↔ ∀ i ≠ 0, ¬ h.Live t i) ∧
      ((∀ i ≠ 0, ¬ h.Live t i) → (h.kernel (t + 1)).processes = (h.kernel t).processes) := by
  obtain ⟨quantum, context, next, hschedule⟩ := schedule_of_schedules ht hcall
  have howned := (invariant hstart ht.le).owned
  have hcounted : Owned layout pool { h.kernel t with quantumTicks := quantum } :=
    howned.congr (.refl howned.sound) howned.current rfl rfl (.refl rfl)
  have hdead (halone : ∀ i ≠ 0, ¬ h.Live t i) (i : Slot) (hi : i ≠ 0) :
      ((h.kernel t).processes i).live = false := Bool.not_eq_true _ ▸ halone i hi
  refine ⟨⟨fun hstays i hi hlive => ?_, fun halone => ?_⟩, fun halone => ?_⟩
  · exact hcounted.schedule_not_alone hrunning hi hlive hschedule hstays
  · exact (hcounted.schedule_alone hrunning (hdead halone) hschedule).1
  · exact (hcounted.schedule_alone hrunning (hdead halone) hschedule).2

end History

/-- In a run from `scheduler_init` the running slot is the one that is marked, after every
scheduling step, exactly if no scheduling step is taken while a created process is live. -/
theorem history_oneRunning_iff {access : Access} {layout : Layout} {bytes : Pmm → Memory}
    {info : UInt32} {fuel : Nat} {pmm : Pmm} {memory : Memory} {esp0 : UInt32} {k₀ : Kernel}
    (hpmm : Pmm.pmmInit bytes layout.kernelEnd info fuel = some pmm)
    (hinit : schedulerInit access layout (Kernel.boot layout memory pmm esp0) = some k₀)
    (h : History access layout k₀) :
    (∀ t < h.length, (h.call t).schedules = true → OneRunning (h.kernel (t + 1))) ↔
      ∀ t < h.length, (h.call t).schedules = true → ∀ i ≠ 0, ¬ h.Live t i := by
  have hstart := TableRun.invariant_start hpmm hinit
  have hzero : k₀.running = some 0 := by
    obtain ⟨m, rfl⟩ := schedulerInit_eq hinit
    rfl
  constructor
  · intro hone t ht hcall
    have hkept (s : ℕ) (hs : s < h.length) (hcall : (h.call s).schedules = true) :
        (h.kernel (s + 1)).running = some 0 :=
      (hone s hs hcall).running_zero (History.invariant hstart hs).owned
    have hrunning := History.running_zero hstart hzero ht.le
      fun s hs hcall _ => hkept s (hs.trans ht) hcall
    exact (History.schedule_running_iff hstart ht hcall hrunning).1.mp (hkept t ht hcall)
  · intro halone t ht hcall
    have hrunning := History.running_zero hstart hzero ht.le fun s hs hcall hrunning =>
      (History.schedule_running_iff hstart (hs.trans ht) hcall hrunning).1.mpr
        (halone s (hs.trans ht) hcall)
    obtain ⟨hstays, hsame⟩ := History.schedule_running_iff hstart ht hcall hrunning
    have howned : Owned layout pmm.free (h.kernel (t + 1)) := (History.invariant hstart ht).owned
    refine howned.oneRunning_of_alone (hstays.mpr (halone t ht hcall)) fun i hi => ?_
    rw [hsame (halone t ht hcall)]
    exact Bool.not_eq_true _ ▸ halone t ht hcall i hi

/-- A boot and a tick: the bootstrap process goes on. -/
theorem history_oneRunning_tick :
    ∃ (k₀ : Kernel) (h : History direct sampleLayout k₀),
      h.length = 1 ∧ (h.call 0).schedules = true ∧ OneRunning (h.kernel 1) := by
  obtain ⟨pmm, k₀, hpmm, hinit, -, -⟩ := noMapBoot
  have howned := (TableRun.invariant_start hpmm hinit).owned
  have hcounted : Owned sampleLayout pmm.free { k₀ with quantumTicks := k₀.quantumTicks + 1 } :=
    howned.congr (.refl howned.sound) howned.current rfl rfl (.refl rfl)
  obtain ⟨k₁, next, hschedule⟩ := hcounted.schedule_direct 0x117000
  let h : History direct sampleLayout k₀ :=
    { length := 1
      run := fun t => if t = 0 then ⟨k₀, 0⟩ else ⟨k₁, 0⟩
      call := fun _ => .tick 0x117000
      start := rfl
      step := fun t ht => by
        obtain rfl : t = 0 := by omega
        exact congrArg (Option.map fun result => TableRun.mk result.1 0) hschedule }
  refine ⟨k₀, h, rfl, rfl, ?_⟩
  refine (history_oneRunning_iff hpmm hinit h).mpr (fun t ht _ i hi hlive => ?_) 0 Nat.one_pos rfl
  obtain rfl : t = 0 := Nat.lt_one_iff.mp ht
  obtain ⟨m, hk₀⟩ := schedulerInit_eq hinit
  have htable : k₀.processes i = Process.empty := by
    rw [hk₀]
    exact initialProcesses_of_ne sampleLayout hi
  have hempty : (k₀.processes i).live = true := hlive
  rw [htable] at hempty
  cases hempty

/-- A process is created and a tick follows: its slot and that of the bootstrap process are
both marked. -/
theorem history_two_running :
    ∃ (pmm : Pmm) (k₀ : Kernel) (h : History direct sampleLayout k₀),
      Pmm.pmmInit (fun _ _ => 0) sampleLayout.kernelEnd 0 0 = some pmm ∧
      schedulerInit direct sampleLayout (Kernel.boot sampleLayout (fun _ => 0) pmm 0) = some k₀ ∧
      ¬ ∀ t < h.length, (h.call t).schedules = true → OneRunning (h.kernel (t + 1)) := by
  obtain ⟨pmm, k₀, process, m, p, hpmm, hinit, hcreate, hfresh, -, -, -, hrunning, htable, -⟩ :=
    noMapCreate
  set k₁ := k₀.enterProcess 1 process { k₀.space with memory := m, pmm := p } with hk₁
  have hcall₀ : TableRun.step direct sampleLayout ⟨k₀, 0⟩ (.create 0x101000 0) = some ⟨k₁, 1⟩ := by
    rw [TableRun.step, hcreate]
    rfl
  have hinv₁ := (TableRun.invariant_start hpmm hinit).step ⟨_, hcall₀⟩
  obtain ⟨k₂, hcall₁, -, hr₂, -⟩ := hinv₁.tick_pair (by decide)
    (live_enterProcess_boot hfresh.state htable _) hrunning
  have howned := (hinv₁.step ⟨_, hcall₁⟩).owned
  let h : History direct sampleLayout k₀ :=
    { length := 2
      run := fun t => [⟨k₀, 0⟩, ⟨k₁, 1⟩].getD t ⟨k₂, 1⟩
      call := fun t => if t = 0 then .create 0x101000 0 else .tick 0x117000
      start := rfl
      step := fun t ht => by
        interval_cases t
        · exact hcall₀
        · exact hcall₁ }
  refine ⟨pmm, k₀, h, hpmm, hinit, fun hone => ?_⟩
  have hzero := (hone 1 Nat.one_lt_two rfl).running_zero howned
  exact absurd (hr₂.symm.trans hzero) (by decide)

end LevOS
