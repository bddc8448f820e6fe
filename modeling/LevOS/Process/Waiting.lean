import LevOS.Process.RunningState

/-!
# How long a process waits

Between two of its turns a process is passed over by nobody, and the table has 16 slots. So a
process that is ready runs after at most 15 scheduling passes, whoever is created or exits
meanwhile and whatever else the kernel does.

## Main definitions

* `History.passes`, the scheduling passes between two moments

## Main results

* `history_bounded_waiting`
-/

namespace LevOS

open Foundation Memory

section Passes

variable {layout : Layout} {pool : Finset Nat} {k : Kernel}

/-- The process that has the processor has exited or is live. -/
theorem Owned.running_live (h : Owned layout pool k) {r : Slot} (hr : k.running = some r)
    (hstate : (k.processes r).state ≠ .zombie) : (k.processes r).live = true := by
  obtain ⟨r', hr', hoccupied⟩ := h.current
  obtain rfl : r = r' := Option.some.inj (hr.symm.trans hr')
  rcases hoccupied with rfl | ⟨-, hused⟩
  · exact h.live_zero
  · cases hcase : (k.processes r).state with
    | unused => exact absurd hcase hused
    | ready => simp [Process.live, hcase]
    | running => simp [Process.live, hcase]
    | zombie => exact absurd hcase hstate

/-- A pass gives the processor to someone if a live process waits for it. -/
theorem Owned.picks_ne_none (h : Owned layout pool k) {p : Slot}
    (hlive : (k.processes p).live = true) (hwaits : k.running ≠ some p) :
    k.picks layout ≠ none := by
  obtain ⟨r, hr, -⟩ := h.current
  have hne : p ≠ r := fun heq => hwaits (heq ▸ hr)
  have hscan : ¬ (k.processCount < 2 ∧ (k.processes r).state ≠ .zombie) := by
    rintro ⟨hfew, hstate⟩
    exact absurd (Kernel.two_le_processCount hne hlive (h.running_live hr hstate))
      (Nat.not_le.mpr hfew)
  have hpicks : k.picks layout = k.nextLive.or (some r) := by
    rw [Kernel.picks, hr]
    refine (if_neg hscan).trans ?_
    rw [Kernel.processNextRoundRobin_snd, hr]
  rw [hpicks]
  cases k.nextLive <;> simp

end Passes

namespace History

variable {access : Access} {layout : Layout} {k₀ : Kernel} (h : History access layout k₀)

/-- The scheduling passes between two moments. -/
def passes (t t' : ℕ) : Finset ℕ := (Finset.Ico t t').filter fun s => (h.call s).schedules = true

variable {h} {pool : Finset Nat}

/-- Every scheduling pass dispatches someone while a live process waits. -/
theorem dispatched_of_schedules (hstart : TableRun.Invariant layout pool ⟨k₀, 0⟩) {t : ℕ}
    (ht : t ≤ h.length) (hcall : (h.call t).schedules = true) {p : Slot} (hlive : h.Live t p)
    (hwaits : (h.kernel t).running ≠ some p) : h.dispatched t ≠ none := by
  have hpicks := (invariant hstart ht).owned.picks_ne_none hlive hwaits
  rw [dispatched]
  cases hkind : h.call t with
  | tick _ => exact hpicks
  | yield _ => exact hpicks
  | create _ _ => rw [hkind] at hcall; cases hcall
  | createUser _ _ => rw [hkind] at hcall; cases hcall
  | terminate => rw [hkind] at hcall; cases hcall
  | other _ _ => rw [hkind] at hcall; cases hcall

end History

/-- No process starves: in any history of creations, exits and scheduling passes, a process
that stays ready gets the processor within 15 passes. -/
theorem history_bounded_waiting {access : Access} {layout : Layout} {bytes : Pmm → Memory}
    {info : UInt32} {fuel : Nat} {pmm : Pmm} {memory : Memory} {esp0 : UInt32} {k₀ : Kernel}
    (hpmm : Pmm.pmmInit bytes layout.kernelEnd info fuel = some pmm)
    (hinit : schedulerInit access layout (Kernel.boot layout memory pmm esp0) = some k₀)
    (h : History access layout k₀) (p : Slot) (t t' : ℕ) (htt' : t ≤ t') (ht' : t' ≤ h.length)
    (hlive : ∀ s, t ≤ s → s < t' → h.Live s p) (hpasses : 15 ≤ (h.passes t t').card) :
    ∃ s, t ≤ s ∧ s ≤ t' ∧ (h.kernel s).running = some p := by
  have hstart := TableRun.invariant_start hpmm hinit
  -- while the process only waits, each pass brings the cursor nearer to it
  by_contra hnone
  have hwaits (s : ℕ) (hts : t ≤ s) (hst' : s ≤ t') : (h.kernel s).running ≠ some p :=
    fun hrunning => hnone ⟨s, hts, hst', hrunning⟩
  have haway (s : ℕ) (hts : t ≤ s) (hst' : s ≤ t') : (h.kernel s).running.getD 0 ≠ p := by
    obtain ⟨r, hr, -⟩ := (History.invariant hstart (hst'.trans ht')).owned.current
    have hr : (h.kernel s).running = some r := hr
    rw [hr, Option.getD_some]
    exact fun heq => hwaits s hts hst' (heq ▸ hr)
  have hrounds := History.rounds (h := h) hstart
  have hmoves : h.passes t t' ⊆ (Finset.Ico t t').filter fun s => h.dispatched s ≠ none := by
    intro s hs
    obtain ⟨hinside, hcall⟩ := Finset.mem_filter.mp hs
    obtain ⟨hts, hst'⟩ := Finset.mem_Ico.mp hinside
    exact Finset.mem_filter.mpr ⟨hinside, History.dispatched_of_schedules hstart (by omega) hcall
      (hlive s hts hst') (hwaits s hts hst'.le)⟩
  -- and the cursor starts at most 15 places away
  have hcount := Finset.card_le_card hmoves
  have hnearer := hrounds.moves_le htt' ht' hlive haway
  have hfirst : place p ((h.kernel t).running.getD 0) ≠ 0 := fun hzero =>
    haway t le_rfl htt' (place_inj (hzero.trans (place_self p).symm))
  have hlast := place_lt p ((h.kernel t').running.getD 0)
  omega

/-- The state after a tick. -/
def TableRun.ticked (run : TableRun) : TableRun :=
  (run.step direct sampleLayout (.tick 0x117000)).getD run

/-- While the bootstrap process and another one are all there is, a tick runs one of them. -/
theorem TableRun.Invariant.tick_either {pool : Finset Nat} {run : TableRun}
    (hinv : TableRun.Invariant sampleLayout pool run)
    (hlive : ∀ x, (run.kernel.processes x).live = true ↔ x = 0 ∨ x = 1)
    (hrunning : run.kernel.running = some 0 ∨ run.kernel.running = some 1) :
    ∃ k', run.step direct sampleLayout (.tick 0x117000) = some ⟨k', run.created⟩ ∧
      (∀ x, (k'.processes x).live = true ↔ x = 0 ∨ x = 1) ∧
      (k'.running = some 0 ∨ k'.running = some 1) := by
  rcases hrunning with hzero | hother
  · obtain ⟨k', hstep, -, hnext, hpair⟩ := hinv.tick_pair (i := 0) (j := 1) (by decide) hlive hzero
    exact ⟨k', hstep, fun x => (hpair x).trans or_comm, Or.inr hnext⟩
  · obtain ⟨k', hstep, -, hnext, hpair⟩ := hinv.tick_pair (i := 1) (j := 0) (by decide)
      (fun x => (hlive x).trans or_comm) hother
    exact ⟨k', hstep, hpair, Or.inl hnext⟩

/-- Tick after tick, they share the processor. -/
theorem TableRun.Invariant.ticks {pool : Finset Nat} {run : TableRun}
    (hinv : TableRun.Invariant sampleLayout pool run)
    (hlive : ∀ x, (run.kernel.processes x).live = true ↔ x = 0 ∨ x = 1)
    (hrunning : run.kernel.running = some 0 ∨ run.kernel.running = some 1) (t : ℕ) :
    TableRun.Invariant sampleLayout pool (TableRun.ticked^[t] run) ∧
      (∀ x, ((TableRun.ticked^[t] run).kernel.processes x).live = true ↔ x = 0 ∨ x = 1) ∧
      ((TableRun.ticked^[t] run).kernel.running = some 0 ∨
        (TableRun.ticked^[t] run).kernel.running = some 1) ∧
      (TableRun.ticked^[t] run).step direct sampleLayout (.tick 0x117000) =
        some (TableRun.ticked^[t + 1] run) := by
  induction t with
  | zero =>
    obtain ⟨k', hstep, -⟩ := hinv.tick_either hlive hrunning
    refine ⟨hinv, hlive, hrunning, ?_⟩
    rw [Function.iterate_zero, id, Function.iterate_one, TableRun.ticked, hstep]
    rfl
  | succ t ih =>
    obtain ⟨hinv, hlive, hrunning, hstep⟩ := ih
    obtain ⟨k', hnext, hlive', hrunning'⟩ := hinv.tick_either hlive hrunning
    have heq := Option.some.inj (hstep.symm.trans hnext)
    have hinv' := hinv.step ⟨_, hnext⟩
    rw [← heq] at hinv'
    have hlive'' : ∀ x, ((TableRun.ticked^[t + 1] run).kernel.processes x).live = true ↔
        x = 0 ∨ x = 1 := by
      rw [heq]
      exact hlive'
    have hrunning'' : (TableRun.ticked^[t + 1] run).kernel.running = some 0 ∨
        (TableRun.ticked^[t + 1] run).kernel.running = some 1 := by
      rw [heq]
      exact hrunning'
    refine ⟨hinv', hlive'', hrunning'', ?_⟩
    -- and one more tick leads on from there
    obtain ⟨k'', hlast, -⟩ := TableRun.Invariant.tick_either hinv' hlive'' hrunning''
    rw [Function.iterate_succ_apply' TableRun.ticked (t + 1), TableRun.ticked, hlast]
    rfl

/-- A process is created, and runs within the next fifteen ticks. -/
theorem history_bounded_waiting_ticks :
    ∃ (k₀ : Kernel) (h : History direct sampleLayout k₀), h.length = 16 ∧
      ∃ s, 1 ≤ s ∧ s ≤ 16 ∧ (h.kernel s).running = some 1 := by
  obtain ⟨pmm, k₀, process, m, p, hpmm, hinit, hcreate, hfresh, -, -, -, hrunning, htable, -⟩ :=
    noMapCreate
  set k₁ := k₀.enterProcess 1 process { k₀.space with memory := m, pmm := p } with hk₁
  have hpair : ∀ x, (k₁.processes x).live = true ↔ x = 0 ∨ x = 1 :=
    live_enterProcess_boot hfresh.state htable _
  have hcall₀ : TableRun.step direct sampleLayout ⟨k₀, 0⟩ (.create 0x101000 0) = some ⟨k₁, 1⟩ := by
    rw [TableRun.step, hcreate]
    rfl
  have hinv₁ := (TableRun.invariant_start hpmm hinit).step ⟨_, hcall₀⟩
  have hticks := hinv₁.ticks hpair (Or.inl hrunning)
  -- one creation, then ticks only
  let h : History direct sampleLayout k₀ :=
    { length := 16
      run := fun t => Nat.casesOn t ⟨k₀, 0⟩ fun t => TableRun.ticked^[t] ⟨k₁, 1⟩
      call := fun t => if t = 0 then .create 0x101000 0 else .tick 0x117000
      start := rfl
      step := fun t _ => by
        cases t with
        | zero => exact hcall₀
        | succ t => exact (hticks t).2.2.2 }
  refine ⟨k₀, h, rfl, ?_⟩
  refine history_bounded_waiting hpmm hinit h 1 1 16 (by decide) le_rfl (fun s hs _ => ?_) ?_
  · obtain ⟨t, rfl⟩ := Nat.exists_eq_add_of_le' hs
    exact ((hticks t).2.1 1).mpr (Or.inr rfl)
  · have hall : h.passes 1 16 = Finset.Ico 1 16 := by
      refine Finset.filter_true_of_mem fun s hs => ?_
      have hone := (Finset.mem_Ico.mp hs).1
      change (if s = 0 then Call.create 0x101000 0 else .tick 0x117000).schedules = true
      rw [if_neg (by omega)]
      rfl
    rw [hall]
    decide

end LevOS
