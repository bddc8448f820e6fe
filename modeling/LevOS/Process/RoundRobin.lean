import LevOS.Process.TableRuns

/-!
# Round-robin scheduling

`process_next_round_robin` scans the table from the slot after the running one.
Processes come and go between the scans, on either side of the cursor, and with
one live process there is no scan at all. Still no process overtakes another.

## Main definitions

* `Kernel.picks`, the slot that a scheduling pass gives the processor to
* `History`, a run call by call

## Main results

* `history_no_overtaking`
-/

namespace LevOS

open Foundation Memory

/-! ## Scheduling passes -/

/-- The slot that `schedule` gives the processor to: the one which
`process_next_round_robin` returns, unless the pass ends before the call. -/
def Kernel.picks (layout : Layout) (k : Kernel) : Option Slot := do
  let current ← k.running
  if k.processCount < 2 ∧ (k.processes current).state ≠ .zombie then none
  else (k.processNextRoundRobin layout).2

/-- The slot that a call gives the processor to. -/
def Call.dispatches (layout : Layout) (k : Kernel) : Call → Option Slot
  | .tick _ | .yield _ => k.picks layout
  | .create _ _ | .createUser _ _ | .terminate | .other _ _ => none

section Passes

variable {access : Access} {layout : Layout} {pool : Finset Nat} {k k' : Kernel}

theorem Kernel.processNextRoundRobin_snd (layout : Layout) (k : Kernel) :
    (k.processNextRoundRobin layout).2 = k.nextLive.or k.running := by
  rw [Kernel.processNextRoundRobin]
  cases k.nextLive <;> rfl

theorem Kernel.picks_quantum (layout : Layout) (k : Kernel) (quantum : UInt32) :
    Kernel.picks layout { k with quantumTicks := quantum } = k.picks layout := by
  unfold Kernel.picks
  simp only [Kernel.processNextRoundRobin_snd]
  rfl

/-- A call enters a new process into a slot. -/
def Kernel.Enters (k k' : Kernel) (i : Slot) : Prop :=
  k'.nextPid ≠ k.nextPid ∧ k.vacantSlot = some i

/-- What a call that dispatches a slot, or none, does to the table. -/
structure Turn (k k' : Kernel) (dispatched : Option Slot) : Prop where
  picked : ∀ i, dispatched = some i → k.nextLive = some i ∧ k'.running = some i
  stays : dispatched = none → k'.running = k.running
  live : ∀ i, (k'.processes i).live = true → ¬ k.Enters k' i → (k.processes i).live = true

theorem Turn.idle (hrunning : k'.running = k.running)
    (hlive : ∀ i, (k'.processes i).live = true → ¬ k.Enters k' i → (k.processes i).live = true) :
    Turn k k' none :=
  ⟨fun i hi => (Option.some_ne_none i hi.symm).elim, fun _ => hrunning, hlive⟩

/-- Scheduling passes give the processor to the first live slot after the running one,
or leave the table alone. -/
theorem Owned.turn_schedule (h : Owned layout pool k) {context next : UInt32}
    (hschedule : k.schedule access layout context = some (k', next)) :
    Turn k k' (k.picks layout) := by
  obtain ⟨r, hr, ⟨hfew, halive, rfl, -⟩ | ⟨i, space, hne, hnext, -, -, heq⟩⟩ :=
    h.schedule_cases hschedule
  · have hnone : k.picks layout = none := by
      rw [Kernel.picks, hr]
      exact if_pos ⟨hfew, halive⟩
    rw [hnone]
    exact .idle rfl fun i hlive _ => hlive
  · -- a pass that ends early does not change the running slot
    have hscan : ¬ (k.processCount < 2 ∧ (k.processes r).state ≠ .zombie) := by
      intro hidle
      unfold Kernel.schedule at hschedule
      obtain ⟨r', hr', hrest⟩ := Option.bind_eq_some_iff.mp hschedule
      obtain rfl : r = r' := Option.some.inj (hr.symm.trans hr')
      split_ifs at hrest with hcase
      · have hsame := congrArg Kernel.running (Prod.mk.inj (Option.some.inj hrest)).1
        rw [heq] at hsame
        exact hne (Option.some.inj (hr.symm.trans hsame)).symm
      · exact hcase hidle
    have hsome : k.picks layout = some i := by
      rw [Kernel.picks, hr]
      refine (if_neg hscan).trans ?_
      rw [Kernel.processNextRoundRobin_snd, hnext]
      rfl
    rw [hsome]
    refine ⟨fun j hj => ?_, fun hnone => (Option.some_ne_none i hnone).elim, fun j hlive _ => ?_⟩
    · obtain rfl : i = j := Option.some.inj hj
      exact ⟨hnext, by rw [heq]; rfl⟩
    · rw [heq] at hlive
      rcases (Kernel.live_dispatch_iff layout { k with space := space } i j).mp hlive with rfl | hlive
      · exact Kernel.live_of_nextLive hnext
      · exact hlive

/-- Two live processes take turns. -/
theorem Owned.schedule_pair (h : Owned layout pool k) {i j : Slot} (hij : i ≠ j)
    (hpair : ∀ x, (k.processes x).live = true ↔ x = i ∨ x = j) (hr : k.running = some i)
    {context next : UInt32} (hschedule : k.schedule access layout context = some (k', next)) :
    k.picks layout = some j ∧ k'.running = some j ∧
      ∀ x, (k'.processes x).live = true ↔ x = j ∨ x = i := by
  have hi := (hpair i).mpr (.inl rfl)
  have hj := (hpair j).mpr (.inr rfl)
  have hturn := h.turn_schedule hschedule
  obtain ⟨r, hr', ⟨hfew, -, -, -⟩ | ⟨x, space, hne, hnext, -, -, rfl⟩⟩ := h.schedule_cases hschedule
  · -- two live processes are enough for a scan
    exact absurd (Kernel.two_le_processCount hij hi hj) (Nat.not_le.mpr hfew)
  obtain rfl : i = r := Option.some.inj (hr.symm.trans hr')
  obtain rfl : x = j := ((hpair x).mp (Kernel.live_of_nextLive hnext)).resolve_left hne
  refine ⟨?_, rfl, fun y => ?_⟩
  · rcases hpicks : k.picks layout with _ | y
    · have hstays := hturn.stays hpicks
      exact absurd (Option.some.inj (hstays.trans hr)) hne
    · exact (hturn.picked y hpicks).2.symm
  · refine (Kernel.live_dispatch_iff layout { k with space := space } x y).trans ?_
    rw [hpair]
    tauto

/-- A creation makes only the process live that it enters. -/
theorem Creation.turn {rejected : Prop} {pages : Nat} {result : Int32}
    (h : Creation rejected pages k k' result) : Turn k k' none := by
  cases h with
  | failed m pmm hshrinks hreason =>
    exact .idle rfl fun i hlive _ => hlive
  | entered slot process m pmm hvacant hfresh hpid =>
    refine .idle rfl fun i hlive henters => ?_
    -- a process number has been used up, so the slot is the one just entered
    have hi : i ≠ slot := by
      rintro rfl
      refine henters ⟨fun heq => ?_, hvacant⟩
      have hone : k.nextPid + 1 = k.nextPid := heq
      exact absurd hone (by simp)
    rwa [k.enterProcess_of_ne hi] at hlive

theorem Owned.turn_terminate (h : Owned layout pool k) :
    Turn k k.processTerminateCurrent none := by
  rcases h.terminate_cases with ⟨-, heq⟩ | ⟨r, -, -, heq⟩
  · rw [heq]
    exact .idle rfl fun i hlive _ => hlive
  · rw [heq]
    refine .idle rfl fun i hlive _ => ?_
    by_cases hi : i = r
    · rw [hi, k.setState_self r .zombie] at hlive
      cases hlive
    · rwa [k.setState_of_ne hi] at hlive

/-- What one call of a run does to the table. -/
theorem TableRun.Invariant.turn {run run' : TableRun} (h : Invariant layout pool run) {call : Call}
    (hcall : run.step access layout call = some run') :
    Turn run.kernel run'.kernel (call.dispatches layout run.kernel) := by
  cases call with
  | create entry argument =>
    obtain ⟨⟨k, result⟩, hcreate, rfl⟩ := Option.map_eq_some_iff.mp hcall
    exact (processCreate_creation h.owned.sound hcreate).turn
  | createUser image imageSize =>
    obtain ⟨⟨k, result⟩, hcreate, rfl⟩ := Option.map_eq_some_iff.mp hcall
    exact (processCreateUser_creation h.owned.sound hcreate).turn
  | tick context =>
    obtain ⟨⟨k, next⟩, htick, rfl⟩ := Option.map_eq_some_iff.mp hcall
    -- the handler counts the tick before the pass
    have hcounted : Owned layout pool
        { run.kernel with quantumTicks := run.kernel.quantumTicks + 1 } :=
      h.owned.congr (.refl h.owned.sound) h.owned.current rfl rfl (.refl rfl)
    have hturn := hcounted.turn_schedule htick
    rw [Kernel.picks_quantum] at hturn
    exact ⟨hturn.picked, hturn.stays, hturn.live⟩
  | yield context =>
    obtain ⟨⟨k, next⟩, hyield, rfl⟩ := Option.map_eq_some_iff.mp hcall
    exact h.owned.turn_schedule hyield
  | terminate =>
    obtain rfl := Option.some.inj hcall
    exact h.owned.turn_terminate
  | other memory cr3 =>
    obtain rfl := Option.some.inj hcall
    exact .idle rfl fun i hlive _ => hlive

end Passes

/-! ## Histories -/

/-- A run from a state of the kernel, call by call. -/
structure History (access : Access) (layout : Layout) (k₀ : Kernel) where
  length : ℕ
  run : ℕ → TableRun
  call : ℕ → Call
  start : run 0 = ⟨k₀, 0⟩
  step : ∀ t < length, (run t).step access layout (call t) = some (run (t + 1))

namespace History

variable {access : Access} {layout : Layout} {k₀ : Kernel} (h : History access layout k₀)

/-- The kernel before a call. -/
def kernel (t : ℕ) : Kernel := (h.run t).kernel

/-- The slot that a call gives the processor to. -/
def dispatched (t : ℕ) : Option Slot := (h.call t).dispatches layout (h.kernel t)

/-- A process is `READY` or `RUNNING` before a call. -/
def Live (t : ℕ) (i : Slot) : Prop := ((h.kernel t).processes i).live = true

/-- No new process takes the slot in the calls between two moments. -/
def Keeps (i : Slot) (t t' : ℕ) : Prop :=
  ∀ s, t < s → s < t' → ¬ (h.kernel s).Enters (h.kernel (s + 1)) i

variable {h} {pool : Finset Nat}

theorem invariant (hstart : TableRun.Invariant layout pool ⟨k₀, 0⟩) {t : ℕ} (ht : t ≤ h.length) :
    TableRun.Invariant layout pool (h.run t) := by
  induction t with
  | zero => exact h.start ▸ hstart
  | succ t ih => exact (ih (by omega)).step ⟨h.call t, h.step t ht⟩

theorem turn (hstart : TableRun.Invariant layout pool ⟨k₀, 0⟩) {t : ℕ} (ht : t < h.length) :
    Turn (h.kernel t) (h.kernel (t + 1)) (h.dispatched t) :=
  (invariant hstart ht.le).turn (h.step t ht)

/-- The running slot moves in rounds over the live ones. -/
theorem rounds (hstart : TableRun.Invariant layout pool ⟨k₀, 0⟩) :
    Rounds h.length (fun t => (h.kernel t).running.getD 0) h.Live
      (fun t => h.dispatched t ≠ none) := by
  refine ⟨fun t ht hmoves => ?_, fun t ht hstays => ?_⟩
  · obtain ⟨i, hi⟩ := Option.ne_none_iff_exists'.mp hmoves
    obtain ⟨hnext, hrunning⟩ := (turn hstart ht).picked i hi
    obtain ⟨r, hr, -⟩ := (invariant hstart ht.le).owned.current
    have hr : (h.kernel t).running = some r := hr
    simp only [hr, hrunning, Option.getD_some]
    exact Kernel.next_of_nextLive hr hnext
  · exact congrArg (Option.getD · 0) ((turn hstart ht).stays (not_not.mp hstays))

/-- A process that is live at some moment has been live since it took its slot. -/
theorem live_of_keeps (hstart : TableRun.Invariant layout pool ⟨k₀, 0⟩) {i : Slot} {t t' : ℕ}
    (ht' : t' ≤ h.length) (hlive : h.Live t' i) (hkeeps : h.Keeps i t t') {s : ℕ} (hts : t < s)
    (hst' : s ≤ t') : h.Live s i := by
  -- backwards from the later moment: only a creation makes a slot live
  induction t', hst' using Nat.le_induction with
  | base => exact hlive
  | succ t' hst' ih =>
    refine ih (by omega) ?_ fun s hts hst => hkeeps s hts (by omega)
    exact (turn hstart ht').live i hlive (hkeeps t' (by omega) (Nat.lt_succ_self t'))

end History

/-- Round-robin never overtakes: in any history of creations, exits and scheduling
passes, between two consecutive dispatches of a process every other process that
stays live is dispatched once; and no slot is dispatched that is unused or a zombie. -/
theorem history_no_overtaking {access : Access} {layout : Layout} {bytes : Pmm → Memory}
    {info : UInt32} {fuel : Nat} {pmm : Pmm} {memory : Memory} {esp0 : UInt32} {k₀ : Kernel}
    (hpmm : Pmm.pmmInit bytes layout.kernelEnd info fuel = some pmm)
    (hinit : schedulerInit access layout (Kernel.boot layout memory pmm esp0) = some k₀)
    (h : History access layout k₀) :
    (∀ t < h.length, ∀ i, h.dispatched t = some i →
        ((h.kernel t).processes i).state ≠ .zombie ∧
          ((h.kernel t).processes i).state ≠ .unused) ∧
      ∀ (p : Slot) (t t' : ℕ), t < t' → t' < h.length →
        h.dispatched t = some p → h.dispatched t' = some p → h.Keeps p t t' →
        (∀ s, t < s → s < t' → h.dispatched s ≠ some p) →
        ∀ q ≠ p, (∀ s, t < s → s ≤ t' → h.Live s q) →
          ∃! s, (t < s ∧ s < t') ∧ h.dispatched s = some q := by
  have hstart := TableRun.invariant_start hpmm hinit
  refine ⟨fun t ht i hi => ?_, fun p t t' htt' ht' hfirst hsecond hkeeps haway q hq hlive => ?_⟩
  · have hlive := Kernel.live_of_nextLive ((History.turn hstart ht).picked i hi).1
    constructor
    · intro hzombie
      rw [Process.live, hzombie] at hlive
      cases hlive
    · intro hunused
      rw [Process.live, hunused] at hlive
      cases hlive
  · have hrounds := History.rounds (h := h) hstart
    have hcursor {s : ℕ} (hs : s < h.length) {i : Slot} (hi : h.dispatched s = some i) :
        (h.kernel (s + 1)).running.getD 0 = i := by
      rw [((History.turn hstart hs).picked i hi).2, Option.getD_some]
    -- a round ends at a slot exactly when the slot is dispatched
    have hends (s : ℕ) (hs : s < h.length) (i : Slot) :
        h.dispatched s ≠ none ∧ (h.kernel (s + 1)).running.getD 0 = i ↔ h.dispatched s = some i := by
      constructor
      · rintro ⟨hmoves, hrunning⟩
        obtain ⟨j, hj⟩ := Option.ne_none_iff_exists'.mp hmoves
        rw [hj, ← hrunning, hcursor hs hj]
      · intro hi
        exact ⟨by rw [hi]; simp, hcursor hs hi⟩
    -- the process itself stays live too, being dispatched at the end
    have hlivep : h.Live t' p :=
      Kernel.live_of_nextLive ((History.turn hstart ht').picked p hsecond).1
    obtain ⟨s, ⟨hs, hvisit⟩, hunique⟩ := hrounds.visits_once htt' ht' hq
      (hcursor (htt'.trans ht') hfirst) (by rw [hsecond]; simp) (hcursor ht' hsecond)
      (fun s hts hst' hmoves hp =>
        haway s hts hst' ((hends s (hst'.trans ht') p).mp ⟨hmoves, hp⟩))
      (fun s hts hst' => History.live_of_keeps hstart ht'.le hlivep hkeeps hts hst') hlive
    refine ⟨s, ⟨hs, (hends s (hs.2.trans ht') q).mp hvisit⟩, fun s' hs' => hunique s' ?_⟩
    exact ⟨hs'.1, (hends s' (hs'.1.2.trans ht') q).mpr hs'.2⟩

/-- After a boot and a creation the bootstrap process and the new one are live. -/
theorem live_enterProcess_boot {k : Kernel} {process : Process} (hstate : process.state = .ready)
    (htable : k.processes = initialProcesses sampleLayout) (space : Space) (x : Slot) :
    ((k.enterProcess 1 process space).processes x).live = true ↔ x = 0 ∨ x = 1 := by
  by_cases hx : x = 1
  · rw [hx, k.enterProcess_self, Process.live, hstate]
    exact ⟨fun _ => .inr rfl, fun _ => rfl⟩
  · rw [k.enterProcess_of_ne hx, htable]
    by_cases hzero : x = 0
    · rw [hzero, initialProcesses_zero]
      exact ⟨fun _ => .inl rfl, fun _ => rfl⟩
    · rw [initialProcesses_of_ne sampleLayout hzero]
      exact ⟨fun hlive => (Bool.false_ne_true hlive).elim, fun hor => (hor.elim hzero hx).elim⟩

/-- Each tick gives the processor to the other one of two live processes. -/
theorem TableRun.Invariant.tick_pair {pool : Finset Nat} {k : Kernel} {created : Nat} {i j : Slot}
    (hinv : TableRun.Invariant sampleLayout pool ⟨k, created⟩) (hij : i ≠ j)
    (hpair : ∀ x, (k.processes x).live = true ↔ x = i ∨ x = j) (hr : k.running = some i) :
    ∃ k', TableRun.step direct sampleLayout ⟨k, created⟩ (.tick 0x117000) = some ⟨k', created⟩ ∧
      k.picks sampleLayout = some j ∧ k'.running = some j ∧
      ∀ x, (k'.processes x).live = true ↔ x = j ∨ x = i := by
  have hcounted : Owned sampleLayout pool { k with quantumTicks := k.quantumTicks + 1 } :=
    hinv.owned.congr (.refl hinv.owned.sound) hinv.owned.current rfl rfl (.refl rfl)
  obtain ⟨k', next, hschedule⟩ := hcounted.schedule_direct 0x117000
  obtain ⟨hpicks, hnext⟩ := hcounted.schedule_pair hij hpair hr hschedule
  refine ⟨k', ?_, Kernel.picks_quantum sampleLayout k _ ▸ hpicks, hnext⟩
  exact congrArg (Option.map fun result => TableRun.mk result.1 created) hschedule

/-- A process is created and three ticks follow: between the first and the last one the
bootstrap process gets its turn. -/
theorem history_no_overtaking_ticks :
    ∃ (k₀ : Kernel) (h : History direct sampleLayout k₀), h.dispatched 1 = some 1 ∧
      h.dispatched 3 = some 1 ∧ ∃! s, (1 < s ∧ s < 3) ∧ h.dispatched s = some 0 := by
  obtain ⟨pmm, k₀, process, m, p, hpmm, hinit, hcreate, hfresh, -, -, -, hrunning, htable, -⟩ :=
    noMapCreate
  set k₁ := k₀.enterProcess 1 process { k₀.space with memory := m, pmm := p } with hk₁
  have hpair : ∀ x, (k₁.processes x).live = true ↔ x = 0 ∨ x = 1 :=
    live_enterProcess_boot hfresh.state htable _
  have hstart := TableRun.invariant_start hpmm hinit
  have hcall₀ : TableRun.step direct sampleLayout ⟨k₀, 0⟩ (.create 0x101000 0) = some ⟨k₁, 1⟩ := by
    rw [TableRun.step, hcreate]
    rfl
  have hinv₁ := hstart.step ⟨_, hcall₀⟩
  -- three ticks: the new process, the bootstrap process, the new one again
  obtain ⟨k₂, hcall₁, hpicks₁, hr₂, hpair₂⟩ := hinv₁.tick_pair (by decide) hpair hrunning
  have hinv₂ := hinv₁.step ⟨_, hcall₁⟩
  obtain ⟨k₃, hcall₂, hpicks₂, hr₃, hpair₃⟩ := hinv₂.tick_pair (by decide) hpair₂ hr₂
  have hinv₃ := hinv₂.step ⟨_, hcall₂⟩
  obtain ⟨k₄, hcall₃, hpicks₃, -, -⟩ := hinv₃.tick_pair (by decide) hpair₃ hr₃
  let h : History direct sampleLayout k₀ :=
    { length := 4
      run := fun t => [⟨k₀, 0⟩, ⟨k₁, 1⟩, ⟨k₂, 1⟩, ⟨k₃, 1⟩].getD t ⟨k₄, 1⟩
      call := fun t => if t = 0 then .create 0x101000 0 else .tick 0x117000
      start := rfl
      step := fun t ht => by
        interval_cases t
        · exact hcall₀
        · exact hcall₁
        · exact hcall₂
        · exact hcall₃ }
  have hlive (s : ℕ) (hfirst : 1 < s) (hlast : s ≤ 3) : h.Live s 0 := by
    interval_cases s
    · exact (hpair₂ 0).mpr (.inr rfl)
    · exact (hpair₃ 0).mpr (.inl rfl)
  -- no process is created meanwhile, and slot 1 is taken
  have hkeeps : h.Keeps 1 1 3 := by
    intro s hfirst hlast henters
    interval_cases s
    have hvacant : (k₂.processes 1).vacant = true := (vacantSlot_spec henters.2).2
    rw [Process.vacant_eq_not_live, (hpair₂ 1).mpr (.inl rfl)] at hvacant
    cases hvacant
  refine ⟨k₀, h, hpicks₁, hpicks₃, ?_⟩
  refine (history_no_overtaking hpmm hinit h).2 1 1 3 (by decide) (Nat.lt_succ_self 3) hpicks₁
    hpicks₃ hkeeps (fun s hfirst hlast => ?_) 0 (by decide) hlive
  interval_cases s
  rw [show h.dispatched 2 = some 0 from hpicks₂]
  decide

end LevOS
