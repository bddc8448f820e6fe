import LevOS.Process.Direct
import Mathlib.Logic.Relation

/-!
# Runs of the process table

The table after `scheduler_init` and any calls, in any order and with any
arguments, while whatever else runs may write to memory and load another
directory.

## Main definitions

* `Call`, `TableRun`, the calls and the states of a run
* `Numbered`, pids are given out once

## Main results

* `tableRun_owned`
-/

namespace LevOS

open Foundation Memory

/-! ## Pids -/

/-- The pids given out so far are the numbers up to `created`, each to one slot at
most. -/
structure Numbered (created : Nat) (k : Kernel) : Prop where
  next : k.nextPid.toNat = created + 1
  pid_pos : ∀ i, k.Occupied i → (k.processes i).pid ≠ 0
  pid_le : ∀ i, k.Occupied i → (k.processes i).pid.toNat ≤ created
  distinct : ∀ i j, k.Occupied i → k.Occupied j → (k.processes i).pid = (k.processes j).pid → i = j

section Pids

variable {created : Nat} {k k' : Kernel}

theorem Numbered.congr (h : Numbered created k) (hnext : k'.nextPid = k.nextPid)
    (hrelabels : k.Relabels k') : Numbered created k' := by
  have hpid (i : Slot) (hi : k'.Occupied i) :
      k.Occupied i ∧ (k'.processes i).pid = (k.processes i).pid := by
    obtain ⟨hocc, state, heq⟩ := hrelabels.occupied hi
    exact ⟨hocc, by rw [heq]⟩
  constructor
  · exact hnext ▸ h.next
  · exact fun i hi => (hpid i hi).2 ▸ h.pid_pos i (hpid i hi).1
  · exact fun i hi => (hpid i hi).2 ▸ h.pid_le i (hpid i hi).1
  · intro i j hi hj heq
    rw [(hpid i hi).2, (hpid j hj).2] at heq
    exact h.distinct i j (hpid i hi).1 (hpid j hj).1 heq

theorem Numbered.enter (h : Numbered created k) (hcreated : created + 1 < 2 ^ 31) {slot : Slot}
    {process : Process} {space : Space} (hslot : slot ≠ 0) (hpid : process.pid = k.nextPid) :
    Numbered (created + 1) (k.enterProcess slot process space) := by
  set k' := k.enterProcess slot process space
  have hself : k'.processes slot = process := k.enterProcess_self _ _ _
  have hne {i : Slot} (hi : i ≠ slot) : k'.processes i = k.processes i :=
    k.enterProcess_of_ne hi _ _
  have hold {i : Slot} (hi : i ≠ slot) (hocc : k'.Occupied i) : k.Occupied i :=
    ⟨hocc.1, hne hi ▸ hocc.2⟩
  have hpidNat : process.pid.toNat = created + 1 := by rw [hpid, h.next]
  -- the new pid is larger than all of the old ones
  have hfresh {i : Slot} (hi : i ≠ slot) (hocc : k'.Occupied i) :
      (k'.processes i).pid ≠ process.pid := by
    intro heq
    have hle := h.pid_le i (hold hi hocc)
    rw [hne hi] at heq
    rw [heq, hpidNat] at hle
    omega
  refine ⟨?_, fun i hocc => ?_, fun i hocc => ?_, fun i j hocci hoccj heq => ?_⟩
  · change (k.nextPid + 1).toNat = created + 1 + 1
    rw [UInt32.toNat_add, h.next]
    change (created + 1 + 1) % 2 ^ 32 = _
    omega
  · by_cases hi : i = slot
    · rw [hi, hself]
      rintro hzero
      rw [hzero] at hpidNat
      exact absurd hpidNat (Nat.succ_ne_zero _).symm
    · rw [hne hi]
      exact h.pid_pos i (hold hi hocc)
  · by_cases hi : i = slot
    · rw [hi, hself, hpidNat]
    · rw [hne hi]
      exact (h.pid_le i (hold hi hocc)).trans (Nat.le_succ _)
  · by_cases hi : i = slot <;> by_cases hj : j = slot
    · exact hi.trans hj.symm
    · subst hi
      rw [hself] at heq
      exact absurd heq.symm (hfresh hj hoccj)
    · subst hj
      rw [hself] at heq
      exact absurd heq (hfresh hi hocci)
    · rw [hne hi, hne hj] at heq
      exact h.distinct i j (hold hi hocci) (hold hj hoccj) heq

end Pids

/-! ## Runs -/

/-- A call that changes the table, or something else that runs. An exit marks the
running process; its `int 0x20` is a tick. -/
inductive Call
  | create (entry argument : UInt32)
  | createUser (image imageSize : UInt32)
  | tick (context : UInt32)
  | yield (context : UInt32)
  | terminate
  | other (memory : Memory) (cr3 : UInt32)

/-- The kernel in a run, and the number of creations that returned a pid. -/
structure TableRun where
  kernel : Kernel
  created : Nat

namespace TableRun

variable (access : Access) (layout : Layout)

/-- Count the result of a creation. -/
def count (created : Nat) (result : Kernel × Int32) : TableRun :=
  ⟨result.1, if result.2 = -1 then created else created + 1⟩

/-- One call. -/
def step (run : TableRun) : Call → Option TableRun
  | .create entry argument =>
    (run.kernel.processCreate access layout entry argument).map (count run.created)
  | .createUser image imageSize =>
    (run.kernel.processCreateUser access layout image imageSize).map (count run.created)
  | .tick context =>
    (run.kernel.schedulerTick access layout context).map fun result => ⟨result.1, run.created⟩
  | .yield context =>
    (run.kernel.schedulerYield access layout context).map fun result => ⟨result.1, run.created⟩
  | .terminate => some ⟨run.kernel.processTerminateCurrent, run.created⟩
  | .other memory cr3 =>
    some ⟨{ run.kernel with
      space := { run.kernel.space with memory := memory, cr3 := cr3 } }, run.created⟩

/-- One run leads to another by a call. -/
def Step (run run' : TableRun) : Prop := ∃ call, run.step access layout call = some run'

/-- The invariant of a run: pids are told apart as long as they do not wrap. -/
structure Invariant (pool : Finset Nat) (run : TableRun) : Prop where
  owned : Owned layout pool run.kernel
  numbered : run.created < 2 ^ 31 → Numbered run.created run.kernel

variable {access layout} {pool : Finset Nat} {run run' : TableRun}

theorem Invariant.creation (h : Invariant layout pool run) {rejected : Prop} {pages : Nat}
    {k : Kernel} {result : Int32} (hcreation : Creation rejected pages run.kernel k result) :
    Invariant layout pool (count run.created (k, result)) := by
  refine ⟨h.owned.creation hcreation, fun hlt => ?_⟩
  have hbefore : run.created < 2 ^ 31 := by
    unfold count at hlt
    simp only at hlt
    split_ifs at hlt <;> omega
  have hnumbered := h.numbered hbefore
  cases hcreation with
  | failed m pmm hshrinks hreason => exact hnumbered.congr rfl (.refl rfl)
  | entered slot process m pmm hvacant hfresh hpid =>
    have hresult : run.kernel.nextPid.toInt32 ≠ -1 := by
      intro heq
      have hword : run.kernel.nextPid = (-1 : Int32).toUInt32 := by
        rw [← heq, UInt32.toUInt32_toInt32]
      have hnext := hnumbered.next
      rw [hword] at hnext
      change 4294967295 = _ at hnext
      omega
    rw [count, if_neg hresult] at hlt ⊢
    exact hnumbered.enter hlt (vacantSlot_spec hvacant).1 hpid

theorem Invariant.schedule (h : Invariant layout pool run) {context : UInt32}
    {result : Kernel × UInt32}
    (hschedule : run.kernel.schedule access layout context = some result) :
    Invariant layout pool ⟨result.1, run.created⟩ := by
  refine ⟨h.owned.schedule hschedule, fun hlt => ?_⟩
  obtain ⟨k, next⟩ := result
  obtain ⟨r, -, ⟨-, -, rfl, -⟩ | ⟨i, space, hir, hnext, hsave, -, rfl⟩⟩ :=
    h.owned.schedule_cases hschedule
  · exact (h.numbered hlt).congr rfl (.refl rfl)
  · have hlabels := Kernel.relabels_dispatch layout (Kernel.live_of_nextLive hnext)
    exact (h.numbered hlt).congr rfl hlabels

theorem Invariant.step (h : Invariant layout pool run)
    (hstep : Step access layout run run') : Invariant layout pool run' := by
  obtain ⟨call, hcall⟩ := hstep
  -- creations number their processes, the other calls only relabel slots
  cases call with
  | create entry argument =>
    obtain ⟨⟨k, result⟩, hcreate, rfl⟩ := Option.map_eq_some_iff.mp hcall
    exact h.creation (processCreate_creation h.owned.sound hcreate)
  | createUser image imageSize =>
    obtain ⟨⟨k, result⟩, hcreate, rfl⟩ := Option.map_eq_some_iff.mp hcall
    exact h.creation (processCreateUser_creation h.owned.sound hcreate)
  | tick context =>
    obtain ⟨result, htick, rfl⟩ := Option.map_eq_some_iff.mp hcall
    have hcounted : Invariant layout pool
        ⟨{ run.kernel with quantumTicks := run.kernel.quantumTicks + 1 }, run.created⟩ :=
      ⟨h.owned.congr (.refl h.owned.sound) h.owned.current rfl rfl (.refl rfl),
        fun hlt => (h.numbered hlt).congr rfl (.refl rfl)⟩
    exact hcounted.schedule htick
  | yield context =>
    obtain ⟨result, hyield, rfl⟩ := Option.map_eq_some_iff.mp hcall
    exact h.schedule hyield
  | terminate =>
    obtain rfl := Option.some.inj hcall
    refine ⟨h.owned.terminate, fun hlt => ?_⟩
    rcases h.owned.terminate_cases with ⟨-, heq⟩ | ⟨r, -, hocc, heq⟩
    · rw [heq]
      exact h.numbered hlt
    · rw [heq]
      exact (h.numbered hlt).congr rfl (Kernel.relabels_setState hocc _)
  | other memory cr3 =>
    obtain rfl := Option.some.inj hcall
    exact ⟨h.owned.setMemory memory cr3, fun hlt => (h.numbered hlt).congr rfl (.refl rfl)⟩

theorem Invariant.reach (h : Invariant layout pool run)
    (hsteps : Relation.ReflTransGen (Step access layout) run run') :
    Invariant layout pool run' := by
  induction hsteps with
  | refl => exact h
  | tail _ hstep ih => exact ih.step hstep

/-- The invariant holds when `scheduler_init` returns. -/
theorem invariant_start {bytes : Pmm → Memory} {info : UInt32} {fuel : Nat} {pmm : Pmm}
    {memory : Memory} {esp0 : UInt32} {k₀ : Kernel}
    (hpmm : Pmm.pmmInit bytes layout.kernelEnd info fuel = some pmm)
    (hinit : schedulerInit access layout (Kernel.boot layout memory pmm esp0) = some k₀) :
    Invariant layout pmm.free ⟨k₀, 0⟩ := by
  have hboot := Kernel.boot_pmm layout memory pmm esp0
  have hvacant := schedulerInit_vacant hinit
  have howned := schedulerInit_owned (hboot.symm ▸ Pmm.pmmInit_sound hpmm) hinit
  rw [hboot] at howned
  refine ⟨howned, fun _ => ⟨?_, fun i hi => absurd hi (hvacant i),
    fun i hi => absurd hi (hvacant i), fun i j hi => absurd hi (hvacant i)⟩⟩
  obtain ⟨m, rfl⟩ := schedulerInit_eq hinit
  rfl

end TableRun

/-- The pages that the occupied slots own, slot by slot. -/
def Kernel.ownedPages (k : Kernel) : List UInt32 :=
  ((List.finRange 16).filter fun i => i ≠ 0 && (k.processes i).state ≠ .unused).flatMap
    fun i => (k.processes i).pages

theorem Owned.nodup_ownedPages {layout : Layout} {pool : Finset Nat} {k : Kernel}
    (h : Owned layout pool k) : k.ownedPages.Nodup := by
  have hocc {i : Slot} (hi : i ∈ (List.finRange 16).filter
      fun i => i ≠ 0 && (k.processes i).state ≠ .unused) : k.Occupied i := by
    simpa [Kernel.Occupied] using (List.mem_filter.mp hi).2
  refine List.nodup_flatMap.mpr ⟨fun i hi => (h.created i (hocc hi)).nodup, ?_⟩
  have hnodup := (List.nodup_finRange 16).filter
    fun i => i ≠ 0 && (k.processes i).state ≠ .unused
  refine hnodup.imp_of_mem fun hi hj hne => ?_
  exact h.disjoint _ _ (hocc hi) (hocc hj) hne

/-- A slot that is occupied has pages. -/
theorem Kernel.ownedPages_ne_nil {k : Kernel} {i : Slot} (hi : k.Occupied i) :
    k.ownedPages ≠ [] := by
  have hslot : i ∈ (List.finRange 16).filter
      fun i => i ≠ 0 && (k.processes i).state ≠ .unused := by
    simpa [Kernel.Occupied] using hi
  exact List.ne_nil_of_mem (List.mem_flatMap.mpr ⟨i, hslot, List.mem_cons_self⟩)

/-- The pid of a used slot leads back to the slot. -/
theorem Kernel.processByPid_eq {k : Kernel} {i : Slot} (hused : (k.processes i).state ≠ .unused)
    (hunique : ∀ j, (k.processes j).state ≠ .unused → (k.processes j).pid = (k.processes i).pid →
      j = i) : k.processByPid (k.processes i).pid = some i := by
  have hmatch : ((k.processes i).state ≠ .unused && (k.processes i).pid = (k.processes i).pid) =
      true := by
    simpa using hused
  obtain ⟨j, hj⟩ : ∃ j, k.processByPid (k.processes i).pid = some j :=
    Option.isSome_iff_exists.mp (List.find?_isSome.mpr ⟨i, List.mem_finRange i, hmatch⟩)
  have hfound := List.find?_some hj
  simp only [ne_eq, decide_not, Bool.and_eq_true, Bool.not_eq_true', decide_eq_false_iff_not,
    decide_eq_true_eq] at hfound
  rw [hj, hunique j hfound.1 hfound.2]

/-- Process-table ownership: after `scheduler_init` and any calls, slot 0 is the
bootstrap process, which has not exited; the running process is in the table; a
created process has its context at the top of its stack page; the pages of the
occupied slots are distinct, nonzero and in use; and a pid names one process. -/
theorem tableRun_owned {access : Access} {layout : Layout} {bytes : Pmm → Memory}
    {info : UInt32} {fuel : Nat} {pmm : Pmm} {memory : Memory} {esp0 : UInt32} {k₀ : Kernel}
    {run : TableRun} (hpmm : Pmm.pmmInit bytes layout.kernelEnd info fuel = some pmm)
    (hinit : schedulerInit access layout (Kernel.boot layout memory pmm esp0) = some k₀)
    (hrun : Relation.ReflTransGen (TableRun.Step access layout) ⟨k₀, 0⟩ run)
    (hcreated : run.created < 2 ^ 31) :
    let k := run.kernel
    ((k.processes 0).bootstrap = true ∧ (k.processes 0).pid = 0 ∧
        (k.processes 0).state ≠ .zombie) ∧
      (∃ r, k.running = some r) ∧
      (∀ i, k.Occupied i →
        (k.processes i).context = (k.processes i).stackBase + 4096 - contextSize) ∧
      k.ownedPages.Nodup ∧
      (∀ i, k.Occupied i → ∀ a ∈ (k.processes i).pages,
        a ≠ 0 ∧ k.space.pmm.isUsed (a / pageSize) = true) ∧
      (∀ i j, (k.processes i).state ≠ .unused → (k.processes j).state ≠ .unused →
        (k.processes i).pid = (k.processes j).pid → i = j) ∧
      ∀ i, (k.processes i).state ≠ .unused → k.processByPid (k.processes i).pid = some i := by
  intro k
  obtain ⟨howned, hnumbered⟩ := (TableRun.invariant_start hpmm hinit).reach hrun
  have hnumbered : Numbered run.created k := hnumbered hcreated
  have hzero : (k.processes 0).pid = 0 := by
    rw [howned.bootstrap]
    rfl
  -- slot 0 has the pid that is never given out
  have hpids (i j : Slot) (hi : (k.processes i).state ≠ .unused)
      (hj : (k.processes j).state ≠ .unused) (heq : (k.processes i).pid = (k.processes j).pid) :
      i = j := by
    by_cases hi0 : i = 0 <;> by_cases hj0 : j = 0
    · exact hi0.trans hj0.symm
    · rw [hi0, hzero] at heq
      exact absurd heq.symm (hnumbered.pid_pos j ⟨hj0, hj⟩)
    · rw [hj0, hzero] at heq
      exact absurd heq (hnumbered.pid_pos i ⟨hi0, hi⟩)
    · exact hnumbered.distinct i j ⟨hi0, hi⟩ ⟨hj0, hj⟩ heq
  refine ⟨⟨?_, hzero, ?_⟩, howned.current.imp fun _ h => h.1,
    fun i hi => (howned.created i hi).context, howned.nodup_ownedPages, fun i hi a ha => ?_, hpids,
    fun i hi => Kernel.processByPid_eq hi fun j hj heq => hpids j i hj hi heq⟩
  · rw [howned.bootstrap]
    rfl
  · rw [howned.bootstrap]
    exact fun hzombie => by cases hzombie
  · obtain ⟨hne, -, -, hused⟩ := (howned.created i hi).page a ha
    refine ⟨hne, ?_⟩
    by_contra hfree
    have hpage : (a / pageSize).toNat = a.toNat / 4096 := UInt32.toNat_div _ _
    have hlt : (a / pageSize).toNat < maxPages := by
      have := a.toNat_lt
      have hmax : maxPages * 4096 = 2 ^ 32 := by decide
      omega
    exact hused (hpage ▸ (Pmm.mem_free_iff _ hlt).mpr (Bool.not_eq_true _ ▸ hfree))

/-- A kernel process and a user process are created, and a tick goes to one of them: they
have pages, and no page twice. -/
theorem tableRun_owned_created :
    ∃ pmm k₀ k₁ k₂ k₃,
      Pmm.pmmInit (fun _ _ => 0) sampleLayout.kernelEnd 0 0 = some pmm ∧
      schedulerInit direct sampleLayout (Kernel.boot sampleLayout (fun _ => 0) pmm 0) = some k₀ ∧
      TableRun.step direct sampleLayout ⟨k₀, 0⟩ (.create 0x101000 0) = some ⟨k₁, 1⟩ ∧
      TableRun.step direct sampleLayout ⟨k₁, 1⟩ (.createUser 0x101000 16) = some ⟨k₂, 2⟩ ∧
      TableRun.step direct sampleLayout ⟨k₂, 2⟩ (.tick 0x117000) = some ⟨k₃, 2⟩ ∧
      k₃.ownedPages ≠ [] ∧ k₃.ownedPages.Nodup := by
  obtain ⟨pmm, k₀, process, m, p, hpmm, hinit, hcreate, hfresh, -, -, hcard, hrunning, htable,
    hpid⟩ := noMapCreate
  set k₁ := k₀.enterProcess 1 process { k₀.space with memory := m, pmm := p } with hk₁
  have hstart := TableRun.invariant_start hpmm hinit
  have hcall₀ : TableRun.step direct sampleLayout ⟨k₀, 0⟩ (.create 0x101000 0) =
      some ⟨k₁, 1⟩ := by
    rw [TableRun.step, hcreate]
    rfl
  have hinv₁ := hstart.step ⟨_, hcall₀⟩
  obtain ⟨user, space, hready, hcreate'⟩ := processCreateUser_entered sampleLayout
    hinv₁.owned.sound (show ¬ ((0x101000 : UInt32) = 0 ∨ (16 : UInt32) = 0 ∨ 4096 < (16 : UInt32))
      by decide) (vacantSlot_enterProcess_boot htable hfresh.state _)
    (show 4 ≤ p.free.card by omega)
  set k₂ := k₁.enterProcess 2 user space with hk₂
  have hpid' : k₁.nextPid = 2 := by
    change k₀.nextPid + 1 = 2
    rw [hpid]
    rfl
  have hcall₁ : TableRun.step direct sampleLayout ⟨k₁, 1⟩ (.createUser 0x101000 16) =
      some ⟨k₂, 2⟩ := by
    rw [TableRun.step, hcreate', hpid']
    rfl
  have hinv₂ := hinv₁.step ⟨_, hcall₁⟩
  -- a tick leaves the bootstrap process, and the slot it goes to has pages
  have hcounted : Owned sampleLayout pmm.free { k₂ with quantumTicks := k₂.quantumTicks + 1 } :=
    hinv₂.owned.congr (.refl hinv₂.owned.sound) hinv₂.owned.current rfl rfl (.refl rfl)
  obtain ⟨k₃, next, hschedule⟩ := hcounted.schedule_direct 0x117000
  have hcall₂ : TableRun.step direct sampleLayout ⟨k₂, 2⟩ (.tick 0x117000) = some ⟨k₃, 2⟩ :=
    congrArg (Option.map fun result : Kernel × UInt32 => TableRun.mk result.1 2) hschedule
  have hreach : Relation.ReflTransGen (TableRun.Step direct sampleLayout) ⟨k₀, 0⟩ ⟨k₃, 2⟩ :=
    .tail (.tail (.single ⟨_, hcall₀⟩) ⟨_, hcall₁⟩) ⟨_, hcall₂⟩
  have hlive : (k₂.processes 2).live = true := by
    rw [k₁.enterProcess_self, Process.live, hready]
    rfl
  have hpages : k₃.ownedPages ≠ [] := by
    obtain ⟨r, hr, ⟨hfew, -⟩ | ⟨i, space, hir, -, -, -, rfl⟩⟩ := hcounted.schedule_cases hschedule
    · have htwo := k₂.two_le_processCount (show (0 : Slot) ≠ 2 by decide)
        hinv₂.owned.live_zero hlive
      exact absurd htwo (Nat.not_le.mpr hfew)
    · obtain rfl : r = 0 := Option.some.inj (hr.symm.trans hrunning)
      refine Kernel.ownedPages_ne_nil (i := i) ⟨hir, ?_⟩
      change ((Kernel.dispatch sampleLayout _ i).processes i).state ≠ .unused
      rw [Kernel.dispatch_self]
      exact fun hunused => ProcessState.noConfusion hunused
  exact ⟨pmm, k₀, k₁, k₂, k₃, hpmm, hinit, hcall₀, hcall₁, hcall₂, hpages,
    (tableRun_owned hpmm hinit hreach (show 2 < 2 ^ 31 by decide)).2.2.2.1⟩

end LevOS
