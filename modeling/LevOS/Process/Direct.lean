import LevOS.Process.Ownership
import LevOS.Foundation.Blocks

/-!
# Calls at physical addresses

Where addresses are physical ones there are no page faults, so creations and
scheduling passes always return. With enough pages and a vacant slot a creation
succeeds; what follows is decided by the table alone.

## Main results

* `processCreate_direct`, `processCreateUser_direct`, `Owned.schedule_direct`
* `Kernel.nextLive_of_next`, the slot that comes next
-/

namespace LevOS

open Foundation Memory

/-! ## Memory -/

section Memory

variable (s : Space)

theorem Space.copy_direct (source target : UInt32) (n : Nat) :
    s.copy direct source target n =
      some { s with memory := copyWords s.memory source target n } := by
  induction n with
  | zero => rfl
  | succ n ih =>
    rw [Space.copy, ih]
    rfl

theorem Space.clear_direct (target : UInt32) (n : Nat) :
    s.clear direct target n = some { s with memory := clearWords s.memory target n } := by
  induction n with
  | zero => rfl
  | succ n ih =>
    rw [Space.clear, ih]
    rfl

theorem Space.copyBytes_direct (source target : UInt32) (n : Nat) :
    ∃ s', s.copyBytes direct source target n = some s' := by
  induction n with
  | zero => exact ⟨s, rfl⟩
  | succ n ih =>
    obtain ⟨s₁, hcopy⟩ := ih
    rw [Space.copyBytes, hcopy]
    exact ⟨_, rfl⟩

theorem storeFields_direct (context : UInt32) (fields : List (Field × UInt32)) :
    ∃ s', storeFields direct context fields s = some s' := by
  induction fields generalizing s with
  | nil => exact ⟨s, rfl⟩
  | cons head fields ih => exact ih _

theorem createPageDirectory_direct (layout : Layout) :
    ∃ s' directory, createPageDirectory direct layout s = some (s', directory) := by
  unfold createPageDirectory
  generalize s.pmm.allocatePage = page
  obtain ⟨address, pmm⟩ := page
  simp only
  split_ifs
  · exact ⟨_, _, rfl⟩
  · rw [Space.copy_direct]
    exact ⟨_, _, rfl⟩

theorem mapPageIn_direct (directory virtualAddress physicalAddress : UInt32) (mode : UInt8) :
    ∃ s', mapPageIn direct s directory virtualAddress physicalAddress mode = some s' := by
  unfold mapPageIn
  simp only [Space.load, Space.store, direct, Option.map_some, Option.bind_eq_bind,
    Option.bind_some]
  generalize s.pmm.allocatePage = page
  obtain ⟨table, pmm⟩ := page
  simp only
  split_ifs
  · exact ⟨_, rfl⟩
  · exact ⟨_, rfl⟩
  · exact ⟨_, rfl⟩
  · rw [Space.clear_direct]
    exact ⟨_, rfl⟩

end Memory

/-! ## Calls -/

section Calls

variable {layout : Layout} {pool : Finset Nat} {k k' : Kernel}

theorem processCreate_direct (k : Kernel) (layout : Layout) (entry argument : UInt32) :
    ∃ k' result, k.processCreate direct layout entry argument = some (k', result) := by
  unfold Kernel.processCreate
  generalize k.space.pmm.allocatePage = page
  obtain ⟨stack, pmm⟩ := page
  simp only
  split_ifs
  · exact ⟨_, _, rfl⟩
  cases k.vacantSlot with
  | none => exact ⟨_, _, rfl⟩
  | some slot =>
    obtain ⟨s₁, directory, hcreate⟩ :=
      createPageDirectory_direct { k.space with pmm := pmm } layout
    simp only [hcreate, Option.bind_eq_bind, Option.bind_some]
    split_ifs
    · exact ⟨_, _, rfl⟩
    · rw [Space.clear_direct, Option.bind_some]
      obtain ⟨s₃, hfields⟩ := storeFields_direct
        { s₁ with memory := clearWords s₁.memory (stack + 4096 - contextSize) contextWords }
        (stack + 4096 - contextSize) (Kernel.kernelFrame layout stack)
      rw [hfields]
      exact ⟨_, _, rfl⟩

theorem processCreateUser_direct (k : Kernel) (layout : Layout) (image imageSize : UInt32) :
    ∃ k' result, k.processCreateUser direct layout image imageSize = some (k', result) := by
  unfold Kernel.processCreateUser
  generalize k.space.pmm.allocatePage = page
  obtain ⟨stack, p₁⟩ := page
  simp only
  generalize p₁.allocatePage = page
  obtain ⟨code, p₂⟩ := page
  simp only
  generalize p₂.allocatePage = page
  obtain ⟨user, p₃⟩ := page
  simp only
  split_ifs
  · exact ⟨_, _, rfl⟩
  cases k.vacantSlot with
  | none => exact ⟨_, _, rfl⟩
  | some slot =>
    obtain ⟨s, directory, hcreate⟩ := createPageDirectory_direct { k.space with pmm := p₃ } layout
    simp only [hcreate, Option.bind_eq_bind, Option.bind_some]
    split_ifs
    · exact ⟨_, _, rfl⟩
    · obtain ⟨s₁, hmap₁⟩ := mapPageIn_direct s directory Kernel.userCodeAddress code 0x55
      obtain ⟨s₂, hmap₂⟩ := mapPageIn_direct s₁ directory (Kernel.userStackTop - 4096) user 0x55
      obtain ⟨s₃, himage⟩ := Space.copyBytes_direct s₂ image code imageSize.toNat
      obtain ⟨s₅, hfields⟩ := storeFields_direct
        { s₃ with memory := clearWords s₃.memory (stack + 4096 - contextSize) contextWords }
        (stack + 4096 - contextSize) Kernel.userFrame
      rw [hmap₁, Option.bind_some, hmap₂, Option.bind_some, himage, Option.bind_some,
        Space.clear_direct, Option.bind_some, hfields]
      exact ⟨_, _, rfl⟩

/-- Saving a context changes the place of the saved context only. -/
theorem Kernel.savedSpace_direct {r : Slot} {context : UInt32} {space : Space}
    (h : k.savedSpace direct r context = some space)
    (hfit : (k.processes r).context.toNat + 60 ≤ 2 ^ 32) {a : UInt32}
    (ha : Outside a (k.processes r).context 60) : space.memory a = k.space.memory a := by
  unfold Kernel.savedSpace at h
  split_ifs at h
  · rw [← Option.some.inj h]
  · rw [Space.copy_direct] at h
    rw [← Option.some.inj h]
    exact copyWords_outside ha hfit

theorem Owned.schedule_direct (h : Owned layout pool k) (context : UInt32) :
    ∃ k' next, k.schedule direct layout context = some (k', next) := by
  obtain ⟨r, hr, -⟩ := h.current
  have hclear : Owned layout pool { k with schedulerNextDirectory := 0 } :=
    h.congr (.refl h.sound) h.current rfl rfl (.refl rfl)
  obtain ⟨k₁, hsave⟩ : ∃ k₁, Kernel.processSaveContext direct
      { k with schedulerNextDirectory := 0 } context = some k₁ := by
    rw [hclear.saveContext_eq hr, Kernel.savedSpace]
    split_ifs
    · exact ⟨_, rfl⟩
    · rw [Space.copy_direct]
      exact ⟨_, rfl⟩
  unfold Kernel.schedule
  simp only [hr, Option.bind_eq_bind, Option.bind_some]
  rw [hr] at hsave
  split_ifs
  · exact ⟨_, _, rfl⟩
  · rw [hsave, Option.bind_some]
    rcases k₁.processNextRoundRobin layout with ⟨k₂, _ | next⟩
    · exact ⟨_, _, rfl⟩
    · simp only
      split_ifs
      · exact ⟨_, _, rfl⟩
      · exact ⟨_, _, rfl⟩
      · exact ⟨_, _, rfl⟩

/-- With two pages and a vacant slot a kernel process is created. -/
theorem processCreate_entered (layout : Layout) (hsound : k.space.pmm.Sound) {entry : UInt32}
    (hentry : entry ≠ 0) (argument : UInt32) {slot : Slot} (hslot : k.vacantSlot = some slot)
    (hpages : 2 ≤ k.space.pmm.free.card) :
    let stack := k.space.pmm.allocatePage
    let directory := stack.2.allocatePage
    Fresh k.space.pmm directory.2 (k.kernelProcess directory.1 stack.1 entry argument) ∧
      directory.2.free.card = k.space.pmm.free.card - 2 ∧
      ∃ m, k.processCreate direct layout entry argument =
        some (k.enterProcess slot (k.kernelProcess directory.1 stack.1 entry argument)
          { k.space with memory := m, pmm := directory.2 }, k.nextPid.toInt32) := by
  intro stack directory
  have hcard := hsound.card_allocatePage
  have hcard' := hsound.shrinks_allocatePage.sound.card_allocatePage
  obtain ⟨k', result, hcreate⟩ := processCreate_direct k layout entry argument
  rcases processCreate_cases hcreate with ⟨hreason, -, -⟩ | ⟨slot', s, d, hslot', hdirectory, hrest⟩
  · rcases hreason with hzero | hnone
    · exact absurd hzero hentry
    · rw [hslot] at hnone
      cases hnone
  obtain rfl : slot = slot' := Option.some.inj (hslot.symm.trans hslot')
  obtain ⟨rfl, m₁, rfl⟩ := createPageDirectory_eq hdirectory
  rcases hrest with ⟨hfailed, -, -⟩ | ⟨hstack, hdirectory, rfl, s₁, s₂, hclear, hfields, rfl⟩
  · rcases hfailed with hzero | hzero
    · have := hcard.2 hzero
      omega
    · have := hcard'.2 hzero
      omega
  · obtain ⟨m₂, rfl⟩ := Space.clear_eq hclear
    obtain ⟨m₃, rfl⟩ := storeFields_eq hfields
    refine ⟨fresh_kernelProcess hsound hstack hdirectory k _ _, ?_, m₃, hcreate⟩
    rw [hcard'.1, hcard.1]
    omega

/-- With four pages and a vacant slot a user process is created. -/
theorem processCreateUser_entered (layout : Layout) (hsound : k.space.pmm.Sound)
    {image imageSize : UInt32} (hargs : ¬ (image = 0 ∨ imageSize = 0 ∨ 4096 < imageSize))
    {slot : Slot} (hslot : k.vacantSlot = some slot) (hpages : 4 ≤ k.space.pmm.free.card) :
    ∃ process space, process.state = .ready ∧
      k.processCreateUser direct layout image imageSize =
        some (k.enterProcess slot process space, k.nextPid.toInt32) := by
  obtain ⟨k', result, hcreate⟩ := processCreateUser_direct k layout image imageSize
  have hcreation := processCreateUser_creation hsound hcreate
  cases hcreation with
  | failed m pmm hshrinks hreason =>
    rcases hreason with hrejected | hnone | hfew
    · exact absurd hrejected hargs
    · rw [hslot] at hnone
      cases hnone
    · omega
  | entered slot' process m pmm hvacant hfresh hpid =>
    obtain rfl : slot = slot' := Option.some.inj (hslot.symm.trans hvacant)
    exact ⟨process, _, hfresh.state, hcreate⟩

/-- After `scheduler_init` the first slot but one is vacant. -/
theorem schedulerInit_vacantSlot {access : Access} (hinit : schedulerInit access layout k = some k') :
    k'.vacantSlot = some 1 := by
  obtain ⟨m, rfl⟩ := schedulerInit_eq hinit
  refine List.find?_cons_of_pos ?_
  change (initialProcesses layout 1).vacant = true
  rw [initialProcesses_of_ne layout (by decide)]
  rfl

/-- With a process in the first slot the second one is vacant. -/
theorem vacantSlot_enterProcess_boot (htable : k.processes = initialProcesses layout)
    {process : Process} (hstate : process.state = .ready) (space : Space) :
    (k.enterProcess 1 process space).vacantSlot = some 2 := by
  refine (List.find?_cons_of_neg ?_).trans (List.find?_cons_of_pos ?_)
  · change ¬ ((k.enterProcess 1 process space).processes 1).vacant = true
    rw [k.enterProcess_self, Process.vacant, hstate]
    decide
  · change ((k.enterProcess 1 process space).processes 2).vacant = true
    rw [k.enterProcess_of_ne (by decide), htable, initialProcesses_of_ne layout (by decide)]
    rfl

/-! ## What comes next -/

theorem Kernel.two_le_processCount {i j : Slot} (hij : i ≠ j)
    (hi : (k.processes i).live = true) (hj : (k.processes j).live = true) :
    2 ≤ k.processCount := by
  have hnodup := (List.nodup_finRange 16).filter fun i => (k.processes i).live
  have hsubset : {i, j} ⊆ ((List.finRange 16).filter fun i => (k.processes i).live).toFinset := by
    intro x hx
    rw [Finset.mem_insert, Finset.mem_singleton] at hx
    rw [List.mem_toFinset, List.mem_filter]
    rcases hx with rfl | rfl
    · exact ⟨List.mem_finRange x, hi⟩
    · exact ⟨List.mem_finRange x, hj⟩
  have hle := Finset.card_le_card hsubset
  rw [Finset.card_pair hij, List.toFinset_card_of_nodup hnodup] at hle
  rwa [Kernel.processCount, List.countP_eq_length_filter]

/-- With one other live slot, a pass of a process that has exited or shares the processor
goes to that slot. -/
theorem Owned.schedule_to (h : Owned layout pool k) {r i : Slot} (hr : k.running = some r)
    (hir : i ≠ r) (hi : (k.processes i).live = true)
    (honly : ∀ j ≠ r, (k.processes j).live = true → j = i)
    (hstate : (k.processes r).state = .zombie ∨ (k.processes r).live = true) (context : UInt32) :
    ∃ m directory next, k.schedule direct layout context =
      some ({ Kernel.dispatch layout { k with space := { k.space with memory := m } } i with
        schedulerNextDirectory := directory }, next) := by
  obtain ⟨k', next, hschedule⟩ := h.schedule_direct context
  obtain ⟨r', hr', ⟨hfew, halive, -, -⟩ | ⟨j, space, hjr, hnext, hsave, -, rfl⟩⟩ :=
    h.schedule_cases hschedule
  · obtain rfl : r = r' := Option.some.inj (hr.symm.trans hr')
    have hlive := hstate.resolve_left halive
    exact absurd (Kernel.two_le_processCount hir hi hlive) (Nat.not_le.mpr hfew)
  · obtain rfl : r = r' := Option.some.inj (hr.symm.trans hr')
    obtain rfl := honly j hjr (Kernel.live_of_nextLive hnext)
    obtain ⟨m, rfl⟩ := Kernel.savedSpace_eq hsave
    exact ⟨m, _, next, hschedule⟩

end Calls

/-! ## A first process -/

/-- After a boot without a memory map a process is created in slot 1. -/
theorem noMapCreate :
    ∃ pmm k₀ process m p, Pmm.pmmInit (fun _ _ => 0) sampleLayout.kernelEnd 0 0 = some pmm ∧
      schedulerInit direct sampleLayout (Kernel.boot sampleLayout (fun _ => 0) pmm 0) = some k₀ ∧
      k₀.processCreate direct sampleLayout 0x101000 0 =
        some (k₀.enterProcess 1 process { k₀.space with memory := m, pmm := p }, 1) ∧
      Fresh pmm p process ∧ process.user = false ∧ process.pid = 1 ∧ 14 ≤ p.free.card ∧
      k₀.running = some 0 ∧ k₀.processes = initialProcesses sampleLayout ∧ k₀.nextPid = 1 := by
  obtain ⟨pmm, k₀, hpmm, hinit, hspace, hcard⟩ := noMapBoot
  have hsound := Pmm.pmmInit_sound hpmm
  obtain ⟨m₀, hk₀⟩ := schedulerInit_eq hinit
  have hvacant := schedulerInit_vacantSlot hinit
  have hpid : k₀.nextPid = 1 := by
    rw [hk₀]
    rfl
  obtain ⟨hfresh, hfree, m, hcreate⟩ := processCreate_entered sampleLayout (hspace ▸ hsound)
    (show (0x101000 : UInt32) ≠ 0 by decide) 0 hvacant (by rw [hspace]; omega)
  rw [hpid] at hcreate
  rw [hspace] at hfresh hfree
  exact ⟨pmm, k₀, _, m, _, hpmm, hinit, hcreate, hspace.symm ▸ hfresh, rfl, hpid, by
    rw [hspace]; omega, by rw [hk₀], by rw [hk₀], hpid⟩

end LevOS
