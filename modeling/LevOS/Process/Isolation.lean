import LevOS.Process.AddressSpaces

/-!
# Isolation of user processes

Every directory is a copy of the kernel's, so all of them lead to the same tables. A
creation maps the pages of its process through the table of the user addresses, for all
processes at once: the process created last is the one whose pages are found there. A
user process finds its own pages as long as no other one is created while it is live.

## Main definitions

* `Process.SeesOwnPages`, what a user process finds at its addresses
* `MapsPages`, the entries on the way
* `Call.Alone`, calls that create no second user process

## Main results

* `tableRun_isolated`
-/

namespace LevOS

open Foundation Memory

/-! ## User addresses -/

/-- The process finds its code and its stack page at the user addresses, and may use
them. -/
def Process.SeesOwnPages (p : Process) (m : Memory) : Prop :=
  translate m p.directory Kernel.userCodeAddress = some (p.userCodeBase, true) ∧
    translate m p.directory (Kernel.userStackTop - 4096) = some (p.userStackBase, true)

/-- The entries that lead from the user addresses to a code and a stack page. -/
structure MapsPages (layout : Layout) (m : Memory) (directory code user : UInt32) : Prop where
  slot : load32 m (directory + 4) = identityEntry layout 1 ||| userFlag
  first : load32 m (tableAddress layout 1) = frameOf code ||| flagsFor 0x55
  last : load32 m (tableAddress layout 1 + 4092) = frameOf user ||| flagsFor 0x55

section Entries

variable {layout : Layout} {m m' : Memory} {directory code user : UInt32}

theorem translate_mapped {address page : UInt32}
    (hslot : load32 m (directorySlot directory address) = identityEntry layout 1 ||| userFlag)
    (hpage : load32 m (tableSlot (tableAddress layout 1) address) = frameOf page ||| flagsFor 0x55)
    (haligned : page.toNat % 4096 = 0) (haddress : address &&& 0xFFF = 0) :
    translate m directory address = some (page, true) := by
  have hflags : (flagsFor 0x55).toNat < 4096 := by decide
  have hpresent : (page ||| flagsFor 0x55) &&& presentFlag ≠ 0 := by
    rw [or_flags_and haligned (by decide)]
    decide
  have huser : (page ||| flagsFor 0x55) &&& userFlag ≠ 0 := by
    rw [or_flags_and haligned (by decide)]
    decide
  have huser' : (tableAddress layout 1 ||| flagsFor 0x55) &&& userFlag ≠ 0 := by
    rw [or_flags_and (tableAddress_aligned layout (by decide)) (by decide)]
    decide
  rw [frameOf_of_aligned haligned] at hpage
  rw [Memory.translate, hslot]
  simp only
  rw [if_neg (userEntry_present (by decide)), frameOf_userEntry (by decide), hpage,
    if_neg hpresent, frameOf_or_flags haligned hflags, haddress, UInt32.add_zero, userEntry_eq,
    (and_and_user_iff _ _).mpr ⟨huser', huser⟩]

/-- The processor follows the entries. -/
theorem MapsPages.translate (h : MapsPages layout m directory code user)
    (hcode : code.toNat % 4096 = 0) (huser : user.toNat % 4096 = 0) :
    translate m directory Kernel.userCodeAddress = some (code, true) ∧
      translate m directory (Kernel.userStackTop - 4096) = some (user, true) := by
  obtain ⟨hdslot, hdslot', -, -⟩ := userSlots directory
  obtain ⟨-, -, htslot, htslot'⟩ := userSlots (tableAddress layout 1)
  have hfirst : load32 m (tableSlot (tableAddress layout 1) Kernel.userCodeAddress) =
      frameOf code ||| flagsFor 0x55 := by
    rw [htslot]
    exact h.first
  have hlast : load32 m (tableSlot (tableAddress layout 1) (Kernel.userStackTop - 4096)) =
      frameOf user ||| flagsFor 0x55 := by
    rw [htslot']
    exact h.last
  constructor
  · exact translate_mapped (hdslot ▸ h.slot) hfirst hcode (by decide)
  · exact translate_mapped (hdslot' ▸ h.slot) hlast huser (by decide)

theorem MapsPages.congr (h : MapsPages layout m directory code user)
    (haligned : directory.toNat % 4096 = 0)
    (htables : ∀ a, ¬ Outside a layout.identityTables 16384 → m' a = m a)
    (hdirectory : ∀ a, ¬ Outside a directory 4096 → m' a = m a) :
    MapsPages layout m' directory code user := by
  have hmem := layout.identityTables_mem
  have himage := layout.image_le
  have htable : (tableAddress layout 1).toNat = layout.identityTables.toNat + 4096 * 1 :=
    tableAddress_toNat (by decide)
  have hlast : (tableAddress layout 1 + 4092).toNat = (tableAddress layout 1).toNat + 4092 :=
    toNat_add_ofNat (n := 4092) (by omega)
  have hword {b : UInt32} (hlow : layout.identityTables.toNat ≤ b.toNat)
      (hhigh : b.toNat + 4 ≤ layout.identityTables.toNat + 16384) : load32 m' b = load32 m b := by
    apply load32_congr
    intro i hi
    have haddress : (b + UInt32.ofNat i).toNat = b.toNat + i := toNat_add_ofNat (by omega)
    apply htables
    unfold Outside
    omega
  refine ⟨?_, ?_, ?_⟩
  · exact (load32_entry_congr (t := 1) haligned hdirectory (by decide)).trans h.slot
  · rw [hword (by omega) (by omega)]
    exact h.first
  · rw [hword (by omega) (by omega)]
    exact h.last

end Entries

/-! ## The invariant -/

/-- The entries lead every live user process to its own pages. -/
structure Isolated (layout : Layout) (pool : Finset Nat) (k : Kernel) : Prop extends
    Walkable layout pool k where
  mapped : ∀ i, (k.processes i).live = true → (k.processes i).user = true →
    MapsPages layout k.space.memory (k.processes i).directory (k.processes i).userCodeBase
      (k.processes i).userStackBase

section Steps

variable {layout : Layout} {pool : Finset Nat} {k k' : Kernel} {result : Int32}

/-- The bootstrap process is not a user process. -/
theorem Owned.occupied_of_user (h : Owned layout pool k) {i : Slot}
    (hlive : (k.processes i).live = true) (huser : (k.processes i).user = true) :
    k.Occupied i := by
  refine Kernel.occupied_of_live ?_ hlive
  rintro rfl
  rw [h.bootstrap] at huser
  cases huser

theorem Owned.user_aligned (h : Owned layout pool k) {i : Slot} (hi : k.Occupied i)
    (huser : (k.processes i).user = true) :
    (k.processes i).userCodeBase.toNat % 4096 = 0 ∧
      (k.processes i).userStackBase.toNat % 4096 = 0 := by
  have hpages : (k.processes i).pages = [(k.processes i).stackBase, (k.processes i).directory,
      (k.processes i).userCodeBase, (k.processes i).userStackBase] := by
    rw [Process.pages, if_pos huser]
  have hpage := (h.created i hi).page
  rw [hpages] at hpage
  simp only [List.mem_cons, List.not_mem_nil, or_false, forall_eq_or_imp, forall_eq] at hpage
  exact ⟨hpage.2.2.1.2.1, hpage.2.2.2.2.1⟩

/-- Memory that keeps the tables and the directories keeps the mappings. -/
theorem Isolated.setMemory (h : Isolated layout pool k)
    (hpool : AboveKernel layout pool) {m : Memory}
    (hpreserves : k.Preserves layout m) {cr3 : UInt32} (hcr3 : k.Root layout cr3) :
    Isolated layout pool { k with space := { k.space with memory := m, cr3 := cr3 } } := by
  refine ⟨h.toWalkable.setMemory hpool (h.tables.congr hpreserves.tables) hpreserves.roots hcr3,
    fun i hlive huser => ?_⟩
  have hocc := h.owned.occupied_of_user hlive huser
  exact (h.mapped i hlive huser).congr (h.owned.rests_directory hpool hocc).aligned
    hpreserves.tables (hpreserves.roots _ (.inr (.inr ⟨i, hocc, rfl⟩)))

/-- Changes of states matter only if they make a process live. -/
theorem Isolated.congr (h : Isolated layout pool k) (howned : Owned layout pool k')
    (hmemory : k'.space.memory = k.space.memory) (hcr3 : k'.space.cr3 = k.space.cr3)
    (hfree : k'.space.pmm.free ⊆ k.space.pmm.free) (hlabels : k.Relabels k')
    (hlive : ∀ i, (k'.processes i).live = true → (k.processes i).live = true) :
    Isolated layout pool k' := by
  refine ⟨h.toWalkable.congr howned hmemory hcr3 hfree hlabels, fun i hi huser => ?_⟩
  obtain ⟨-, state, heq⟩ := hlabels.occupied (howned.occupied_of_user hi huser)
  have hmapped := h.mapped i (hlive i hi)
  rw [heq] at huser ⊢
  rw [hmemory]
  exact hmapped huser

theorem Isolated.failed (h : Isolated layout pool k) (howned : Owned layout pool k')
    (hfailed : k.Failed k') : Isolated layout pool k' := by
  obtain ⟨pmm, rfl, -, hfree⟩ := hfailed
  exact h.congr howned rfl rfl hfree.le (.refl rfl) fun _ => id

theorem Isolated.create (h : Isolated layout pool k)
    (hpool : AboveKernel layout pool)
    (hlow : 2 ≤ k.space.pmm.free.card → k.space.pmm.LowPages 2) {entry argument : UInt32}
    (hcreate : k.processCreate paged layout entry argument = some (k', result)) :
    Isolated layout pool k' := by
  have howned := h.owned.creation (processCreate_creation h.owned.sound hcreate)
  rcases h.toWalkable.create hpool hlow hcreate with
    hfailed | ⟨slot, process, m, pmm, hvacant, hkernel, hpreserves, rfl, hwalkable⟩
  · exact h.failed howned hfailed
  refine ⟨hwalkable, fun i hlive huser => ?_⟩
  -- the new process is not a user process, the others are as they were
  by_cases hi : i = slot
  · rw [hi, k.enterProcess_self, hkernel] at huser
    cases huser
  · rw [k.enterProcess_of_ne hi] at hlive huser ⊢
    exact (h.setMemory hpool hpreserves (.inr (.inl rfl))).mapped i hlive huser

/-- A user process that is created alone finds its own pages. -/
theorem Isolated.createUser (h : Isolated layout pool k)
    (hpool : AboveKernel layout pool)
    (hlow : 4 ≤ k.space.pmm.free.card → k.vacantSlot ≠ none →
      (∀ i, (k.processes i).live = true → (k.processes i).user = false) ∧ k.space.pmm.LowPages 4)
    {image imageSize : UInt32}
    (hcreate : k.processCreateUser paged layout image imageSize = some (k', result)) :
    Isolated layout pool k' := by
  have howned := h.owned.creation (processCreateUser_creation h.owned.sound hcreate)
  by_cases hnone : k.vacantSlot = none
  · obtain rfl := processCreateUser_refused hcreate (.inr hnone)
    exact h
  have hlow' (hcard : 4 ≤ k.space.pmm.free.card) := hlow hcard hnone
  rcases h.toWalkable.createUser hpool (fun hcard => (hlow' hcard).2) hcreate with
    hfailed | ⟨slot, stack, code, user, directory, m, hvacant, hcard, -, hstarted, -, rfl,
      hwalkable⟩
  · exact h.failed howned hfailed
  refine ⟨hwalkable, fun i hlive huser => ?_⟩
  by_cases hi : i = slot
  · rw [hi, k.enterProcess_self]
    exact ⟨hstarted.slot, hstarted.first, hstarted.last⟩
  · rw [k.enterProcess_of_ne hi] at hlive huser
    rw [(hlow' hcard).1 i hlive] at huser
    cases huser

theorem Isolated.terminate (h : Isolated layout pool k) :
    Isolated layout pool k.processTerminateCurrent := by
  have howned := h.owned.terminate
  rcases h.owned.terminate_cases with ⟨-, heq⟩ | ⟨r, -, hocc, heq⟩
  · rw [heq]
    exact h
  · rw [heq] at howned ⊢
    refine h.congr howned rfl rfl subset_rfl (Kernel.relabels_setState hocc .zombie) fun i hlive => ?_
    by_cases hi : i = r
    · rw [hi, k.setState_self] at hlive
      cases hlive
    · rwa [k.setState_of_ne hi] at hlive

theorem Isolated.schedule (h : Isolated layout pool k)
    (hpool : AboveKernel layout pool) {context next : UInt32}
    (hschedule : k.schedule paged layout context = some (k', next)) : Isolated layout pool k' := by
  have howned := h.owned.schedule hschedule
  obtain ⟨r, hr, ⟨-, -, rfl, -⟩ | ⟨i, space, -, hnext, hsave, -, rfl⟩⟩ :=
    h.owned.schedule_cases hschedule
  · exact h.congr howned rfl rfl subset_rfl (.refl rfl) fun _ => id
  · have hused := h.owned.used_running hr
    obtain ⟨m, rfl, hpreserves⟩ := h.toWalkable.saved hpool hused hsave
    have hlive := Kernel.live_of_nextLive hnext
    have hlabels := Kernel.relabels_dispatch (k := { k with space := { k.space with memory := m } })
      layout hlive
    refine (h.setMemory hpool hpreserves (.inr (.inl rfl))).congr howned rfl rfl subset_rfl hlabels ?_
    intro j hj
    rcases (Kernel.live_dispatch_iff layout _ i j).mp hj with rfl | hj
    · exact hlive
    · exact hj

end Steps

/-! ## Runs -/

/-- A user process is created only while no other one is live; what is created gets pages
that the identity tables reach; and what else runs keeps the tables and the directories,
and runs in one of them. -/
def Call.Alone (layout : Layout) (k : Kernel) : Call → Prop
  | .create entry _ => entry = 0 ∨ k.vacantSlot = none ∨ k.space.pmm.pmmFreePages.toNat < 2 ∨
    k.space.pmm.LowPages 2
  | .createUser image imageSize => (image = 0 ∨ imageSize = 0 ∨ 4096 < imageSize) ∨
    k.vacantSlot = none ∨ k.space.pmm.pmmFreePages.toNat < 4 ∨
    (∀ i, (k.processes i).live = true → (k.processes i).user = false) ∧ k.space.pmm.LowPages 4
  | .tick _ | .yield _ | .terminate => True
  | .other memory cr3 => k.Preserves layout memory ∧ k.Root layout cr3

/-- One run leads to another by a call that creates no second user process. -/
def TableRun.AloneStep (layout : Layout) (run run' : TableRun) : Prop :=
  ∃ call : Call, call.Alone layout run.kernel ∧ run.step paged layout call = some run'

section Runs

variable {layout : Layout} {pool : Finset Nat} {run run' : TableRun}

theorem Isolated.step (h : Isolated layout pool run.kernel)
    (hpool : AboveKernel layout pool)
    (hstep : run.AloneStep layout run') : Isolated layout pool run'.kernel := by
  have hcount : run.kernel.space.pmm.pmmFreePages.toNat = run.kernel.space.pmm.free.card :=
    h.owned.sound.counted
  obtain ⟨call, halone, hcall⟩ := hstep
  cases call with
  | create entry argument =>
    obtain ⟨⟨k, result⟩, hcreate, rfl⟩ := Option.map_eq_some_iff.mp hcall
    -- refused, short of pages, or with low pages
    rcases halone with hzero | hnone | hfew | hlow
    · obtain rfl := processCreate_refused hcreate (.inl hzero)
      exact h
    · obtain rfl := processCreate_refused hcreate (.inr hnone)
      exact h
    · exact h.create hpool (fun hcard => absurd hcard (by omega)) hcreate
    · exact h.create hpool (fun _ => hlow) hcreate
  | createUser image imageSize =>
    obtain ⟨⟨k, result⟩, hcreate, rfl⟩ := Option.map_eq_some_iff.mp hcall
    rcases halone with hrejected | hnone | hfew | halone
    · obtain rfl := processCreateUser_refused hcreate (.inl hrejected)
      exact h
    · exact h.createUser hpool (fun _ hsome => absurd hnone hsome) hcreate
    · exact h.createUser hpool (fun hcard _ => absurd hcard (by omega)) hcreate
    · exact h.createUser hpool (fun _ _ => halone) hcreate
  | tick context =>
    obtain ⟨⟨k, next⟩, htick, rfl⟩ := Option.map_eq_some_iff.mp hcall
    have hcounted : Isolated layout pool
        { run.kernel with quantumTicks := run.kernel.quantumTicks + 1 } :=
      h.congr (h.owned.congr (.refl h.owned.sound) h.owned.current rfl rfl (.refl rfl)) rfl rfl
        subset_rfl (.refl rfl) fun _ => id
    exact hcounted.schedule hpool htick
  | yield context =>
    obtain ⟨⟨k, next⟩, hyield, rfl⟩ := Option.map_eq_some_iff.mp hcall
    exact h.schedule hpool hyield
  | terminate =>
    obtain rfl := Option.some.inj hcall
    exact h.terminate
  | other memory cr3 =>
    obtain rfl := Option.some.inj hcall
    exact h.setMemory hpool halone.1 halone.2

theorem Isolated.reach (h : Isolated layout pool run.kernel)
    (hpool : AboveKernel layout pool)
    (hsteps : Relation.ReflTransGen (TableRun.AloneStep layout) run run') :
    Isolated layout pool run'.kernel := by
  induction hsteps with
  | refl => exact h
  | tail _ hstep ih => exact ih.step hpool hstep

theorem Isolated.sees {k : Kernel} (h : Isolated layout pool k) {i : Slot}
    (hlive : (k.processes i).live = true) (huser : (k.processes i).user = true) :
    (k.processes i).SeesOwnPages k.space.memory := by
  have hocc := h.owned.occupied_of_user hlive huser
  obtain ⟨hcode, hstack⟩ := h.owned.user_aligned hocc huser
  exact (h.mapped i hlive huser).translate hcode hstack

/-- No user process is live when `scheduler_init` returns. -/
theorem isolated_start {bytes : Pmm → Memory} {info : UInt32} {fuel : Nat} {pmm : Pmm}
    {memory : Memory} {esp0 : UInt32} {k₀ : Kernel}
    (hpmm : Pmm.pmmInit bytes layout.kernelEnd info fuel = some pmm)
    (hinit : schedulerInit paged layout (Kernel.boot layout memory pmm esp0) = some k₀) :
    Isolated layout pmm.free k₀ := by
  have hwalkable := walkable_start hpmm hinit
  refine ⟨hwalkable, fun i hlive huser => ?_⟩
  exact absurd (hwalkable.owned.occupied_of_user hlive huser) (schedulerInit_vacant hinit i)

end Runs

/-! ## A boot without a memory map -/

/-- Pages below 4 MiB are free after the boot. -/
theorem noMapPaged :
    ∃ pmm k₀, Pmm.pmmInit (fun _ _ => 0) sampleLayout.kernelEnd 0 0 = some pmm ∧
      schedulerInit paged sampleLayout (Kernel.boot sampleLayout (fun _ => 0) pmm 0) = some k₀ ∧
      k₀.nextPid = 1 ∧ 16 ≤ (k₀.space.pmm.free.filter (· < 0x400)).card := by
  obtain ⟨pmm, -, hpmm, -⟩ := noMapBoot
  obtain ⟨k₀, hinit⟩ : ∃ k₀, schedulerInit paged sampleLayout
      (Kernel.boot sampleLayout (fun _ => 0) pmm 0) = some k₀ :=
    schedulerInit_paged rfl (Kernel.boot_tables _ _ _ _)
      fun t ht => .inl (Kernel.boot_entries _ _ _ _ ht)
  have hspace : k₀.space.pmm = pmm := by
    obtain ⟨m, rfl⟩ := schedulerInit_eq hinit
    exact Kernel.boot_pmm sampleLayout (fun _ => 0) pmm 0
  have hpid : k₀.nextPid = 1 := by
    obtain ⟨m, rfl⟩ := schedulerInit_eq hinit
    rfl
  refine ⟨pmm, k₀, hpmm, hinit, hpid, ?_⟩
  have hsubset : Finset.Ico 0x120 0x130 ⊆ pmm.free.filter (· < 0x400) := by
    intro page hpage
    obtain ⟨hlow, hhigh⟩ := Finset.mem_Ico.mp hpage
    have hend : sampleLayout.kernelEnd.toNat = 0x120000 := rfl
    exact Finset.mem_filter.mpr
      ⟨Pmm.pmmInit_noMap_free hpmm (by omega) (by omega) (by omega), by omega⟩
  rw [hspace]
  exact (Nat.card_Ico _ _).symm.trans_le (Finset.card_le_card hsubset)

/-- A user process is created from pages below 4 MiB. -/
theorem Walkable.createUser_low {pool : Finset Nat} {k : Kernel}
    (h : Walkable sampleLayout pool k)
    (hpool : AboveKernel sampleLayout pool) {n : Nat}
    (hlow : n + 4 ≤ (k.space.pmm.free.filter (· < 0x400)).card) {slot : Slot}
    (hslot : k.vacantSlot = some slot) :
    ∃ stack code user directory m space,
      UserStarted sampleLayout k.space.memory m stack code user directory ∧
      NewPages sampleLayout stack code user directory ∧
      k.KeepsRoots sampleLayout m ∧ space.memory = m ∧
      n ≤ (space.pmm.free.filter (· < 0x400)).card ∧
      k.processCreateUser paged sampleLayout 0x101000 16 =
        some (k.enterProcess slot (k.userProcess directory stack code user) space,
          k.nextPid.toInt32) ∧
      Walkable sampleLayout pool
        (k.enterProcess slot (k.userProcess directory stack code user) space) := by
  have hsound := h.owned.sound
  have hcard := Finset.card_filter_le k.space.pmm.free (· < 0x400)
  obtain ⟨stack, code, user, directory, m, space, hpages, hstarted, hkeeps, rfl, hcreate,
      hwalkable⟩ :=
    h.createUser_entered hpool (Pmm.lowPages_of_card (by omega)) (by omega) hslot
      (show ¬ ((0x101000 : UInt32) = 0 ∨ (16 : UInt32) = 0 ∨ 4096 < (16 : UInt32)) by decide)
      (by decide)
  refine ⟨stack, code, user, directory, m, _, hstarted, hpages, hkeeps, rfl, ?_, hcreate, hwalkable⟩
  have h₁ := hsound.card_below_allocate 0x400
  have h₂ := hsound.allocatePage.card_below_allocate 0x400
  have h₃ := hsound.allocatePage.allocatePage.card_below_allocate 0x400
  have h₄ := hsound.allocatePage.allocatePage.allocatePage.card_below_allocate 0x400
  simp only
  omega

/-- Isolation of user processes: in every run in which no user process is created while
another one is live, every live user process finds its own code and stack page at the user
addresses, and may use them; and it does not find the pages of another one there. -/
theorem tableRun_isolated {layout : Layout} {bytes : Pmm → Memory} {info : UInt32} {fuel : Nat}
    {pmm : Pmm} {memory : Memory} {esp0 : UInt32} {k₀ : Kernel} {run : TableRun}
    (hpmm : Pmm.pmmInit bytes layout.kernelEnd info fuel = some pmm)
    (hinit : schedulerInit paged layout (Kernel.boot layout memory pmm esp0) = some k₀)
    (hrun : Relation.ReflTransGen (TableRun.AloneStep layout) ⟨k₀, 0⟩ run) :
    let k := run.kernel
    (∀ i, (k.processes i).live = true → (k.processes i).user = true →
      (k.processes i).SeesOwnPages k.space.memory) ∧
    ∀ i j, i ≠ j → (k.processes i).live = true → (k.processes i).user = true →
      (k.processes j).live = true → (k.processes j).user = true →
      ∀ address, address = Kernel.userCodeAddress ∨ address = Kernel.userStackTop - 4096 →
      ∀ a user, translate k.space.memory (k.processes j).directory address = some (a, user) →
        a ≠ (k.processes i).userCodeBase ∧ a ≠ (k.processes i).userStackBase := by
  intro k
  have hisolated : Isolated layout pmm.free k := Isolated.reach (isolated_start hpmm hinit)
    (aboveKernel_pmmInit hpmm) hrun
  refine ⟨fun i hlive huser => hisolated.sees hlive huser, ?_⟩
  intro i j hij hlive huser hlive' huser' address haddress a user hfound
  obtain ⟨hcode, hstack⟩ := hisolated.sees hlive' huser'
  -- what it finds is a page of its own, and no page has two owners
  have hown : a ∈ (k.processes j).pages := by
    rw [Process.pages, if_pos huser']
    rcases haddress with rfl | rfl
    · obtain ⟨rfl, -⟩ := Prod.mk.inj (Option.some.inj (hfound.symm.trans hcode))
      simp
    · obtain ⟨rfl, -⟩ := Prod.mk.inj (Option.some.inj (hfound.symm.trans hstack))
      simp
  have hdisjoint := hisolated.owned.disjoint i j (hisolated.owned.occupied_of_user hlive huser)
    (hisolated.owned.occupied_of_user hlive' huser') hij
  rw [Process.pages, if_pos huser] at hdisjoint
  constructor
  · rintro rfl
    exact hdisjoint (by simp) hown
  · rintro rfl
    exact hdisjoint (by simp) hown

/-- The first user process finds its own pages. -/
theorem tableRun_isolated_created :
    ∃ (pmm : Pmm) (k₀ k₁ : Kernel),
      schedulerInit paged sampleLayout (Kernel.boot sampleLayout (fun _ => 0) pmm 0) = some k₀ ∧
      TableRun.step paged sampleLayout ⟨k₀, 0⟩ (.createUser 0x101000 16) = some ⟨k₁, 1⟩ ∧
      (k₁.processes 1).live = true ∧ (k₁.processes 1).user = true ∧
      (k₁.processes 1).SeesOwnPages k₁.space.memory := by
  obtain ⟨pmm, k₀, hpmm, hinit, hpid, hlow⟩ := noMapPaged
  have hwalkable := walkable_start hpmm hinit
  have hvacant := schedulerInit_vacantSlot hinit
  obtain ⟨stack, code, user, directory, m, space, -, -, -, -, -, hcreate, -⟩ :=
    hwalkable.createUser_low (aboveKernel_pmmInit hpmm)
      (n := 12) hlow hvacant
  set k₁ := k₀.enterProcess 1 (k₀.userProcess directory stack code user) space
  have hself : k₁.processes 1 = k₀.userProcess directory stack code user :=
    k₀.enterProcess_self _ _ _
  have hcall : TableRun.step paged sampleLayout ⟨k₀, 0⟩ (.createUser 0x101000 16) =
      some ⟨k₁, 1⟩ := by
    rw [TableRun.step, hcreate, hpid]
    rfl
  -- there is no user process yet, and enough pages are low
  have halone : (Call.createUser 0x101000 16).Alone sampleLayout k₀ := by
    refine .inr (.inr (.inr ⟨fun i hlive => ?_, Pmm.lowPages_of_card (by omega)⟩))
    by_contra huser
    exact schedulerInit_vacant hinit i
      (hwalkable.owned.occupied_of_user hlive (Bool.not_eq_false _ ▸ huser))
  have hlive : (k₁.processes 1).live = true := by
    rw [hself]
    rfl
  have huser : (k₁.processes 1).user = true := by
    rw [hself]
    rfl
  exact ⟨pmm, k₀, k₁, hinit, hcall, hlive, huser,
    (tableRun_isolated hpmm hinit (.single ⟨_, halone, hcall⟩)).1 1 hlive huser⟩

/-- A second user process is created while the first one is live: from then on the first
one finds the other's code at its own code address. -/
theorem tableRun_shares_code :
    ∃ (pmm : Pmm) (k₀ : Kernel) (run : TableRun) (i j : Slot),
      Pmm.pmmInit (fun _ _ => 0) sampleLayout.kernelEnd 0 0 = some pmm ∧
      schedulerInit paged sampleLayout (Kernel.boot sampleLayout (fun _ => 0) pmm 0) = some k₀ ∧
      Relation.ReflTransGen (TableRun.Step paged sampleLayout) ⟨k₀, 0⟩ run ∧ i ≠ j ∧
      (run.kernel.processes i).live = true ∧ (run.kernel.processes i).user = true ∧
      (run.kernel.processes j).live = true ∧ (run.kernel.processes j).user = true ∧
      translate run.kernel.space.memory (run.kernel.processes i).directory
        Kernel.userCodeAddress = some ((run.kernel.processes j).userCodeBase, true) ∧
      ¬ (run.kernel.processes i).SeesOwnPages run.kernel.space.memory := by
  obtain ⟨pmm, k₀, hpmm, hinit, -, hlow⟩ := noMapPaged
  have hpool : AboveKernel sampleLayout pmm.free := aboveKernel_pmmInit hpmm
  have hwalkable := walkable_start hpmm hinit
  -- the first process
  obtain ⟨stack, code, user, directory, m, space, hstarted, hpages, -, hmemory, hlow₁, hcreate,
    hwalkable₁⟩ := hwalkable.createUser_low hpool (n := 12) hlow (schedulerInit_vacantSlot hinit)
  set p := k₀.userProcess directory stack code user with hp
  set k₁ := k₀.enterProcess 1 p space with hk₁
  have hself : k₁.processes 1 = p := k₀.enterProcess_self _ _ _
  have hlive : (k₁.processes 1).live = true := by
    rw [hself]
    rfl
  have hocc : k₁.Occupied 1 := Kernel.occupied_of_live (by decide) hlive
  -- the second process takes another slot
  obtain ⟨j, hj⟩ : ∃ j, k₁.vacantSlot = some j := by
    refine Option.isSome_iff_exists.mp (List.find?_isSome.mpr ⟨2, by decide, ?_⟩)
    rw [hk₁, k₀.enterProcess_of_ne (show (2 : Slot) ≠ 1 by decide)]
    have hunused : ¬ (k₀.processes 2).state ≠ .unused :=
      fun hused => schedulerInit_vacant hinit 2 ⟨by decide, hused⟩
    rw [Process.vacant, not_not.mp hunused]
    rfl
  have hj1 : (1 : Slot) ≠ j := by
    rintro rfl
    have hvacant := (vacantSlot_spec hj).2
    rw [Process.vacant_eq_not_live, hlive] at hvacant
    cases hvacant
  obtain ⟨stack', code', user', directory', m', space', hstarted', hpages', hkeeps', hmemory', -,
    hcreate', hwalkable₂⟩ := hwalkable₁.createUser_low hpool (n := 8) hlow₁ hj
  set p' := k₁.userProcess directory' stack' code' user' with hp'
  set k₂ := k₁.enterProcess j p' space' with hk₂
  have hfirst : k₂.processes 1 = p := (k₁.enterProcess_of_ne hj1 _ _).trans hself
  have hsecond : k₂.processes j = p' := k₁.enterProcess_self _ _ _
  -- its mappings are in the table that the first one's directory leads to as well
  have hroot : k₁.Root sampleLayout directory :=
    .inr (.inr ⟨1, hocc, (congrArg Process.directory hself).symm⟩)
  have hslot : load32 m' (directory + 4) = identityEntry sampleLayout 1 ||| userFlag := by
    refine (load32_entry_congr (t := 1) hpages.aligned.2.2.2 (hkeeps' _ hroot) (by decide)).trans ?_
    exact hmemory ▸ hstarted.slot
  have hmaps : MapsPages sampleLayout m' directory code' user' :=
    ⟨hslot, hstarted'.first, hstarted'.last⟩
  have hfound := (hmaps.translate hpages'.aligned.2.1 hpages'.aligned.2.2.1).1
  have hne : code ≠ code' := by
    have hdisjoint := hwalkable₂.owned.disjoint 1 j
      ⟨by decide, by rw [hfirst]; rintro ⟨⟩⟩ ⟨(vacantSlot_spec hj).1, by rw [hsecond]; rintro ⟨⟩⟩ hj1
    rw [hfirst, hsecond] at hdisjoint
    rintro rfl
    exact hdisjoint (a := code) (by simp [hp, Process.pages, Kernel.userProcess])
      (by simp [hp', Process.pages, Kernel.userProcess])
  have hcall : TableRun.step paged sampleLayout ⟨k₀, 0⟩ (.createUser 0x101000 16) = _ :=
    congrArg (Option.map (TableRun.count 0)) hcreate
  have hcall' : TableRun.step paged sampleLayout (TableRun.count 0 (k₁, k₀.nextPid.toInt32))
      (.createUser 0x101000 16) = _ := congrArg (Option.map (TableRun.count _)) hcreate'
  refine ⟨pmm, k₀, _, 1, j, hpmm, hinit, .tail (.single ⟨_, hcall⟩) ⟨_, hcall'⟩, hj1, ?_⟩
  change (k₂.processes 1).live = true ∧ (k₂.processes 1).user = true ∧
    (k₂.processes j).live = true ∧ (k₂.processes j).user = true ∧
    translate space'.memory (k₂.processes 1).directory Kernel.userCodeAddress =
      some ((k₂.processes j).userCodeBase, true) ∧
    ¬ (k₂.processes 1).SeesOwnPages space'.memory
  rw [hfirst, hsecond, hmemory']
  refine ⟨rfl, rfl, rfl, rfl, hfound, fun hsees => hne ?_⟩
  exact (congrArg Prod.fst (Option.some.inj (hsees.1.symm.trans hfound)))

end LevOS
