import LevOS.Process.Isolation
import LevOS.Process.Atomicity
import LevOS.Memory.Intact

/-!
# The kernel's view of memory

The kernel's own directory shares its tables with the directories of all processes. As long
as no user process is created those tables and the directories are as `init_paging` left
them, and a creation writes to pages that were free. A user process is mapped through the
table of the user addresses, and the kernel finds its pages there from then on.

## Main definitions

* `Undisturbed`, the invariant
* `Call.Quiet`, calls that create no user process

## Main results

* `Undisturbed.create`, `Undisturbed.createUser_moves`
* `creation_view`
-/

namespace LevOS

open Foundation Memory

/-! ## The invariant -/

/-- The tables and all directories in use are as `init_paging` left them, and the stacks are
below 16 MiB. -/
structure Undisturbed (layout : Layout) (pool : Finset Nat) (k : Kernel) : Prop where
  owned : Owned layout pool k
  tables : TablesIntact layout k.space.memory
  roots : ∀ directory, k.Root layout directory → Intact layout k.space.memory directory
  recursive : load32 k.space.memory (layout.pageDirectory + UInt32.ofNat (4 * 1023)) =
    (layout.pageDirectory ||| presentFlag ||| writableFlag)
  rests : k.Rests layout k.space.cr3
  low : ∀ i, k.Occupied i → LowAddress (k.processes i).stackBase

section Changes

variable {layout : Layout} {pool : Finset Nat} {k k' : Kernel} {m : Memory}

/-- The mappings of the kernel's directory. -/
def Kernel.view (layout : Layout) (k : Kernel) : UInt32 → Option Mapping :=
  Memory.view k.space.memory layout.pageDirectory

theorem Undisturbed.view_low (h : Undisturbed layout pool k) {a : UInt32} (ha : LowAddress a) :
    k.view layout a = some ⟨frameOf a, true, false⟩ :=
  view_intact h.tables (h.roots _ (.inl rfl)) ha

theorem Undisturbed.view_eq (h : Undisturbed layout pool k)
    (hpreserves : k.Preserves layout k'.space.memory) : k'.view layout = k.view layout := by
  funext a
  exact view_kernel_congr (h.roots _ (.inl rfl)) h.recursive hpreserves.tables
    (hpreserves.roots _ (.inl rfl)) a

theorem Undisturbed.intact (h : Undisturbed layout pool k) (hpool : AboveKernel layout pool)
    (hkeeps : k.KeepsRoots layout m) {directory : UInt32} (hroot : k.Root layout directory) :
    Intact layout m directory :=
  (h.roots _ hroot).congr (h.owned.rests_root hpool h.rests hroot).aligned (hkeeps _ hroot)

theorem Undisturbed.setMemory (h : Undisturbed layout pool k) (hpool : AboveKernel layout pool)
    (hpreserves : k.Preserves layout m) {cr3 : UInt32} (hcr3 : k.Root layout cr3) :
    Undisturbed layout pool { k with space := { k.space with memory := m, cr3 := cr3 } } := by
  refine ⟨h.owned.setMemory m cr3, h.tables.congr hpreserves.tables, ?_, ?_, ?_, h.low⟩
  · rintro directory (rfl | rfl | ⟨i, hi, rfl⟩)
    · exact h.intact hpool hpreserves.roots (.inl rfl)
    · exact h.intact hpool hpreserves.roots hcr3
    · exact h.intact hpool hpreserves.roots (.inr (.inr ⟨i, hi, rfl⟩))
  · rw [← h.recursive]
    exact load32_entry_congr layout.pageDirectory_aligned (hpreserves.roots _ (.inl rfl))
      (by decide)
  · have hrests := h.owned.rests_root hpool h.rests hcr3
    exact ⟨hrests.aligned, hrests.place⟩

/-- Changes of states and fewer free pages do not matter. -/
theorem Undisturbed.congr (h : Undisturbed layout pool k) (howned : Owned layout pool k')
    (hmemory : k'.space.memory = k.space.memory) (hcr3 : k'.space.cr3 = k.space.cr3)
    (hfree : k'.space.pmm.free ⊆ k.space.pmm.free) (hlabels : k.Relabels k') :
    Undisturbed layout pool k' := by
  refine ⟨howned, hmemory ▸ h.tables, ?_, hmemory ▸ h.recursive, ?_, fun i hi => ?_⟩
  · rw [hmemory]
    rintro directory (rfl | rfl | ⟨i, hi, rfl⟩)
    · exact h.roots _ (.inl rfl)
    · exact h.roots _ (.inr (.inl hcr3))
    · obtain ⟨hocc, -, hdirectory⟩ := hlabels.pages hi
      exact h.roots _ (.inr (.inr ⟨i, hocc, hdirectory⟩))
  · rw [hcr3]
    exact h.rests.congr hfree hlabels
  · obtain ⟨hocc, hstack, -⟩ := hlabels.pages hi
    rw [hstack]
    exact h.low i hocc

theorem Undisturbed.failed (h : Undisturbed layout pool k) (howned : Owned layout pool k')
    (hfailed : k.Failed k') : Undisturbed layout pool k' := by
  obtain ⟨pmm, rfl, -, hfree⟩ := hfailed
  exact h.congr howned rfl rfl hfree.le (.refl rfl)

/-- A process whose directory is a copy of the kernel's may take a slot. -/
theorem Undisturbed.enter (h : Undisturbed layout pool k) (hpool : AboveKernel layout pool)
    {slot : Slot} {process : Process} {pmm : Pmm} (hslot : k.vacantSlot = some slot)
    (hfresh : Fresh k.space.pmm pmm process) (hpreserves : k.Preserves layout m)
    (hstack : LowAddress process.stackBase) (hintact : Intact layout m process.directory) :
    Undisturbed layout pool
      (k.enterProcess slot process { k.space with memory := m, pmm := pmm }) := by
  have hmemory := h.setMemory hpool hpreserves (.inr (.inl rfl))
  have hold {i : Slot} (hi : i ≠ slot)
      (hocc : (k.enterProcess slot process { k.space with memory := m, pmm := pmm }).Occupied i) :
      k.Occupied i := ⟨hocc.1, k.enterProcess_of_ne hi process _ ▸ hocc.2⟩
  refine ⟨h.owned.enter (vacantSlot_spec hslot).1 hfresh, hmemory.tables, ?_, hmemory.recursive,
    h.rests.enter hfresh, fun i hocc => ?_⟩
  · rintro directory (rfl | rfl | ⟨i, hocc, rfl⟩)
    · exact hmemory.roots _ (.inl rfl)
    · exact hmemory.roots _ (.inr (.inl rfl))
    · by_cases hi : i = slot
      · rw [hi, k.enterProcess_self]
        exact hintact
      · rw [k.enterProcess_of_ne hi]
        exact hmemory.roots _ (.inr (.inr ⟨i, hold hi hocc, rfl⟩))
  · by_cases hi : i = slot
    · rw [hi, k.enterProcess_self]
      exact hstack
    · rw [k.enterProcess_of_ne hi]
      exact h.low i (hold hi hocc)

end Changes

/-! ## Creations -/

section Creations

variable {layout : Layout} {pool : Finset Nat} {k k' : Kernel} {result : Int32}

theorem Undisturbed.plain (h : Undisturbed layout pool k) :
    Plain paged k.space.cr3
      (fun m => TablesIntact layout m ∧ Intact layout m k.space.cr3) LowAddress
      (fun a => LowAddress a ∧ Outside a layout.identityTables 16384 ∧
        Outside a k.space.cr3 4096) :=
  plain_intact h.rests.aligned

theorem Undisturbed.good (h : Undisturbed layout pool k) :
    TablesIntact layout k.space.memory ∧ Intact layout k.space.memory k.space.cr3 :=
  ⟨h.tables, h.roots _ (.inr (.inl rfl))⟩

/-- The kernel may write to a free page below 16 MiB. -/
theorem Undisturbed.writable (h : Undisturbed layout pool k) {page a : UInt32}
    (haligned : page.toNat % 4096 = 0) (habove : layout.kernelEnd.toNat ≤ page.toNat)
    (hfree : page.toNat / 4096 ∈ k.space.pmm.free) (hlow : LowAddress page)
    (ha : ¬ Outside a page 4096) :
    LowAddress a ∧ Outside a layout.identityTables 16384 ∧ Outside a k.space.cr3 4096 := by
  have hmem := layout.identityTables_mem
  refine ⟨?_, ?_, ?_⟩
  · unfold LowAddress Outside at *
    omega
  · unfold Outside at *
    omega
  · by_contra hin
    exact ha (h.rests.outside_free haligned habove hfree hin)

/-- The kernel faults on a directory that it does not reach. -/
theorem Undisturbed.directory_low (h : Undisturbed layout pool k) {s : Space} {directory : UInt32}
    {pmm : Pmm}
    (hcreate : createPageDirectory paged layout { k.space with pmm := pmm } = some (s, directory))
    (hne : directory ≠ 0) (hbelow : directory.toNat < 0xFFC00000) : LowAddress directory := by
  by_contra hhigh
  exact createPageDirectory_reaches hcreate hne (paged_absent h.good.2 hhigh hbelow)

/-- The pages of a `process_create` that returns: free pages below 16 MiB. -/
theorem Undisturbed.create_pages (h : Undisturbed layout pool k) (hpool : AboveKernel layout pool)
    {entry argument : UInt32} (hreason : ¬ (entry = 0 ∨ k.vacantSlot = none))
    (hbelow : k.space.pmm.allocatePage.2.allocatePage.1.toNat < 0xFFC00000)
    (hcreate : k.processCreate paged layout entry argument = some (k', result))
    (hne : k.space.pmm.allocatePage.2.allocatePage.1 ≠ 0) :
    ∀ page ∈ [k.space.pmm.allocatePage.1, k.space.pmm.allocatePage.2.allocatePage.1],
      page.toNat % 4096 = 0 ∧ layout.kernelEnd.toNat ≤ page.toNat ∧
        page.toNat / 4096 ∈ k.space.pmm.free ∧ LowAddress page := by
  have hsound := h.owned.sound
  have hfirst := hsound.ne_zero_of_next hne
  have hlt := hsound.allocatePage_lt hfirst hne
  obtain ⟨-, -, hpage⟩ := (hsound.takenTwo hfirst hne).spec
  -- the call returns, so it has reached the directory, and the stack is below it
  have hdirectory : LowAddress k.space.pmm.allocatePage.2.allocatePage.1 := by
    rcases processCreate_cases hcreate with ⟨hnone, -⟩ | ⟨slot, s, d, -, hmade, -⟩
    · exact absurd hnone hreason
    · have hd : d = k.space.pmm.allocatePage.2.allocatePage.1 := (createPageDirectory_eq hmade).1
      rw [← hd] at hne hbelow ⊢
      exact h.directory_low hmade hne hbelow
  have hlow : ∀ page ∈ [k.space.pmm.allocatePage.1, k.space.pmm.allocatePage.2.allocatePage.1],
      LowAddress page := by
    intro page hmem
    rcases List.mem_pair.mp hmem with rfl | rfl
    · unfold LowAddress at *
      omega
    · exact hdirectory
  intro page hmem
  obtain ⟨-, haligned, hfree, -⟩ := hpage page hmem
  have habove := hpool _ (h.owned.free_subset hfree)
  exact ⟨haligned, by omega, hfree, hlow page hmem⟩

/-- What a creation reads from and writes to is below 16 MiB. -/
theorem Undisturbed.reaches (h : Undisturbed layout pool k) {stack directory : UInt32}
    (hpages : ∀ page ∈ [stack, directory], page.toNat % 4096 = 0 ∧
      layout.kernelEnd.toNat ≤ page.toNat ∧ page.toNat / 4096 ∈ k.space.pmm.free ∧
      LowAddress page) :
    let writable := fun a => LowAddress a ∧ Outside a layout.identityTables 16384 ∧
      Outside a k.space.cr3 4096
    EachWord LowAddress layout.pageDirectory 1024 ∧ EachWord writable directory 1024 ∧
      EachWord writable (stack + 4096 - contextSize) contextWords := by
  have hkaligned := layout.pageDirectory_aligned
  have hdmem := layout.pageDirectory_mem
  have himage := layout.image_le
  obtain ⟨hsaligned, hsabove, hsfree, hslow⟩ := hpages stack List.mem_cons_self
  obtain ⟨hdaligned, hdabove, hdfree, hdlow⟩ :=
    hpages directory (List.mem_cons_of_mem _ List.mem_cons_self)
  refine ⟨?_, ?_, ?_⟩
  · refine eachWord_of_page hkaligned (Nat.add_zero _).symm rfl (by decide) fun a ha => ?_
    unfold LowAddress Outside at *
    omega
  · exact eachWord_of_page hdaligned (Nat.add_zero _).symm rfl (by decide)
      fun a ha => h.writable hdaligned hdabove hdfree hdlow ha
  · exact eachWord_of_page hsaligned (context_toNat hsaligned) rfl (by decide)
      fun a ha => h.writable hsaligned hsabove hsfree hslow ha

/-- `process_create` keeps the kernel's view, unless its directory lies where directories
map themselves. -/
theorem Undisturbed.create (h : Undisturbed layout pool k) (hpool : AboveKernel layout pool)
    {entry argument : UInt32}
    (hbelow : ¬ (entry = 0 ∨ k.vacantSlot = none) →
      k.space.pmm.allocatePage.2.allocatePage.1.toNat < 0xFFC00000)
    (hcreate : k.processCreate paged layout entry argument = some (k', result)) :
    Undisturbed layout pool k' ∧ k'.view layout = k.view layout := by
  have hsound := h.owned.sound
  have habove : AboveKernel layout k.space.pmm.free := hpool.mono h.owned.free_subset
  have howned := h.owned.creation (processCreate_creation hsound hcreate)
  -- a refusal changes nothing, and a failure gives its page back
  by_cases hreason : entry = 0 ∨ k.vacantSlot = none
  · obtain rfl := processCreate_refused hcreate hreason
    exact ⟨h, rfl⟩
  have hpages := h.create_pages hpool hreason (hbelow hreason) hcreate
  rcases processCreate_plain hsound habove h.plain h.good hcreate
    (fun hne => h.reaches (hpages hne)) with
    hfailed | ⟨slot, m, hvacant, hstarted, hgood, hstack, hdirectory, rfl⟩
  · have hview := h.failed howned hfailed
    obtain ⟨pmm, rfl, -⟩ := hfailed
    exact ⟨hview, rfl⟩
  · have hfresh := fresh_kernelProcess hsound hstack hdirectory k entry argument
    specialize hpages hdirectory
    generalize k.space.pmm.allocatePage.2.allocatePage.2 = pmm at *
    generalize k.space.pmm.allocatePage.2.allocatePage.1 = directory at *
    generalize k.space.pmm.allocatePage.1 = stack at *
    obtain ⟨hsaligned, hsabove, hsfree, hslow⟩ := hpages stack List.mem_cons_self
    obtain ⟨hdaligned, hdabove, hdfree, -⟩ :=
      hpages directory (List.mem_cons_of_mem _ List.mem_cons_self)
    have htmem := layout.identityTables_mem
    -- what is written is in the two new pages, so that the roots are kept
    have hkeeps : k.KeepsRoots layout m := by
      refine h.owned.keepsRoots hpool h.rests fun a _ hfree => hstarted.frame a ?_ ?_
      · exact hfree stack hsaligned hsabove hsfree
      · exact hfree directory hdaligned hdabove hdfree
    have hpreserves : k.Preserves layout m := by
      refine ⟨fun a ha => hstarted.frame a ?_ ?_, hkeeps⟩
      · unfold Outside at *
        omega
      · unfold Outside at *
        omega
    have hintact : Intact layout m directory := by
      intro t ht
      rw [hstarted.entries t ht]
      exact h.roots _ (.inl rfl) t ht
    exact ⟨h.enter hpool hvacant hfresh hpreserves hslow hintact, h.view_eq hpreserves⟩

/-- A `process_create_user` that cannot enter a process changes nothing. -/
theorem Owned.createUser_idle {access : Access} (h : Owned layout pool k) {image imageSize : UInt32}
    (hidle : (image = 0 ∨ imageSize = 0 ∨ 4096 < imageSize) ∨ k.vacantSlot = none ∨
      k.space.pmm.pmmFreePages.toNat < 4)
    (hcreate : k.processCreateUser access layout image imageSize = some (k', result)) : k' = k := by
  have hcount : k.space.pmm.pmmFreePages.toNat = k.space.pmm.free.card := h.sound.counted
  rcases hidle with hrejected | hnone | hfew
  · exact processCreateUser_refused hcreate (.inl hrejected)
  · exact processCreateUser_refused hcreate (.inr hnone)
  · rcases processCreateUser_failed h.sound hcreate with ⟨henough, -⟩ | hrefused
    · omega
    · exact hrefused.unchanged

/-- A user process whose pages the identity tables reach is found in the kernel's own view,
at the address of its code. -/
theorem Undisturbed.createUser_moves (h : Undisturbed layout pool k)
    (hpool : AboveKernel layout pool) (hlow : k.space.pmm.LowPages 4) {image imageSize : UInt32}
    (hbusy : ¬ ((image = 0 ∨ imageSize = 0 ∨ 4096 < imageSize) ∨ k.vacantSlot = none ∨
      k.space.pmm.pmmFreePages.toNat < 4))
    (hcreate : k.processCreateUser paged layout image imageSize = some (k', result)) :
    k'.view layout Kernel.userCodeAddress ≠ k.view layout Kernel.userCodeAddress := by
  have hsound := h.owned.sound
  have habove : AboveKernel layout k.space.pmm.free := hpool.mono h.owned.free_subset
  have hcount : k.space.pmm.pmmFreePages.toNat = k.space.pmm.free.card := hsound.counted
  have hentry := (h.roots _ (.inl rfl)).entry (t := 1) (by decide)
  rcases processCreateUser_plain hsound habove (plain_paged h.rests.apart)
    ⟨h.tables.kept, h.good.2.leads⟩ hentry hcreate
    (fun hne => h.owned.reaches_lowest hpool h.rests (fun _ => hlow) hne) with
    hfailed | ⟨slot, m, hvacant, hpages, hstarted, -, rfl⟩
  · -- a failure has a reason
    obtain ⟨pmm, rfl, -⟩ := hfailed
    have hreason := (processCreateUser_creation hsound hcreate).reason rfl
    rw [← hcount] at hreason
    exact absurd hreason hbusy
  have hne : k.space.pmm.allocatePage.2.allocatePage.2.allocatePage.2.allocatePage.1 ≠ 0 := by
    obtain ⟨-, -, hpage⟩ := (hpages.taken hsound).spec
    exact (hpage _ (by simp)).1
  have hidentity := (h.owned.given_lowest hpool (fun _ => hlow) hne).2.1.identity
  obtain ⟨hsaligned, hcaligned, -, hdaligned⟩ := hpages.aligned
  obtain ⟨hsabove, hcabove, -, hdabove⟩ := hpages.above
  have hdmem := layout.pageDirectory_mem
  have htmem := layout.identityTables_mem
  have hapart := layout.directory_tables
  have htable : (tableAddress layout 1).toNat = layout.identityTables.toNat + 4096 * 1 :=
    tableAddress_toNat (by decide)
  -- the kernel's directory is none of the pages that are written to
  have hentry' :
      load32 m (layout.pageDirectory + UInt32.ofNat (4 * 1)) = identityEntry layout 1 := by
    rw [← hentry]
    refine load32_entry_congr layout.pageDirectory_aligned (fun a ha => ?_) (by decide)
    apply hstarted.frame a <;> unfold Outside at * <;> omega
  have hview : Memory.view m layout.pageDirectory Kernel.userCodeAddress =
      mappingOf (identityEntry layout 1)
        (frameOf k.space.pmm.allocatePage.2.allocatePage.1 ||| flagsFor 0x55) := by
    rw [Memory.view_eq]
    change mappingOf (entryAt m layout.pageDirectory 1)
      (entryAt m (frameOf (entryAt m layout.pageDirectory 1)) 0) = _
    rw [entryAt, hentry', frameOf_identityEntry (by decide), entryAt,
      show tableAddress layout 1 + UInt32.ofNat (4 * 0) = tableAddress layout 1 from
        UInt32.add_zero _, hstarted.first]
  intro hsame
  have hlowAddress : LowAddress Kernel.userCodeAddress := by
    change Kernel.userCodeAddress.toNat < 0x1000000
    decide
  rw [h.view_low hlowAddress, Kernel.view] at hsame
  have hframe := frame_of_mappingOf (hview.symm.trans hsame)
  rw [frameOf_of_aligned hcaligned, frameOf_or_flags hcaligned (by decide)] at hframe
  rw [← hframe] at hidentity
  exact hidentity.2.1 rfl

end Creations

/-! ## Exits and passes -/

section Steps

variable {layout : Layout} {pool : Finset Nat} {k k' : Kernel}

theorem Undisturbed.terminate (h : Undisturbed layout pool k) :
    Undisturbed layout pool k.processTerminateCurrent := by
  have howned := h.owned.terminate
  rcases h.owned.terminate_cases with ⟨-, heq⟩ | ⟨r, -, hocc, heq⟩
  · rw [heq]
    exact h
  · rw [heq] at howned ⊢
    exact h.congr howned rfl rfl subset_rfl (Kernel.relabels_setState hocc .zombie)

theorem Undisturbed.saved (h : Undisturbed layout pool k) (hpool : AboveKernel layout pool)
    {r : Slot} (hr : k.Used r) {context : UInt32} {space : Space}
    (hsave : k.savedSpace paged r context = some space) :
    ∃ m, space = { k.space with memory := m } ∧ k.Preserves layout m := by
  refine h.owned.saved hpool h.rests h.plain h.good hr (fun a ha => ?_) hsave
  refine ⟨?_, h.owned.context_apart hpool hr h.rests ha⟩
  rcases h.owned.context_page hpool hr ha with himage | ⟨hocc, hpage⟩
  · unfold LowAddress
    omega
  · have hstack := h.low r hocc
    unfold LowAddress at *
    omega

theorem Undisturbed.schedule (h : Undisturbed layout pool k) (hpool : AboveKernel layout pool)
    {context next : UInt32} (hschedule : k.schedule paged layout context = some (k', next)) :
    Undisturbed layout pool k' := by
  have howned := h.owned.schedule hschedule
  obtain ⟨r, hr, ⟨-, -, rfl, -⟩ | ⟨i, space, -, hnext, hsave, -, rfl⟩⟩ :=
    h.owned.schedule_cases hschedule
  · exact h.congr howned rfl rfl subset_rfl (.refl rfl)
  · have hused := h.owned.used_running hr
    obtain ⟨m, rfl, hpreserves⟩ := h.saved hpool hused hsave
    have hlabels := Kernel.relabels_dispatch (k := { k with space := { k.space with memory := m } })
      layout (Kernel.live_of_nextLive hnext)
    exact (h.setMemory hpool hpreserves (.inr (.inl rfl))).congr howned rfl rfl subset_rfl hlabels

end Steps

/-! ## Runs -/

/-- No user process is created, the directory of a kernel process is not where directories
map themselves, and what else runs keeps the tables and the directories, and runs in one of
them. -/
def Call.Quiet (layout : Layout) (k : Kernel) : Call → Prop
  | .create entry _ => entry = 0 ∨ k.vacantSlot = none ∨
    k.space.pmm.allocatePage.2.allocatePage.1.toNat < 0xFFC00000
  | .createUser image imageSize => (image = 0 ∨ imageSize = 0 ∨ 4096 < imageSize) ∨
    k.vacantSlot = none ∨ k.space.pmm.pmmFreePages.toNat < 4
  | .tick _ | .yield _ | .terminate => True
  | .other memory cr3 => k.Preserves layout memory ∧ k.Root layout cr3

/-- One run leads to another by a call that creates no user process. -/
def TableRun.QuietStep (layout : Layout) (run run' : TableRun) : Prop :=
  ∃ call : Call, call.Quiet layout run.kernel ∧ run.step paged layout call = some run'

section Runs

variable {layout : Layout} {pool : Finset Nat} {run run' : TableRun}

/-- With two low pages and a vacant slot `process_create` succeeds, and is quiet. -/
theorem Undisturbed.create_entered {k : Kernel} (h : Undisturbed layout pool k)
    (hpool : AboveKernel layout pool) (hlow : k.space.pmm.LowPages 2)
    (hcard : 2 ≤ k.space.pmm.free.card) {slot : Slot} (hslot : k.vacantSlot = some slot)
    {entry : UInt32} (hentry : entry ≠ 0) (argument : UInt32) :
    (Call.create entry argument).Quiet layout k ∧
      ∃ process space, k.processCreate paged layout entry argument =
        some (k.enterProcess slot process space, k.nextPid.toInt32) := by
  have hsound := h.owned.sound
  obtain ⟨hstack, hdirectory⟩ := hsound.two_ne_zero hcard
  obtain ⟨hgiven, hshrinks, hlow⟩ := h.owned.given hpool (.refl hsound) hlow hstack
  obtain ⟨hgiven', -, -⟩ := h.owned.given hpool hshrinks hlow hdirectory
  have hbelow {page : UInt32} (hpage : k.Given layout page) : LowAddress page := by
    have hidentity := hpage.identity.1
    unfold LowAddress
    omega
  have hpages : ∀ page ∈ [k.space.pmm.allocatePage.1, k.space.pmm.allocatePage.2.allocatePage.1],
      page.toNat % 4096 = 0 ∧ layout.kernelEnd.toNat ≤ page.toNat ∧
        page.toNat / 4096 ∈ k.space.pmm.free ∧ LowAddress page := by
    intro page hmem
    rcases List.mem_pair.mp hmem with rfl | rfl
    · exact ⟨hgiven.aligned, hgiven.above, hgiven.free, hbelow hgiven⟩
    · exact ⟨hgiven'.aligned, hgiven'.above, hgiven'.free, hbelow hgiven'⟩
  obtain ⟨hsource, hentries, hcontext⟩ := h.reaches hpages
  refine ⟨.inr (.inr ?_), processCreate_total hsound h.plain h.good hentry argument hslot hcard
    hsource hentries hcontext⟩
  have hlowest := hbelow hgiven'
  unfold LowAddress at hlowest
  exact hlowest.trans (by decide)

/-- What a quiet creation keeps. -/
theorem Undisturbed.creation {k k' : Kernel} {result : Int32} (h : Undisturbed layout pool k)
    (hpool : AboveKernel layout pool) :
    (∀ entry argument, (Call.create entry argument).Quiet layout k →
        k.processCreate paged layout entry argument = some (k', result) →
        Undisturbed layout pool k' ∧ k'.view layout = k.view layout) ∧
      ∀ image imageSize, (Call.createUser image imageSize).Quiet layout k →
        k.processCreateUser paged layout image imageSize = some (k', result) →
        Undisturbed layout pool k' ∧ k'.view layout = k.view layout := by
  constructor
  · intro entry argument hquiet hcreate
    refine h.create hpool (fun hreason => ?_) hcreate
    obtain ⟨hentry, hvacant⟩ := not_or.mp hreason
    exact (hquiet.resolve_left hentry).resolve_left hvacant
  · intro image imageSize hquiet hcreate
    obtain rfl := h.owned.createUser_idle hquiet hcreate
    exact ⟨h, rfl⟩

theorem Undisturbed.step (h : Undisturbed layout pool run.kernel) (hpool : AboveKernel layout pool)
    (hstep : run.QuietStep layout run') : Undisturbed layout pool run'.kernel := by
  obtain ⟨call, hquiet, hcall⟩ := hstep
  cases call with
  | create entry argument =>
    obtain ⟨⟨k, result⟩, hcreate, rfl⟩ := Option.map_eq_some_iff.mp hcall
    exact ((h.creation hpool).1 entry argument hquiet hcreate).1
  | createUser image imageSize =>
    obtain ⟨⟨k, result⟩, hcreate, rfl⟩ := Option.map_eq_some_iff.mp hcall
    exact ((h.creation hpool).2 image imageSize hquiet hcreate).1
  | tick context =>
    obtain ⟨⟨k, next⟩, htick, rfl⟩ := Option.map_eq_some_iff.mp hcall
    have hcounted : Undisturbed layout pool
        { run.kernel with quantumTicks := run.kernel.quantumTicks + 1 } :=
      h.congr (h.owned.congr (.refl h.owned.sound) h.owned.current rfl rfl (.refl rfl)) rfl rfl
        subset_rfl (.refl rfl)
    exact hcounted.schedule hpool htick
  | yield context =>
    obtain ⟨⟨k, next⟩, hyield, rfl⟩ := Option.map_eq_some_iff.mp hcall
    exact h.schedule hpool hyield
  | terminate =>
    obtain rfl := Option.some.inj hcall
    exact h.terminate
  | other memory cr3 =>
    obtain rfl := Option.some.inj hcall
    exact h.setMemory hpool hquiet.1 hquiet.2

theorem Undisturbed.reach (h : Undisturbed layout pool run.kernel)
    (hpool : AboveKernel layout pool)
    (hsteps : Relation.ReflTransGen (TableRun.QuietStep layout) run run') :
    Undisturbed layout pool run'.kernel := by
  induction hsteps with
  | refl => exact h
  | tail _ hstep ih => exact ih.step hpool hstep

/-- The kernel's directory and the tables are as `init_paging` left them when
`scheduler_init` returns. -/
theorem undisturbed_start {bytes : Pmm → Memory} {info : UInt32} {fuel : Nat} {pmm : Pmm}
    {memory : Memory} {esp0 : UInt32} {k₀ : Kernel}
    (hpmm : Pmm.pmmInit bytes layout.kernelEnd info fuel = some pmm)
    (hinit : schedulerInit paged layout (Kernel.boot layout memory pmm esp0) = some k₀) :
    Undisturbed layout pmm.free k₀ := by
  have hwalkable := walkable_start hpmm hinit
  have hvacant := schedulerInit_vacant hinit
  have hspace := schedulerInit_space hinit
  set s : Space := { memory := memory, cr3 := 0, pmm := pmm }
  have htables : TablesIntact layout (Kernel.boot layout memory pmm esp0).space.memory :=
    initPaging_tables layout s
  have hintact : Intact layout (Kernel.boot layout memory pmm esp0).space.memory
      layout.pageDirectory := initPaging_intact layout s
  have hself : load32 (Kernel.boot layout memory pmm esp0).space.memory
      (layout.pageDirectory + UInt32.ofNat (4 * 1023)) =
        (layout.pageDirectory ||| presentFlag ||| writableFlag) := initPaging_recursive layout s
  have hcr3 : (Kernel.boot layout memory pmm esp0).space.cr3 = layout.pageDirectory := rfl
  generalize Kernel.boot layout memory pmm esp0 = k at *
  obtain ⟨hclear, -⟩ := clear_bootstrapContext hcr3 htables.kept hintact.leads
  have hspace := Option.some.inj (hspace.symm.trans hclear)
  have hcontext := bootstrapContextAddress_toNat layout
  have hbmem := layout.bootstrapStack_mem
  have himage := layout.image_le
  have htapart := layout.tables_bootstrap
  have hdapart := layout.directory_bootstrap
  -- the context that is cleared is in neither
  have hframe {a : UInt32} (ha : Outside a (bootstrapContextAddress layout) 60) :
      k₀.space.memory a = k.space.memory a := by
    rw [hspace]
    exact clearWords_outside (n := 15) ha (by omega)
  have hdirectory : ∀ a, ¬ Outside a layout.pageDirectory 4096 →
      k₀.space.memory a = k.space.memory a := by
    intro a ha
    apply hframe
    unfold Outside at *
    omega
  have hintact' := hintact.congr layout.pageDirectory_aligned hdirectory
  refine ⟨hwalkable.owned, htables.congr fun a ha => hframe ?_, ?_, ?_, hwalkable.rests,
    fun i hi => absurd hi (hvacant i)⟩
  · unfold Outside at *
    omega
  · rintro directory (rfl | rfl | ⟨i, hi, rfl⟩)
    · exact hintact'
    · rw [hspace]
      change Intact layout _ k.space.cr3
      rw [hcr3, ← hspace]
      exact hintact'
    · exact absurd hi (hvacant i)
  · rw [load32_entry_congr layout.pageDirectory_aligned hdirectory (by decide)]
    exact hself

end Runs

/-- The kernel's view of memory: in every run in which no user process is created the
kernel's directory maps each page below 16 MiB onto itself, for the kernel alone, and a
creation that is quiet too leaves the mapping of every address as it was. A user process
that is created changes the mapping of its code address, where the identity tables reach the
pages it is given. -/
theorem creation_view {layout : Layout} {bytes : Pmm → Memory} {info : UInt32} {fuel : Nat}
    {pmm : Pmm} {memory : Memory} {esp0 : UInt32} {k₀ : Kernel} {run : TableRun}
    (hpmm : Pmm.pmmInit bytes layout.kernelEnd info fuel = some pmm)
    (hinit : schedulerInit paged layout (Kernel.boot layout memory pmm esp0) = some k₀)
    (hrun : Relation.ReflTransGen (TableRun.QuietStep layout) ⟨k₀, 0⟩ run) :
    let k := run.kernel
    (∀ a : UInt32, a.toNat < 0x1000000 → k.view layout a = some ⟨frameOf a, true, false⟩) ∧
      (∀ entry argument k' result, (Call.create entry argument).Quiet layout k →
        k.processCreate paged layout entry argument = some (k', result) →
        ∀ a, k'.view layout a = k.view layout a) ∧
      ∀ image imageSize k' result,
        k.processCreateUser paged layout image imageSize = some (k', result) →
        ((Call.createUser image imageSize).Quiet layout k →
            ∀ a, k'.view layout a = k.view layout a) ∧
          (k.space.pmm.LowPages 4 → (∀ a, k'.view layout a = k.view layout a) →
            (Call.createUser image imageSize).Quiet layout k) := by
  intro k
  have hpool := aboveKernel_pmmInit hpmm
  have hview : Undisturbed layout pmm.free k := (undisturbed_start hpmm hinit).reach hpool hrun
  refine ⟨fun a ha => hview.view_low ha, ?_, ?_⟩
  · intro entry argument k' result hquiet hcreate a
    exact congrFun ((hview.creation hpool).1 entry argument hquiet hcreate).2 a
  · intro image imageSize k' result hcreate
    constructor
    · intro hquiet a
      exact congrFun ((hview.creation hpool).2 image imageSize hquiet hcreate).2 a
    · intro hlow hsame
      by_contra hbusy
      exact hview.createUser_moves hpool hlow hbusy hcreate (hsame Kernel.userCodeAddress)

/-- A kernel process is created after a boot without a memory map, in two of the pages below
4 MiB: the kernel finds the page at 4 MiB where it was. -/
theorem creation_view_kernel :
    ∃ (pmm : Pmm) (k₀ k₁ : Kernel),
      Pmm.pmmInit (fun _ _ => 0) sampleLayout.kernelEnd 0 0 = some pmm ∧
      schedulerInit paged sampleLayout (Kernel.boot sampleLayout (fun _ => 0) pmm 0) = some k₀ ∧
      TableRun.step paged sampleLayout ⟨k₀, 0⟩ (.create 0x101000 0) = some ⟨k₁, 1⟩ ∧
      k₁.view sampleLayout 0x400000 = some ⟨0x400000, true, false⟩ := by
  obtain ⟨pmm, k₀, hpmm, hinit, hpid, hlow⟩ := noMapPaged
  obtain ⟨hquiet, process, space, hcreate⟩ := (undisturbed_start hpmm hinit).create_entered
    (aboveKernel_pmmInit hpmm) (Pmm.lowPages_of_card (by omega))
    (le_trans (by omega) (Finset.card_filter_le k₀.space.pmm.free (· < 0x400)))
    (schedulerInit_vacantSlot hinit) (show (0x101000 : UInt32) ≠ 0 by decide) 0
  have hcall : TableRun.step paged sampleLayout ⟨k₀, 0⟩ (.create 0x101000 0) =
      some ⟨k₀.enterProcess 1 process space, 1⟩ := by
    rw [TableRun.step, hcreate, hpid]
    rfl
  have hreach : Relation.ReflTransGen (TableRun.QuietStep sampleLayout) ⟨k₀, 0⟩ _ :=
    .single ⟨_, hquiet, hcall⟩
  exact ⟨pmm, k₀, _, hpmm, hinit, hcall,
    (creation_view hpmm hinit hreach).1 0x400000 (by decide)⟩

/-- The first user process is created after a boot without a memory map: the kernel no
longer finds the page at 4 MiB there. -/
theorem creation_view_moved :
    ∃ (pmm : Pmm) (k₀ k₁ : Kernel),
      Pmm.pmmInit (fun _ _ => 0) sampleLayout.kernelEnd 0 0 = some pmm ∧
      schedulerInit paged sampleLayout (Kernel.boot sampleLayout (fun _ => 0) pmm 0) = some k₀ ∧
      k₀.processCreateUser paged sampleLayout 0x101000 16 = some (k₁, 1) ∧
      k₀.view sampleLayout 0x400000 = some ⟨0x400000, true, false⟩ ∧
      k₁.view sampleLayout 0x400000 ≠ some ⟨0x400000, true, false⟩ := by
  obtain ⟨pmm, k₀, hpmm, hinit, hpid, hlow⟩ := noMapPaged
  have hpool : AboveKernel sampleLayout pmm.free := aboveKernel_pmmInit hpmm
  have hview := undisturbed_start hpmm hinit
  have hvacant := schedulerInit_vacantSlot hinit
  obtain ⟨stack, code, user, directory, m, space, -, -, -, -, -, hcreate, -⟩ :=
    (walkable_start hpmm hinit).createUser_low hpool (n := 12) hlow hvacant
  have hcount : k₀.space.pmm.pmmFreePages.toNat = k₀.space.pmm.free.card :=
    hview.owned.sound.counted
  have hcard := Finset.card_filter_le k₀.space.pmm.free (· < 0x400)
  have hbusy : ¬ (((0x101000 : UInt32) = 0 ∨ (16 : UInt32) = 0 ∨ (4096 : UInt32) < 16) ∨
      k₀.vacantSlot = none ∨ k₀.space.pmm.pmmFreePages.toNat < 4) := by
    rw [hvacant]
    rintro (hrejected | hnone | hfew)
    · exact absurd hrejected (by decide)
    · cases hnone
    · omega
  have hmoves := hview.createUser_moves hpool (Pmm.lowPages_of_card (by omega)) hbusy hcreate
  have hbefore : k₀.view sampleLayout 0x400000 = some ⟨0x400000, true, false⟩ :=
    hview.view_low (show (0x400000 : UInt32).toNat < 0x1000000 by decide)
  rw [hpid] at hcreate
  exact ⟨pmm, k₀, _, hpmm, hinit, hcreate, hbefore, fun hsame => hmoves (hsame.trans hbefore.symm)⟩

end LevOS
