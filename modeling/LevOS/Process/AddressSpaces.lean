import LevOS.Process.Conservation
import LevOS.Memory.Paged

/-!
# Directories and tables

The kernel runs in the directory of whichever process was interrupted. It finds its
tables and its stacks in every one of them, as long as nothing writes to the directories
and processes are given pages that the identity tables reach.

## Main definitions

* `Kernel.Root`, `Kernel.Rests`, the directories in use
* `Walkable`, the invariant

## Main results

* `Walkable.createUser`, `Walkable.create`, `Walkable.saved`
* `walkable_start`
-/

namespace LevOS

open Foundation Memory

/-! ## Directories in use -/

/-- A directory in use: the kernel's, the one in force, or that of a process. -/
def Kernel.Root (layout : Layout) (k : Kernel) (directory : UInt32) : Prop :=
  directory = layout.pageDirectory ∨ directory = k.space.cr3 ∨
    ∃ i, k.Occupied i ∧ directory = (k.processes i).directory

/-- The directory is in a page that no creation and no saved context writes to. -/
structure Kernel.Rests (layout : Layout) (k : Kernel) (directory : UInt32) : Prop where
  aligned : directory.toNat % 4096 = 0
  place : directory = layout.pageDirectory ∨ layout.kernelEnd.toNat ≤ directory.toNat ∧
    directory.toNat / 4096 ∉ k.space.pmm.free ∧
    ∀ i, k.Occupied i → directory ≠ (k.processes i).stackBase

/-- The memory has kept the pages of the directories in use. -/
def Kernel.KeepsRoots (layout : Layout) (k : Kernel) (m : Memory) : Prop :=
  ∀ directory, k.Root layout directory → ∀ a, ¬ Outside a directory 4096 → m a = k.space.memory a

/-- All directories in use lead to the identity tables, which are as `init_paging` left
them but for the two user entries, and stacks are in pages that they reach. -/
structure Walkable (layout : Layout) (pool : Finset Nat) (k : Kernel) : Prop where
  owned : Owned layout pool k
  tables : TablesKept layout k.space.memory
  entries : ∀ t < 4, load32 k.space.memory (layout.pageDirectory + UInt32.ofNat (4 * t)) =
    identityEntry layout t
  rests : k.Rests layout k.space.cr3
  leads : LeadsTo layout k.space.memory k.space.cr3
  low : ∀ i, k.Occupied i → IdentityPage ((k.processes i).stackBase.toNat / 4096)
  directories : ∀ i, k.Occupied i → LeadsTo layout k.space.memory (k.processes i).directory

section Roots

variable {layout : Layout} {pool : Finset Nat} {k k' : Kernel} {directory a : UInt32} {m : Memory}

theorem Kernel.Rests.apart (h : k.Rests layout directory) : Apart layout directory := by
  refine ⟨h.aligned, ?_⟩
  have hmem := layout.identityTables_mem
  rcases h.place with rfl | ⟨habove, -, -⟩
  · exact layout.directory_tables
  · omega

/-- Pages that are free are apart from the directories in use. -/
theorem Kernel.Rests.outside_free (h : k.Rests layout directory) {page : UInt32}
    (haligned : page.toNat % 4096 = 0) (habove : layout.kernelEnd.toNat ≤ page.toNat)
    (hfree : page.toNat / 4096 ∈ k.space.pmm.free) (ha : ¬ Outside a directory 4096) :
    Outside a page 4096 := by
  have hmem := layout.pageDirectory_mem
  have hdaligned := h.aligned
  unfold Outside at *
  rcases h.place with rfl | ⟨-, hused, -⟩
  · omega
  · have hne : directory.toNat / 4096 ≠ page.toNat / 4096 := fun heq => hused (heq ▸ hfree)
    omega

/-- So are the saved contexts, and they are apart from the tables. -/
theorem Owned.context_apart (h : Owned layout pool k) (hpool : AboveKernel layout pool) {r : Slot}
    (hr : k.Used r) (hrests : k.Rests layout directory)
    (ha : ¬ Outside a (k.processes r).context 60) :
    Outside a layout.identityTables 16384 ∧ Outside a directory 4096 := by
  have htmem := layout.identityTables_mem
  have hdmem := layout.pageDirectory_mem
  have htapart := layout.tables_bootstrap
  have hdapart := layout.directory_bootstrap
  have haligned := hrests.aligned
  unfold Outside at *
  rcases hr with rfl | hocc
  · have hcontext := h.context_zero_toNat
    have hbmem := layout.bootstrapStack_mem
    refine ⟨by omega, ?_⟩
    rcases hrests.place with rfl | ⟨habove, -, -⟩
    · omega
    · omega
  · have hcontext := h.context_toNat hocc
    obtain ⟨hsaligned, hsabove⟩ := h.stackBase_spec hpool hocc
    refine ⟨by omega, ?_⟩
    rcases hrests.place with rfl | ⟨-, -, hne⟩
    · omega
    · have hne' : directory.toNat ≠ (k.processes r).stackBase.toNat :=
        fun heq => hne r hocc (UInt32.toNat_inj.mp heq)
      omega

/-- A saved context is in the stack page of its process, or in the kernel image. -/
theorem Owned.context_page (h : Owned layout pool k) (hpool : AboveKernel layout pool) {r : Slot}
    (hr : k.Used r) (ha : ¬ Outside a (k.processes r).context 60) :
    a.toNat < 0x400000 ∨
      k.Occupied r ∧ a.toNat / 4096 = (k.processes r).stackBase.toNat / 4096 := by
  unfold Outside at ha
  rcases hr with rfl | hocc
  · have hcontext := h.context_zero_toNat
    have hbmem := layout.bootstrapStack_mem
    have himage := layout.image_le
    exact .inl (by omega)
  · have hcontext := h.context_toNat hocc
    obtain ⟨hsaligned, -⟩ := h.stackBase_spec hpool hocc
    exact .inr ⟨hocc, by omega⟩

/-- The directory of a process is a page of its own. -/
theorem Owned.rests_directory (h : Owned layout pool k)
    (hpool : AboveKernel layout pool) {i : Slot} (hi : k.Occupied i) :
    k.Rests layout (k.processes i).directory := by
  have hmem : (k.processes i).directory ∈ (k.processes i).pages :=
    List.mem_cons_of_mem _ List.mem_cons_self
  obtain ⟨-, haligned, hin, hused⟩ := (h.created i hi).page _ hmem
  have habove := hpool _ hin
  refine ⟨haligned, .inr ⟨by omega, hused, fun j hj heq => ?_⟩⟩
  by_cases hij : i = j
  · subst hij
    exact (List.nodup_cons.mp (h.created i hi).nodup).1 (heq ▸ List.mem_cons_self)
  · exact h.disjoint i j hi hj hij hmem (heq ▸ List.mem_cons_self)

/-- All directories in use rest if the one in force does. -/
theorem Owned.rests_root (h : Owned layout pool k) (hpool : AboveKernel layout pool)
    (hrests : k.Rests layout k.space.cr3) (hroot : k.Root layout directory) :
    k.Rests layout directory := by
  rcases hroot with rfl | rfl | ⟨i, hi, rfl⟩
  · exact ⟨layout.pageDirectory_aligned, .inl rfl⟩
  · exact hrests
  · exact h.rests_directory hpool hi

/-- What is written to free pages only leaves the directories in use alone. -/
theorem Owned.keepsRoots (h : Owned layout pool k) (hpool : AboveKernel layout pool)
    (hrests : k.Rests layout k.space.cr3)
    (hframe : ∀ a, Outside a layout.identityTables 16384 →
      (∀ page : UInt32, page.toNat % 4096 = 0 → layout.kernelEnd.toNat ≤ page.toNat →
        page.toNat / 4096 ∈ k.space.pmm.free → Outside a page 4096) → m a = k.space.memory a) :
    k.KeepsRoots layout m := by
  intro directory hroot a ha
  have hrests := h.rests_root hpool hrests hroot
  obtain ⟨haligned, hapart⟩ := hrests.apart
  apply hframe a
  · unfold Outside at *
    omega
  · exact fun page hpaligned habove hfree => hrests.outside_free hpaligned habove hfree ha

theorem Walkable.root (h : Walkable layout pool k)
    (hpool : AboveKernel layout pool)
    (hroot : k.Root layout directory) :
    k.Rests layout directory ∧ LeadsTo layout k.space.memory directory := by
  refine ⟨h.owned.rests_root hpool h.rests hroot, ?_⟩
  rcases hroot with rfl | rfl | ⟨i, hi, rfl⟩
  · exact fun t ht => .inl (h.entries t ht)
  · exact h.leads
  · exact h.directories i hi

/-! ## Changes of memory and of states -/

theorem Walkable.setMemory (h : Walkable layout pool k)
    (hpool : AboveKernel layout pool) (htables : TablesKept layout m)
    (hkeeps : k.KeepsRoots layout m) {cr3 : UInt32} (hcr3 : k.Root layout cr3) :
    Walkable layout pool { k with space := { k.space with memory := m, cr3 := cr3 } } := by
  have hleads {d : UInt32} (hd : k.Root layout d) : LeadsTo layout m d :=
    (h.root hpool hd).2.congr (h.root hpool hd).1.aligned (hkeeps d hd)
  refine ⟨h.owned.setMemory m cr3, htables, fun t ht => ?_, ?_, hleads hcr3, h.low,
    fun i hi => hleads (.inr (.inr ⟨i, hi, rfl⟩))⟩
  · rw [← h.entries t ht]
    exact load32_entry_congr layout.pageDirectory_aligned (hkeeps _ (.inl rfl)) (by omega)
  · have hrests := (h.root hpool hcr3).1
    exact ⟨hrests.aligned, hrests.place⟩

/-- Processes in two tables that differ in their states have the same pages. -/
theorem Kernel.Relabels.pages (h : k.Relabels k') {i : Slot} (hi : k'.Occupied i) :
    k.Occupied i ∧ (k'.processes i).stackBase = (k.processes i).stackBase ∧
      (k'.processes i).directory = (k.processes i).directory := by
  obtain ⟨hocc, state, heq⟩ := h.occupied hi
  rw [heq]
  exact ⟨hocc, rfl, rfl⟩

theorem Kernel.Rests.congr (h : k.Rests layout directory)
    (hfree : k'.space.pmm.free ⊆ k.space.pmm.free) (hlabels : k.Relabels k') :
    k'.Rests layout directory := by
  refine ⟨h.aligned, h.place.imp id ?_⟩
  rintro ⟨habove, hused, hne⟩
  refine ⟨habove, fun hin => hused (hfree hin), fun i hi => ?_⟩
  obtain ⟨hocc, hstack, -⟩ := hlabels.pages hi
  rw [hstack]
  exact hne i hocc

/-- A new process has a stack of its own. -/
theorem Kernel.Rests.enter (h : k.Rests layout directory) {slot : Slot} {process : Process}
    {pmm : Pmm} (hfresh : Fresh k.space.pmm pmm process) :
    (k.enterProcess slot process { k.space with memory := m, pmm := pmm }).Rests layout
      directory := by
  refine ⟨h.aligned, h.place.imp id ?_⟩
  rintro ⟨habove, hused, hne⟩
  refine ⟨habove, fun hin => hused (hfresh.shrinks.free_subset hin), fun i hocc heq => ?_⟩
  by_cases hi : i = slot
  · -- the new stack was free, the directory was not
    rw [hi, k.enterProcess_self] at heq
    have hfree := (hfresh.page _ List.mem_cons_self).2.2.1
    rw [← heq] at hfree
    exact hused hfree
  · rw [k.enterProcess_of_ne hi] at heq
    exact hne i ⟨hocc.1, k.enterProcess_of_ne hi process _ ▸ hocc.2⟩ heq

/-- Changes of states and fewer free pages do not matter. -/
theorem Walkable.congr (h : Walkable layout pool k) (howned : Owned layout pool k')
    (hmemory : k'.space.memory = k.space.memory) (hcr3 : k'.space.cr3 = k.space.cr3)
    (hfree : k'.space.pmm.free ⊆ k.space.pmm.free) (hlabels : k.Relabels k') :
    Walkable layout pool k' := by
  refine ⟨howned, hmemory ▸ h.tables, hmemory ▸ h.entries, ?_, ?_, fun i hi => ?_, fun i hi => ?_⟩
  · rw [hcr3]
    exact h.rests.congr hfree hlabels
  · rw [hmemory, hcr3]
    exact h.leads
  · obtain ⟨hocc, hstack, -⟩ := hlabels.pages hi
    rw [hstack]
    exact h.low i hocc
  · obtain ⟨hocc, -, hdirectory⟩ := hlabels.pages hi
    rw [hmemory, hdirectory]
    exact h.directories i hocc

theorem Walkable.failed (h : Walkable layout pool k) (howned : Owned layout pool k')
    (hfailed : k.Failed k') : Walkable layout pool k' := by
  obtain ⟨pmm, rfl, -, hfree⟩ := hfailed
  exact h.congr howned rfl rfl hfree.le (.refl rfl)

/-- A process whose directory leads to the tables may take a slot. -/
theorem Walkable.enter (h : Walkable layout pool k)
    (hpool : AboveKernel layout pool) {slot : Slot}
    {process : Process} {pmm : Pmm} (hslot : k.vacantSlot = some slot)
    (hfresh : Fresh k.space.pmm pmm process) (htables : TablesKept layout m)
    (hkeeps : k.KeepsRoots layout m) (hstack : IdentityPage (process.stackBase.toNat / 4096))
    (hleads : LeadsTo layout m process.directory) :
    Walkable layout pool
      (k.enterProcess slot process { k.space with memory := m, pmm := pmm }) := by
  have hmemory := h.setMemory hpool htables hkeeps (.inr (.inl rfl))
  have hold {i : Slot} (hi : i ≠ slot)
      (hocc : (k.enterProcess slot process { k.space with memory := m, pmm := pmm }).Occupied i) :
      k.Occupied i := ⟨hocc.1, k.enterProcess_of_ne hi process _ ▸ hocc.2⟩
  refine ⟨h.owned.enter (vacantSlot_spec hslot).1 hfresh, htables, hmemory.entries,
    h.rests.enter hfresh, hmemory.leads, fun i hocc => ?_, fun i hocc => ?_⟩
  · by_cases hi : i = slot
    · rw [hi, k.enterProcess_self]
      exact hstack
    · rw [k.enterProcess_of_ne hi]
      exact h.low i (hold hi hocc)
  · by_cases hi : i = slot
    · rw [hi, k.enterProcess_self]
      exact hleads
    · rw [k.enterProcess_of_ne hi]
      exact hmemory.directories i (hold hi hocc)

end Roots

/-! ## Creations -/

/-- A page that a creation may be given. -/
structure Kernel.Given (layout : Layout) (k : Kernel) (page : UInt32) : Prop where
  aligned : page.toNat % 4096 = 0
  above : layout.kernelEnd.toNat ≤ page.toNat
  free : page.toNat / 4096 ∈ k.space.pmm.free
  identity : IdentityPage (page.toNat / 4096)

/-- The memory has kept the tables and the directories in use. -/
structure Kernel.Preserves (layout : Layout) (k : Kernel) (m : Memory) : Prop where
  tables : ∀ a, ¬ Outside a layout.identityTables 16384 → m a = k.space.memory a
  roots : k.KeepsRoots layout m

theorem eachWord_of_page {p : UInt32 → Prop} {page target : UInt32} {offset n : Nat}
    (haligned : page.toNat % 4096 = 0) (htarget : target.toNat = page.toNat + offset)
    (hoffset : offset % 4 = 0) (hfit : offset + 4 * n ≤ 4096)
    (hp : ∀ a, ¬ Outside a page 4096 → p a) : EachWord p target n := by
  have hlt := page.toNat_lt
  refine ⟨by omega, fun i hi => hp _ ?_⟩
  have haddress : (target + UInt32.ofNat (4 * i)).toNat = target.toNat + 4 * i :=
    toNat_add_ofNat (by omega)
  unfold Outside
  omega

theorem identityPage_of_image {a : UInt32} (h : a.toNat < 0x400000) :
    IdentityPage (a.toNat / 4096) := by
  unfold IdentityPage
  omega

section Creations

variable {layout : Layout} {pool : Finset Nat} {k k' : Kernel} {result : Int32}

theorem Walkable.plain (h : Walkable layout pool k) :
    Plain paged k.space.cr3 (fun m => TablesKept layout m ∧ LeadsTo layout m k.space.cr3)
      (fun a => IdentityPage (a.toNat / 4096)) (Writable layout k.space.cr3) :=
  plain_paged h.rests.apart

/-- The kernel may write to a page that it is given. -/
theorem Kernel.Given.writable {page a : UInt32} (h : k.Given layout page)
    (hrests : k.Rests layout k.space.cr3) (ha : ¬ Outside a page 4096) :
    Writable layout k.space.cr3 a := by
  have hmem := layout.identityTables_mem
  have haligned := h.aligned
  have habove := h.above
  have hcr3 : Outside a k.space.cr3 4096 := by
    by_contra hin
    exact ha (hrests.outside_free haligned habove h.free hin)
  have hpage : a.toNat / 4096 = page.toNat / 4096 := by
    unfold Outside at ha
    omega
  refine ⟨hpage ▸ h.identity, .inr (.inr ⟨?_, hcr3⟩)⟩
  unfold Outside at *
  omega

/-- A directory and a context may be written to pages that were given. -/
theorem Kernel.Rests.reaches (h : k.Rests layout k.space.cr3) {stack code directory : UInt32}
    (hstack : k.Given layout stack) (hcode : k.Given layout code)
    (hdirectory : k.Given layout directory) :
    Reaches layout (fun a => IdentityPage (a.toNat / 4096)) (Writable layout k.space.cr3) stack
      code directory := by
  have hkaligned := layout.pageDirectory_aligned
  have hdmem := layout.pageDirectory_mem
  have htmem := layout.identityTables_mem
  have himage := layout.image_le
  have htable : (tableAddress layout 1).toNat = layout.identityTables.toNat + 4096 * 1 :=
    tableAddress_toNat (by decide)
  have hlast : (tableAddress layout 1 + 4092).toNat = (tableAddress layout 1).toNat + 4092 :=
    toNat_add_ofNat (n := 4092) (by omega)
  -- the kernel's directory, the new one, table one at both ends, code and stack
  constructor
  · refine eachWord_of_page hkaligned (Nat.add_zero _).symm rfl (by decide) fun a ha => ?_
    apply identityPage_of_image
    unfold Outside at ha
    omega
  · exact eachWord_of_page hdirectory.aligned (Nat.add_zero _).symm rfl (by decide)
      fun a ha => hdirectory.writable h ha
  · refine (hdirectory.writable (a := directory + 4) h ?_).1
    have haligned := hdirectory.aligned
    have hlt := directory.toNat_lt
    have hslot : (directory + 4).toNat = directory.toNat + 4 := toNat_add_ofNat (n := 4) (by omega)
    unfold Outside
    omega
  · exact ⟨identityPage_of_image (by omega), .inl rfl⟩
  · exact ⟨identityPage_of_image (by omega), .inr (.inl rfl)⟩
  · intro i hi
    refine hcode.writable h ?_
    have haligned := hcode.aligned
    have hlt := code.toNat_lt
    have haddress : (code + UInt32.ofNat i).toNat = code.toNat + i := toNat_add_ofNat (by omega)
    unfold Outside
    omega
  · exact eachWord_of_page hstack.aligned (context_toNat hstack.aligned) rfl (by decide)
      fun a ha => hstack.writable h ha

/-- The allocator hands out one of the lowest free pages. -/
theorem Owned.given (h : Owned layout pool k)
    (hpool : AboveKernel layout pool) {q : Pmm} {n : Nat}
    (hshrinks : k.space.pmm.Shrinks q) (hlow : q.LowPages (n + 1)) (hne : q.allocatePage.1 ≠ 0) :
    k.Given layout q.allocatePage.1 ∧ k.space.pmm.Shrinks q.allocatePage.2 ∧
      q.allocatePage.2.LowPages n := by
  obtain ⟨hidentity, hlow'⟩ := hlow.allocate hshrinks.sound hne
  have htaken := hshrinks.sound.taken_allocatePage hne
  have hfree := hshrinks.free_subset htaken.was_free
  have habove := hpool _ (h.free_subset hfree)
  refine ⟨⟨htaken.aligned, by omega, hfree, hidentity⟩, ?_, hlow'⟩
  exact hshrinks.trans hshrinks.sound.shrinks_allocatePage

/-- The pages that `process_create_user` takes are the lowest ones. -/
theorem Owned.given_lowest (h : Owned layout pool k)
    (hpool : AboveKernel layout pool)
    (hlow : 4 ≤ k.space.pmm.free.card → k.space.pmm.LowPages 4)
    (hne : k.space.pmm.allocatePage.2.allocatePage.2.allocatePage.2.allocatePage.1 ≠ 0) :
    k.Given layout k.space.pmm.allocatePage.1 ∧
      k.Given layout k.space.pmm.allocatePage.2.allocatePage.1 ∧
      k.Given layout
        k.space.pmm.allocatePage.2.allocatePage.2.allocatePage.2.allocatePage.1 := by
  obtain ⟨hcard, h₁, h₂, h₃⟩ := h.sound.four_le_card hne
  obtain ⟨hstack, hshrinks, hlow⟩ := h.given hpool (.refl h.sound) (hlow hcard) h₁
  obtain ⟨hcode, hshrinks, hlow⟩ := h.given hpool hshrinks hlow h₂
  obtain ⟨-, hshrinks, hlow⟩ := h.given hpool hshrinks hlow h₃
  exact ⟨hstack, hcode, (h.given hpool hshrinks hlow hne).1⟩

theorem Owned.reaches_lowest (h : Owned layout pool k) (hpool : AboveKernel layout pool)
    (hrests : k.Rests layout k.space.cr3)
    (hlow : 4 ≤ k.space.pmm.free.card → k.space.pmm.LowPages 4)
    (hne : k.space.pmm.allocatePage.2.allocatePage.2.allocatePage.2.allocatePage.1 ≠ 0) :
    Reaches layout (fun a => IdentityPage (a.toNat / 4096)) (Writable layout k.space.cr3)
      k.space.pmm.allocatePage.1 k.space.pmm.allocatePage.2.allocatePage.1
      k.space.pmm.allocatePage.2.allocatePage.2.allocatePage.2.allocatePage.1 := by
  obtain ⟨hstack, hcode, hdirectory⟩ := h.given_lowest hpool hlow hne
  exact hrests.reaches hstack hcode hdirectory

/-- What `process_create_user` comes to. -/
theorem Walkable.createUser (h : Walkable layout pool k)
    (hpool : AboveKernel layout pool)
    (hlow : 4 ≤ k.space.pmm.free.card → k.space.pmm.LowPages 4) {image imageSize : UInt32}
    (hcreate : k.processCreateUser paged layout image imageSize = some (k', result)) :
    k.Failed k' ∨ ∃ slot stack code user directory m, k.vacantSlot = some slot ∧
      4 ≤ k.space.pmm.free.card ∧ NewPages layout stack code user directory ∧
      UserStarted layout k.space.memory m stack code user directory ∧ k.KeepsRoots layout m ∧
      k' = k.enterProcess slot (k.userProcess directory stack code user)
        { k.space with
          memory := m
          pmm := k.space.pmm.allocatePage.2.allocatePage.2.allocatePage.2.allocatePage.2 } ∧
      Walkable layout pool k' := by
  have hsound := h.owned.sound
  have habove : AboveKernel layout k.space.pmm.free := hpool.mono h.owned.free_subset
  rcases processCreateUser_plain hsound habove h.plain ⟨h.tables, h.leads⟩
    (h.entries 1 (by decide)) hcreate
    (fun hne => h.owned.reaches_lowest hpool h.rests hlow hne) with
    hfailed | ⟨slot, m, hvacant, hpages, hstarted, hgood, rfl⟩
  · exact .inl hfailed
  right
  have htaken := hpages.taken hsound
  obtain ⟨-, -, hpage⟩ := htaken.spec
  simp only [List.mem_cons, List.not_mem_nil, or_false, forall_eq_or_imp, forall_eq] at hpage
  have hcard := (hsound.four_le_card hpage.2.2.2.1).1
  have hidentity := (h.owned.given_lowest hpool hlow hpage.2.2.2.1).1.identity
  have hfresh := fresh_userProcess htaken k
  -- from here on the pages matter only by what is known of them
  generalize k.space.pmm.allocatePage.2.allocatePage.2.allocatePage.2.allocatePage.2 = pmm at *
  generalize k.space.pmm.allocatePage.2.allocatePage.2.allocatePage.2.allocatePage.1 = directory
    at *
  generalize k.space.pmm.allocatePage.2.allocatePage.2.allocatePage.1 = user at *
  generalize k.space.pmm.allocatePage.2.allocatePage.1 = code at *
  generalize k.space.pmm.allocatePage.1 = stack at *
  obtain ⟨⟨-, -, hsfree, -⟩, ⟨-, -, hcfree, -⟩, -, ⟨-, -, hdfree, -⟩⟩ := hpage
  obtain ⟨hsaligned, hcaligned, -, hdaligned⟩ := hpages.aligned
  obtain ⟨hsabove, hcabove, -, hdabove⟩ := hpages.above
  have htmem := layout.identityTables_mem
  have htable : (tableAddress layout 1).toNat = layout.identityTables.toNat + 4096 * 1 :=
    tableAddress_toNat (by decide)
  have hkeeps : k.KeepsRoots layout m := by
    refine h.owned.keepsRoots hpool h.rests fun a htables hpages => hstarted.frame a ?_ ?_ ?_ ?_
    · exact hpages stack hsaligned hsabove hsfree
    · exact hpages code hcaligned hcabove hcfree
    · exact hpages directory hdaligned hdabove hdfree
    · unfold Outside at *
      omega
  have hleads : LeadsTo layout m directory := by
    intro t ht
    -- the page of the program is mapped through a table of its own
    by_cases hone : t = 1
    · exact .inr (hone ▸ hstarted.slot)
    · exact .inl ((hstarted.entries t hone (by omega)).trans (h.entries t ht))
  exact ⟨slot, stack, code, user, directory, m, hvacant, hcard, hpages, hstarted, hkeeps, rfl,
    h.enter hpool hvacant hfresh hgood.1 hkeeps hidentity hleads⟩

/-- With four pages, a vacant slot and an image in the kernel image, it succeeds. -/
theorem Walkable.createUser_entered (h : Walkable layout pool k)
    (hpool : AboveKernel layout pool)
    (hlow : k.space.pmm.LowPages 4) (hcard : 4 ≤ k.space.pmm.free.card) {slot : Slot}
    (hslot : k.vacantSlot = some slot) {image imageSize : UInt32}
    (hargs : ¬ (image = 0 ∨ imageSize = 0 ∨ 4096 < imageSize))
    (himage : image.toNat + imageSize.toNat ≤ 0x400000) :
    ∃ stack code user directory m space, NewPages layout stack code user directory ∧
      UserStarted layout k.space.memory m stack code user directory ∧ k.KeepsRoots layout m ∧
      space = { k.space with
        memory := m
        pmm := k.space.pmm.allocatePage.2.allocatePage.2.allocatePage.2.allocatePage.2 } ∧
      k.processCreateUser paged layout image imageSize =
        some (k.enterProcess slot (k.userProcess directory stack code user) space,
          k.nextPid.toInt32) ∧
      Walkable layout pool
        (k.enterProcess slot (k.userProcess directory stack code user) space) := by
  have habove : AboveKernel layout k.space.pmm.free := hpool.mono h.owned.free_subset
  have hread (i : Nat) (hi : i < imageSize.toNat) :
      IdentityPage ((image + UInt32.ofNat i).toNat / 4096) := by
    have haddress : (image + UInt32.ofNat i).toNat = image.toNat + i := toNat_add_ofNat (by omega)
    exact identityPage_of_image (by omega)
  have hreaches := h.owned.reaches_lowest hpool h.rests (fun _ => hlow)
    (h.owned.sound.four_ne_zero hcard).2.2.2
  obtain ⟨process, space, hcreate⟩ := processCreateUser_total h.owned.sound habove h.plain
    ⟨h.tables, h.leads⟩ (h.entries 1 (by decide)) hargs hread hslot hcard hreaches
  rcases h.createUser hpool (fun _ => hlow) hcreate with hfailed |
    ⟨slot', stack, code, user, directory, m, hslot', -, hpages, hstarted, hkeeps, heq, hwalkable⟩
  · exact absurd hfailed Kernel.not_failed_enterProcess
  · obtain rfl : slot = slot' := Option.some.inj (hslot.symm.trans hslot')
    rw [heq] at hcreate hwalkable
    exact ⟨stack, code, user, directory, m, _, hpages, hstarted, hkeeps, rfl, hcreate, hwalkable⟩

/-- What `process_create` comes to. -/
theorem Walkable.create (h : Walkable layout pool k)
    (hpool : AboveKernel layout pool)
    (hlow : 2 ≤ k.space.pmm.free.card → k.space.pmm.LowPages 2) {entry argument : UInt32}
    (hcreate : k.processCreate paged layout entry argument = some (k', result)) :
    k.Failed k' ∨ ∃ slot process m pmm, k.vacantSlot = some slot ∧ process.user = false ∧
      k.Preserves layout m ∧
      k' = k.enterProcess slot process { k.space with memory := m, pmm := pmm } ∧
      Walkable layout pool k' := by
  have hsound := h.owned.sound
  have habove : AboveKernel layout k.space.pmm.free := hpool.mono h.owned.free_subset
  -- both pages are among the lowest, which every address space maps to themselves
  have hgiven (hne : k.space.pmm.allocatePage.2.allocatePage.1 ≠ 0) :
      k.Given layout k.space.pmm.allocatePage.1 ∧
        k.Given layout k.space.pmm.allocatePage.2.allocatePage.1 := by
    obtain ⟨hcard, h₁⟩ := hsound.two_le_card hne
    obtain ⟨hstack, hshrinks, hlow⟩ := h.owned.given hpool (.refl hsound) (hlow hcard) h₁
    exact ⟨hstack, (h.owned.given hpool hshrinks hlow hne).1⟩
  have hreaches (hne : k.space.pmm.allocatePage.2.allocatePage.1 ≠ 0) :=
    h.rests.reaches (hgiven hne).1 (hgiven hne).1 (hgiven hne).2
  rcases processCreate_plain hsound habove h.plain ⟨h.tables, h.leads⟩ hcreate (fun hne =>
    ⟨(hreaches hne).source, (hreaches hne).entries, (hreaches hne).context⟩) with
    hfailed | ⟨slot, m, hvacant, hstarted, hgood, hstack, hdirectory, rfl⟩
  · exact .inl hfailed
  right
  obtain ⟨hsgiven, hdgiven⟩ := hgiven hdirectory
  have hfresh := fresh_kernelProcess hsound hstack hdirectory k entry argument
  generalize k.space.pmm.allocatePage.2.allocatePage.2 = pmm at *
  generalize k.space.pmm.allocatePage.2.allocatePage.1 = directory at *
  generalize k.space.pmm.allocatePage.1 = stack at *
  have htmem := layout.identityTables_mem
  have hsabove := hsgiven.above
  have hdabove := hdgiven.above
  have hkeeps : k.KeepsRoots layout m := by
    refine h.owned.keepsRoots hpool h.rests fun a htables hpages => hstarted.frame a ?_ ?_
    · exact hpages stack hsgiven.aligned hsabove hsgiven.free
    · exact hpages directory hdgiven.aligned hdabove hdgiven.free
  -- the new directory is the kernel's, entry for entry
  have hleads : LeadsTo layout m directory :=
    fun t ht => .inl ((hstarted.entries t (by omega)).trans (h.entries t ht))
  refine ⟨slot, _, m, pmm, hvacant, rfl, ⟨fun a ha => hstarted.frame a ?_ ?_, hkeeps⟩, rfl,
    h.enter hpool hvacant hfresh hgood.1 hkeeps hsgiven.identity hleads⟩
  · unfold Outside at *
    omega
  · unfold Outside at *
    omega

/-! ## Saved contexts -/

/-- A context saved where addresses are physical ones keeps the tables and the directories
in use. -/
theorem Owned.saved {good : Memory → Prop} {readable writable : UInt32 → Prop}
    (h : Owned layout pool k) (hpool : AboveKernel layout pool)
    (hrests : k.Rests layout k.space.cr3) (hplain : Plain paged k.space.cr3 good readable writable)
    (hgood : good k.space.memory) {r : Slot} (hr : k.Used r)
    (hwritable : ∀ a, ¬ Outside a (k.processes r).context 60 → writable a) {context : UInt32}
    {space : Space} (hsave : k.savedSpace paged r context = some space) :
    ∃ m, space = { k.space with memory := m } ∧ k.Preserves layout m := by
  unfold Kernel.savedSpace at hsave
  split_ifs at hsave
  · exact ⟨k.space.memory, (Option.some.inj hsave).symm, fun _ _ => rfl, fun _ _ _ _ => rfl⟩
  have hfit := h.context_fits hr
  have hwords : EachWord writable (k.processes r).context contextWords := by
    refine ⟨h.context_aligned hr, fun i hi => hwritable _ ?_⟩
    have hi : i < 15 := hi
    have haddress : ((k.processes r).context + UInt32.ofNat (4 * i)).toNat =
        (k.processes r).context.toNat + 4 * i := toNat_add_ofNat (by omega)
    unfold Outside
    omega
  obtain ⟨m, rfl, -, hframe⟩ := hplain.copyTo hgood hwords hfit hsave
  refine ⟨m, rfl, fun a ha => hframe a ?_, fun directory hroot a ha => hframe a ?_⟩
  · by_contra hin
    exact ha (h.context_apart hpool hr hrests hin).1
  · by_contra hin
    exact ha (h.context_apart hpool hr (h.rests_root hpool hrests hroot) hin).2

theorem Walkable.saved (h : Walkable layout pool k)
    (hpool : AboveKernel layout pool) {r : Slot} (hr : k.Used r)
    {context : UInt32} {space : Space} (hsave : k.savedSpace paged r context = some space) :
    ∃ m, space = { k.space with memory := m } ∧ k.Preserves layout m := by
  refine h.owned.saved hpool h.rests h.plain ⟨h.tables, h.leads⟩ hr (fun a ha => ?_) hsave
  refine ⟨?_, .inr (.inr (h.owned.context_apart hpool hr h.rests ha))⟩
  rcases h.owned.context_page hpool hr ha with himage | ⟨hocc, hpage⟩
  · exact identityPage_of_image himage
  · exact hpage ▸ h.low r hocc

end Creations

/-! ## The start -/

section Start

variable {layout : Layout} {k k₀ : Kernel}

/-- `process_system_init` clears a context in the kernel image. -/
theorem clear_bootstrapContext (hcr3 : k.space.cr3 = layout.pageDirectory)
    (htables : TablesKept layout k.space.memory)
    (hleads : LeadsTo layout k.space.memory layout.pageDirectory) :
    k.space.clear paged (bootstrapContextAddress layout) contextWords =
        some { k.space with
          memory := clearWords k.space.memory (bootstrapContextAddress layout) contextWords } ∧
      TablesKept layout
        (clearWords k.space.memory (bootstrapContextAddress layout) contextWords) := by
  have hcontext := bootstrapContextAddress_toNat layout
  have htmem := layout.identityTables_mem
  have hdmem := layout.pageDirectory_mem
  have hbmem := layout.bootstrapStack_mem
  have himage := layout.image_le
  have htapart := layout.tables_bootstrap
  have hdapart := layout.directory_bootstrap
  have hbaligned := layout.bootstrapStack_aligned
  have hapart : Apart layout k.space.cr3 := by
    rw [hcr3]
    exact ⟨layout.pageDirectory_aligned, layout.directory_tables⟩
  have hwritable : EachWord (Writable layout k.space.cr3) (bootstrapContextAddress layout)
      contextWords := by
    rw [hcr3]
    refine ⟨by omega, fun i hi => ?_⟩
    have hi : i < 15 := hi
    have haddress : (bootstrapContextAddress layout + UInt32.ofNat (4 * i)).toNat =
        (bootstrapContextAddress layout).toNat + 4 * i := toNat_add_ofNat (by omega)
    refine ⟨identityPage_of_image (by omega), .inr (.inr ⟨?_, ?_⟩)⟩
    · unfold Outside
      omega
    · unfold Outside
      omega
  obtain ⟨hclear, hkept, -⟩ := (plain_paged hapart).clear ⟨htables, hcr3.symm ▸ hleads⟩ hwritable
  exact ⟨hclear, hkept⟩

theorem schedulerInit_paged (hcr3 : k.space.cr3 = layout.pageDirectory)
    (htables : TablesKept layout k.space.memory)
    (hleads : LeadsTo layout k.space.memory layout.pageDirectory) :
    ∃ k₀, schedulerInit paged layout k = some k₀ := by
  have hclear := (clear_bootstrapContext hcr3 htables hleads).1
  simp only [schedulerInit, processSystemInit, hclear, Option.bind_eq_bind, Option.bind_some]
  exact ⟨_, rfl⟩

theorem Kernel.boot_tables (layout : Layout) (memory : Memory) (pmm : Pmm) (esp0 : UInt32) :
    TablesKept layout (Kernel.boot layout memory pmm esp0).space.memory :=
  fun _ ht _ he _ => @initPaging_table layout { memory := memory, cr3 := 0, pmm := pmm } _ _ ht he

theorem Kernel.boot_entries (layout : Layout) (memory : Memory) (pmm : Pmm) (esp0 : UInt32)
    {t : Nat} (ht : t < 4) : load32 (Kernel.boot layout memory pmm esp0).space.memory
      (layout.pageDirectory + UInt32.ofNat (4 * t)) = identityEntry layout t :=
  @initPaging_directory layout { memory := memory, cr3 := 0, pmm := pmm } _ ht

/-- The kernel reaches its tables when `scheduler_init` returns. -/
theorem walkable_start {bytes : Pmm → Memory} {info : UInt32} {fuel : Nat} {pmm : Pmm}
    {memory : Memory} {esp0 : UInt32}
    (hpmm : Pmm.pmmInit bytes layout.kernelEnd info fuel = some pmm)
    (hinit : schedulerInit paged layout (Kernel.boot layout memory pmm esp0) = some k₀) :
    Walkable layout pmm.free k₀ := by
  have howned := (TableRun.invariant_start hpmm hinit).owned
  have hvacant := schedulerInit_vacant hinit
  have hspace := schedulerInit_space hinit
  have htables := Kernel.boot_tables layout memory pmm esp0
  have hentries (t : Nat) (ht : t < 4) := Kernel.boot_entries layout memory pmm esp0 ht
  have hcr3 : (Kernel.boot layout memory pmm esp0).space.cr3 = layout.pageDirectory := rfl
  generalize Kernel.boot layout memory pmm esp0 = k at *
  obtain ⟨hclear, hkept⟩ :=
    clear_bootstrapContext hcr3 htables (fun t ht => .inl (hentries t ht))
  have hspace := Option.some.inj (hspace.symm.trans hclear)
  have hcontext := bootstrapContextAddress_toNat layout
  have hdmem := layout.pageDirectory_mem
  have hbmem := layout.bootstrapStack_mem
  have himage := layout.image_le
  have hdapart := layout.directory_bootstrap
  -- clearing the context has not touched the directory
  have hentries' (t : Nat) (ht : t < 4) : load32 k₀.space.memory
      (layout.pageDirectory + UInt32.ofNat (4 * t)) = identityEntry layout t := by
    rw [hspace, ← hentries t ht]
    refine load32_entry_congr layout.pageDirectory_aligned (fun a ha => ?_) (by omega)
    refine clearWords_outside (n := 15) ?_ (by omega)
    unfold Outside at *
    omega
  have hcr3' : k₀.space.cr3 = layout.pageDirectory := by
    rw [hspace]
    exact hcr3
  refine ⟨howned, ?_, hentries', ?_, ?_, fun i hi => absurd hi (hvacant i),
    fun i hi => absurd hi (hvacant i)⟩
  · rw [hspace]
    exact hkept
  · rw [hcr3']
    exact ⟨layout.pageDirectory_aligned, .inl rfl⟩
  · rw [hcr3']
    exact fun t ht => .inl (hentries' t ht)

end Start

end LevOS
