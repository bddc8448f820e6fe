import LevOS.Memory.Pmm

/-!
# Paging

`memory/paging.c`: page directories, the identity mapping of the first 16 MiB,
and the mapping of single pages. Kernel code reaches memory through virtual
addresses, so every load and store goes through an access policy: `paged` walks
the directory in `cr3` as the processor does, `direct` takes an address as the
physical one. A load or store that the policy refuses is a page fault, which
halts the system; then there is no result.

## Main definitions

* `Access`, `paged`, `direct`, `Space`
* `Layout`, the addresses of the kernel's static data
* `initPaging`, `mapPageIn`, `createPageDirectory`, `userRangeValid`
-/

namespace LevOS.Memory

open LevOS.Foundation

/-! ## Translation -/

/-- `PRESENT`. -/
def presentFlag : UInt32 := 0x001

/-- `WRITABLE`. -/
def writableFlag : UInt32 := 0x002

/-- `USER`. -/
def userFlag : UInt32 := 0x004

/-- The address bits of a directory or table entry. -/
def frameOf (entry : UInt32) : UInt32 := entry &&& 0xFFFFF000

/-- The address of the directory entry for a virtual address. -/
def directorySlot (directory address : UInt32) : UInt32 :=
  directory + (address >>> 22 &&& 0x3FF) * 4

/-- The address of the table entry for a virtual address. -/
def tableSlot (table address : UInt32) : UInt32 := table + (address >>> 12 &&& 0x3FF) * 4

/-- The two-level translation of a virtual address: the physical address, and
whether user code may use it. -/
def translate (m : Memory) (directory address : UInt32) : Option (UInt32 × Bool) :=
  let directoryEntry := load32 m (directorySlot directory address)
  if directoryEntry &&& presentFlag = 0 then none
  else
    let pageEntry := load32 m (tableSlot (frameOf directoryEntry) address)
    if pageEntry &&& presentFlag = 0 then none
    else some (frameOf pageEntry + (address &&& 0xFFF), directoryEntry &&& pageEntry &&& userFlag != 0)

/-- How kernel code reaches a virtual address: the physical address, for a
directory and a memory, or nothing on a page fault. -/
abbrev Access := UInt32 → Memory → UInt32 → Option UInt32

/-- Addresses go through the directory. -/
def paged : Access := fun cr3 m address => (translate m cr3 address).map Prod.fst

/-- Addresses are physical addresses. -/
def direct : Access := fun _ _ address => some address

/-- Memory, the directory in force, and the page allocator. -/
structure Space where
  memory : Memory
  cr3 : UInt32
  pmm : Pmm

namespace Space

variable (access : Access)

/-- Load a word. Words are aligned, so one translation serves all four bytes. -/
def load (s : Space) (address : UInt32) : Option UInt32 :=
  (access s.cr3 s.memory address).map (load32 s.memory)

/-- Store a word. -/
def store (s : Space) (address value : UInt32) : Option Space :=
  (access s.cr3 s.memory address).map fun a => { s with memory := store32 s.memory a value }

/-- Load a byte. -/
def loadByte (s : Space) (address : UInt32) : Option UInt8 :=
  (access s.cr3 s.memory address).map s.memory

/-- Store a byte. -/
def storeByte (s : Space) (address : UInt32) (value : UInt8) : Option Space :=
  (access s.cr3 s.memory address).map fun a =>
    { s with memory := Function.update s.memory a value }

/-- A loop that copies words, from low addresses to high ones. -/
def copy (s : Space) (source target : UInt32) : Nat → Option Space
  | 0 => some s
  | n + 1 => do
    let s ← s.copy source target n
    let word ← s.load access (source + UInt32.ofNat (4 * n))
    s.store access (target + UInt32.ofNat (4 * n)) word

/-- A loop that clears words. -/
def clear (s : Space) (target : UInt32) : Nat → Option Space
  | 0 => some s
  | n + 1 => do
    let s ← s.clear target n
    s.store access (target + UInt32.ofNat (4 * n)) 0

/-- A loop that copies bytes. -/
def copyBytes (s : Space) (source target : UInt32) : Nat → Option Space
  | 0 => some s
  | n + 1 => do
    let s ← s.copyBytes source target n
    let byte ← s.loadByte access (source + UInt32.ofNat n)
    s.storeByte access (target + UInt32.ofNat n) byte

end Space

/-! ## The kernel image -/

/-- Where the linker puts the static data that is reached through pointers. The
image starts at 1 MiB and is small; `page_directory` and `identity_tables` are
page aligned, and the stacks are aligned to 16 bytes. -/
structure Layout where
  pageDirectory : UInt32
  identityTables : UInt32
  bootstrapStack : UInt32
  kernelStack : UInt32
  kernelEnd : UInt32
  processBootstrap : UInt32
  pageDirectory_aligned : pageDirectory.toNat % 4096 = 0
  identityTables_aligned : identityTables.toNat % 4096 = 0
  bootstrapStack_aligned : bootstrapStack.toNat % 16 = 0
  kernelStack_aligned : kernelStack.toNat % 16 = 0
  image_le : kernelEnd.toNat ≤ 0x400000
  pageDirectory_mem : 0x100000 ≤ pageDirectory.toNat ∧ pageDirectory.toNat + 4096 ≤ kernelEnd.toNat
  identityTables_mem :
    0x100000 ≤ identityTables.toNat ∧ identityTables.toNat + 16384 ≤ kernelEnd.toNat
  bootstrapStack_mem :
    0x100000 ≤ bootstrapStack.toNat ∧ bootstrapStack.toNat + 4096 ≤ kernelEnd.toNat
  kernelStack_mem : 0x100000 ≤ kernelStack.toNat ∧ kernelStack.toNat + 16384 ≤ kernelEnd.toNat
  directory_tables : pageDirectory.toNat + 4096 ≤ identityTables.toNat ∨
    identityTables.toNat + 16384 ≤ pageDirectory.toNat
  directory_bootstrap : pageDirectory.toNat + 4096 ≤ bootstrapStack.toNat ∨
    bootstrapStack.toNat + 4096 ≤ pageDirectory.toNat
  directory_kernel : pageDirectory.toNat + 4096 ≤ kernelStack.toNat ∨
    kernelStack.toNat + 16384 ≤ pageDirectory.toNat
  tables_bootstrap : identityTables.toNat + 16384 ≤ bootstrapStack.toNat ∨
    bootstrapStack.toNat + 4096 ≤ identityTables.toNat
  tables_kernel : identityTables.toNat + 16384 ≤ kernelStack.toNat ∨
    kernelStack.toNat + 16384 ≤ identityTables.toNat
  bootstrap_kernel : bootstrapStack.toNat + 4096 ≤ kernelStack.toNat ∨
    kernelStack.toNat + 16384 ≤ bootstrapStack.toNat

/-- The addresses of a small kernel image. -/
def sampleLayout : Layout where
  pageDirectory := 0x110000
  identityTables := 0x111000
  bootstrapStack := 0x115000
  kernelStack := 0x116000
  kernelEnd := 0x120000
  processBootstrap := 0x101000
  pageDirectory_aligned := by decide
  identityTables_aligned := by decide
  bootstrapStack_aligned := by decide
  kernelStack_aligned := by decide
  image_le := by decide
  pageDirectory_mem := by decide
  identityTables_mem := by decide
  bootstrapStack_mem := by decide
  kernelStack_mem := by decide
  directory_tables := by decide
  directory_bootstrap := by decide
  directory_kernel := by decide
  tables_bootstrap := by decide
  tables_kernel := by decide
  bootstrap_kernel := by decide

/-! ## Directories -/

/-- The mode byte of a user mapping. -/
def userMode (mode : UInt8) : Bool := mode = 0x55 || mode = 0x75

/-- `flags_for`. -/
def flagsFor (mode : UInt8) : UInt32 :=
  if userMode mode then presentFlag ||| writableFlag ||| userFlag else presentFlag ||| writableFlag

/-- The loops of `init_paging` over one identity table. -/
def identityTable (m : Memory) (table : UInt32) (number : UInt32) : Nat → Memory
  | 0 => m
  | n + 1 =>
    store32 (identityTable m table number n) (table + UInt32.ofNat (4 * n))
      ((number * 1024 + UInt32.ofNat n) * 0x1000 ||| presentFlag ||| writableFlag)

/-- The loop of `init_paging` that clears the directory. -/
def clearDirectory (m : Memory) (directory : UInt32) : Nat → Memory
  | 0 => m
  | n + 1 => store32 (clearDirectory m directory n) (directory + UInt32.ofNat (4 * n)) 0

/-- The loop of `init_paging` over the identity tables. -/
def identityTables (layout : Layout) (m : Memory) : Nat → Memory
  | 0 => m
  | n + 1 =>
    let table := layout.identityTables + UInt32.ofNat (4096 * n)
    store32 (identityTable (identityTables layout m n) table (UInt32.ofNat n) 1024)
      (layout.pageDirectory + UInt32.ofNat (4 * n)) (table ||| presentFlag ||| writableFlag)

/-- `init_paging`. It runs before paging is enabled, on physical addresses. -/
def initPaging (layout : Layout) (s : Space) : Space :=
  let m := identityTables layout (clearDirectory s.memory layout.pageDirectory 1024) 4
  { s with
    memory := store32 m (layout.pageDirectory + 4 * 1023)
      (layout.pageDirectory ||| presentFlag ||| writableFlag)
    cr3 := layout.pageDirectory }

section Directories

variable (access : Access)

/-- `map_page_in`. -/
def mapPageIn (s : Space) (directory virtualAddress physicalAddress : UInt32) (mode : UInt8) :
    Option Space := do
  let slot := directorySlot directory virtualAddress
  let entry ← s.load access slot
  if entry &&& presentFlag ≠ 0 then
    let s ← if userMode mode then s.store access slot (entry ||| userFlag) else some s
    s.store access (tableSlot (frameOf entry) virtualAddress)
      (frameOf physicalAddress ||| flagsFor mode)
  else
    match s.pmm.allocatePage with
    | (tableAddress, pmm) =>
      let s := { s with pmm := pmm }
      if tableAddress = 0 then some s
      else
        let s ← s.clear access tableAddress 1024
        let s ← s.store access slot (tableAddress ||| flagsFor mode)
        s.store access (tableSlot tableAddress virtualAddress)
          (frameOf physicalAddress ||| flagsFor mode)

/-- `create_page_directory`. -/
def createPageDirectory (layout : Layout) (s : Space) : Option (Space × UInt32) :=
  match s.pmm.allocatePage with
  | (address, pmm) =>
    let s := { s with pmm := pmm }
    if address = 0 then some (s, 0)
    else do
      let s ← s.copy access layout.pageDirectory address 1024
      let s ← s.store access (address + 4 * 1023) (address ||| presentFlag ||| writableFlag)
      return (s, address)

/-- `user_page_present`. -/
def userPagePresent (s : Space) (directory address : UInt32) : Option Bool := do
  let directoryEntry ← s.load access (directorySlot directory address)
  if directoryEntry &&& (presentFlag ||| userFlag) ≠ presentFlag ||| userFlag then return false
  let pageEntry ← s.load access (tableSlot (frameOf directoryEntry) address)
  return pageEntry &&& (presentFlag ||| userFlag) = presentFlag ||| userFlag

/-- The loop of `user_range_valid`, up to the last page of the range. Its first
argument bounds the number of turns. -/
def userPagesPresent (s : Space) (directory last : UInt32) : Nat → UInt32 → Option Bool
  | 0, _ => none
  | turns + 1, page => do
    if ← userPagePresent access s directory page then
      if page = last then return true
      userPagesPresent s directory last turns (page + 0x1000)
    else return false

/-- `user_range_valid`. -/
def userRangeValid (s : Space) (directory address length : UInt32) : Option Bool :=
  let userLimit : UInt32 := 0xC0000000
  if directory = 0 ∨ userLimit ≤ address then some false
  else if length = 0 then some true
  else if userLimit - address < length then some false
  else
    -- after a turn for each page of the address space the loop would repeat itself
    userPagesPresent access s directory (frameOf (address + length - 1)) maxPages
      (frameOf address)

end Directories

/-! ## Effects

Whatever the policy, a loop that loads and stores changes memory only; pages are
taken where the source calls the allocator. -/

section Effects

variable {access : Access} {s s' : Space}

theorem Space.store_eq {address value : UInt32} (h : s.store access address value = some s') :
    ∃ m, s' = { s with memory := m } := by
  obtain ⟨a, -, rfl⟩ := Option.map_eq_some_iff.mp h
  exact ⟨_, rfl⟩

theorem Space.copy_eq {source target : UInt32} {n : Nat}
    (h : s.copy access source target n = some s') : ∃ m, s' = { s with memory := m } := by
  induction n generalizing s' with
  | zero => exact ⟨s.memory, (Option.some.inj h).symm⟩
  | succ n ih =>
    obtain ⟨s₁, hloop, hrest⟩ := Option.bind_eq_some_iff.mp h
    obtain ⟨word, -, hstore⟩ := Option.bind_eq_some_iff.mp hrest
    obtain ⟨m₁, rfl⟩ := ih hloop
    obtain ⟨m₂, rfl⟩ := Space.store_eq hstore
    exact ⟨m₂, rfl⟩

/-- A copy that is done has reached its first word. -/
theorem Space.copy_reaches {source target : UInt32} {n : Nat}
    (h : s.copy access source target (n + 1) = some s') : access s.cr3 s.memory target ≠ none := by
  induction n generalizing s' with
  | zero =>
    obtain ⟨word, -, hstore⟩ := Option.bind_eq_some_iff.mp h
    obtain ⟨a, ha, -⟩ := Option.map_eq_some_iff.mp hstore
    rw [show target + UInt32.ofNat (4 * 0) = target from UInt32.add_zero target] at ha
    rw [ha]
    exact Option.some_ne_none a
  | succ n ih =>
    obtain ⟨s₁, hloop, -⟩ := Option.bind_eq_some_iff.mp h
    exact ih hloop

theorem Space.clear_eq {target : UInt32} {n : Nat} (h : s.clear access target n = some s') :
    ∃ m, s' = { s with memory := m } := by
  induction n generalizing s' with
  | zero => exact ⟨s.memory, (Option.some.inj h).symm⟩
  | succ n ih =>
    obtain ⟨s₁, hloop, hstore⟩ := Option.bind_eq_some_iff.mp h
    obtain ⟨m₁, rfl⟩ := ih hloop
    obtain ⟨m₂, rfl⟩ := Space.store_eq hstore
    exact ⟨m₂, rfl⟩

theorem Space.copyBytes_eq {source target : UInt32} {n : Nat}
    (h : s.copyBytes access source target n = some s') : ∃ m, s' = { s with memory := m } := by
  induction n generalizing s' with
  | zero => exact ⟨s.memory, (Option.some.inj h).symm⟩
  | succ n ih =>
    obtain ⟨s₁, hloop, hrest⟩ := Option.bind_eq_some_iff.mp h
    obtain ⟨byte, -, hstore⟩ := Option.bind_eq_some_iff.mp hrest
    obtain ⟨m₁, rfl⟩ := ih hloop
    obtain ⟨a, -, rfl⟩ := Option.map_eq_some_iff.mp hstore
    exact ⟨_, rfl⟩

theorem createPageDirectory_eq {layout : Layout} {directory : UInt32}
    (h : createPageDirectory access layout s = some (s', directory)) :
    directory = s.pmm.allocatePage.1 ∧
      ∃ m, s' = { s with memory := m, pmm := s.pmm.allocatePage.2 } := by
  unfold createPageDirectory at h
  generalize s.pmm.allocatePage = page at h ⊢
  obtain ⟨address, pmm⟩ := page
  simp only at h
  split_ifs at h with hzero
  · obtain ⟨rfl, rfl⟩ := Prod.mk.inj (Option.some.inj h)
    exact ⟨hzero.symm, s.memory, rfl⟩
  · obtain ⟨s₁, hcopy, hrest⟩ := Option.bind_eq_some_iff.mp h
    obtain ⟨s₂, hstore, hpair⟩ := Option.bind_eq_some_iff.mp hrest
    obtain ⟨rfl, rfl⟩ := Prod.mk.inj (Option.some.inj hpair)
    obtain ⟨m₁, rfl⟩ := Space.copy_eq hcopy
    obtain ⟨m₂, rfl⟩ := Space.store_eq hstore
    exact ⟨rfl, m₂, rfl⟩

/-- A new directory has been reached. -/
theorem createPageDirectory_reaches {layout : Layout} {directory : UInt32}
    (h : createPageDirectory access layout s = some (s', directory)) (hne : directory ≠ 0) :
    access s.cr3 s.memory directory ≠ none := by
  have hdirectory := (createPageDirectory_eq h).1
  unfold createPageDirectory at h
  generalize s.pmm.allocatePage = page at h hdirectory
  obtain ⟨address, pmm⟩ := page
  simp only at h hdirectory
  subst hdirectory
  rw [if_neg hne] at h
  obtain ⟨s₁, hcopy, -⟩ := Option.bind_eq_some_iff.mp h
  have hreached := Space.copy_reaches (n := 1023) hcopy
  exact hreached

theorem mapPageIn_eq {directory virtualAddress physicalAddress : UInt32} {mode : UInt8}
    (h : mapPageIn access s directory virtualAddress physicalAddress mode = some s') :
    ∃ m, s' = { s with memory := m } ∨
      s' = { s with memory := m, pmm := s.pmm.allocatePage.2 } := by
  obtain ⟨entry, -, hrest⟩ := Option.bind_eq_some_iff.mp h
  split_ifs at hrest with hpresent hmode
  · obtain ⟨s₁, hstore, htable⟩ := Option.bind_eq_some_iff.mp hrest
    obtain ⟨m₁, rfl⟩ := Space.store_eq hstore
    obtain ⟨m₂, rfl⟩ := Space.store_eq htable
    exact ⟨m₂, .inl rfl⟩
  · obtain ⟨m₂, rfl⟩ := Space.store_eq hrest
    exact ⟨m₂, .inl rfl⟩
  · generalize s.pmm.allocatePage = page at hrest ⊢
    obtain ⟨table, pmm⟩ := page
    simp only at hrest
    split_ifs at hrest with hzero
    · obtain rfl := Option.some.inj hrest
      exact ⟨s.memory, .inr rfl⟩
    · obtain ⟨s₁, hclear, hrest⟩ := Option.bind_eq_some_iff.mp hrest
      obtain ⟨s₂, hstore, htable⟩ := Option.bind_eq_some_iff.mp hrest
      obtain ⟨m₁, rfl⟩ := Space.clear_eq hclear
      obtain ⟨m₂, rfl⟩ := Space.store_eq hstore
      obtain ⟨m₃, rfl⟩ := Space.store_eq htable
      exact ⟨m₃, .inr rfl⟩

end Effects

end LevOS.Memory
