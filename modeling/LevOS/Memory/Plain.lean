import LevOS.Memory.Paging
import LevOS.Foundation.Blocks

/-!
# Addresses taken as they are

A policy is plain where it takes addresses as physical ones, as long as memory
stays good. The `direct` policy is plain everywhere; `paged` is plain on the pages
that are identity mapped, as long as nobody writes to the tables that map them.
Under a plain policy the loops of the kernel are the block operations on memory.

## Main definitions

* `Plain`
* `directoryMemory`, `mappedMemory`, what the paging functions make of memory

## Main results

* `Plain.copy`, `Plain.clear`, `Plain.copyBytes`
* `Plain.createPageDirectory`, `Plain.mapPageIn`
* `plain_direct`
-/

namespace LevOS.Memory

open LevOS.Foundation

/-- Loads from readable addresses and stores to writable ones go to the address
itself, as long as memory is good; and such stores keep it good. -/
structure Plain (access : Access) (cr3 : UInt32) (good : Memory → Prop)
    (readable writable : UInt32 → Prop) : Prop where
  load : ∀ m a, good m → readable a → access cr3 m a = some a
  store : ∀ m a, good m → writable a → access cr3 m a = some a
  keep : ∀ m a value, good m → writable a → a.toNat % 4 = 0 → good (store32 m a value)
  keepByte : ∀ m a value, good m → writable a → good (Function.update m a value)

/-- The policy that never translates is plain. -/
theorem plain_direct (cr3 : UInt32) :
    Plain direct cr3 (fun _ => True) (fun _ => True) (fun _ => True) :=
  ⟨fun _ _ _ _ => rfl, fun _ _ _ _ => rfl, fun _ _ _ _ _ _ => trivial, fun _ _ _ _ _ => trivial⟩

/-- The `n` addresses from `target` on, in steps of four bytes. -/
def EachWord (p : UInt32 → Prop) (target : UInt32) (n : Nat) : Prop :=
  target.toNat % 4 = 0 ∧ ∀ i < n, p (target + UInt32.ofNat (4 * i))

theorem EachWord.mono {p : UInt32 → Prop} {target : UInt32} {n n' : Nat} (h : EachWord p target n)
    (hle : n' ≤ n) : EachWord p target n' :=
  ⟨h.1, fun i hi => h.2 i (Nat.lt_of_lt_of_le hi hle)⟩

theorem EachWord.aligned {p : UInt32 → Prop} {target : UInt32} {n : Nat} (h : EachWord p target n)
    (i : Nat) : (target + UInt32.ofNat (4 * i)).toNat % 4 = 0 := by
  have := h.1
  rw [UInt32.toNat_add, UInt32.toNat_ofNat']
  omega

namespace Plain

variable {access : Access} {cr3 : UInt32} {good : Memory → Prop} {readable writable : UInt32 → Prop}
  {s : Space}

theorem load_eq (h : Plain access s.cr3 good readable writable) (hgood : good s.memory)
    {a : UInt32} (ha : readable a) : s.load access a = some (load32 s.memory a) := by
  rw [Space.load, h.load _ _ hgood ha]
  rfl

theorem store_eq (h : Plain access s.cr3 good readable writable) (hgood : good s.memory)
    {a : UInt32} (ha : writable a) (value : UInt32) :
    s.store access a value = some { s with memory := store32 s.memory a value } := by
  rw [Space.store, h.store _ _ hgood ha]
  rfl

theorem copy (h : Plain access s.cr3 good readable writable) (hgood : good s.memory)
    {source target : UInt32} {n : Nat} (hsource : EachWord readable source n)
    (htarget : EachWord writable target n) :
    s.copy access source target n =
        some { s with memory := copyWords s.memory source target n } ∧
      good (copyWords s.memory source target n) := by
  induction n with
  | zero => exact ⟨rfl, hgood⟩
  | succ n ih =>
    obtain ⟨hloop, hkept⟩ := ih (hsource.mono (Nat.le_succ n)) (htarget.mono (Nat.le_succ n))
    have hwrite := htarget.2 n (Nat.lt_succ_self n)
    have hload := h.load_eq (s := { s with memory := copyWords s.memory source target n }) hkept
      (hsource.2 n (Nat.lt_succ_self n))
    have hstore := h.store_eq (s := { s with memory := copyWords s.memory source target n }) hkept
      hwrite (load32 (copyWords s.memory source target n) (source + UInt32.ofNat (4 * n)))
    refine ⟨?_, h.keep _ _ _ hkept hwrite (htarget.aligned n)⟩
    rw [Space.copy, hloop]
    change Option.bind (Space.load access _ _) _ = _
    rw [hload]
    exact hstore

theorem clear (h : Plain access s.cr3 good readable writable) (hgood : good s.memory)
    {target : UInt32} {n : Nat} (htarget : EachWord writable target n) :
    s.clear access target n = some { s with memory := clearWords s.memory target n } ∧
      good (clearWords s.memory target n) := by
  induction n with
  | zero => exact ⟨rfl, hgood⟩
  | succ n ih =>
    obtain ⟨hloop, hkept⟩ := ih (htarget.mono (Nat.le_succ n))
    have hwrite := htarget.2 n (Nat.lt_succ_self n)
    refine ⟨?_, h.keep _ _ _ hkept hwrite (htarget.aligned n)⟩
    rw [Space.clear, hloop]
    exact h.store_eq (s := { s with memory := clearWords s.memory target n }) hkept hwrite 0

/-- Wherever the words come from, a copy changes its target only. -/
theorem copyTo (h : Plain access s.cr3 good readable writable) (hgood : good s.memory)
    {source target : UInt32} {n : Nat} (htarget : EachWord writable target n)
    (hfit : target.toNat + 4 * n ≤ 2 ^ 32) {s' : Space}
    (hcopy : s.copy access source target n = some s') :
    ∃ m, s' = { s with memory := m } ∧ good m ∧
      ∀ a, Outside a target (4 * n) → m a = s.memory a := by
  induction n generalizing s' with
  | zero => exact ⟨s.memory, (Option.some.inj hcopy).symm, hgood, fun _ _ => rfl⟩
  | succ n ih =>
    obtain ⟨s₁, hloop, hrest⟩ := Option.bind_eq_some_iff.mp hcopy
    obtain ⟨word, -, hstore⟩ := Option.bind_eq_some_iff.mp hrest
    obtain ⟨m₁, rfl, hgood₁, houtside⟩ := ih (htarget.mono (Nat.le_succ n)) (by omega) hloop
    have hwrite := htarget.2 n (Nat.lt_succ_self n)
    rw [store_eq (s := { s with memory := m₁ }) h hgood₁ hwrite] at hstore
    refine ⟨_, (Option.some.inj hstore).symm,
      h.keep _ _ _ hgood₁ hwrite (htarget.aligned n), fun a ha => ?_⟩
    have haddress : (target + UInt32.ofNat (4 * n)).toNat = target.toNat + 4 * n :=
      toNat_add_ofNat (by omega)
    rw [store32_outside]
    · exact houtside a (ha.mono (by omega))
    · unfold Outside at *
      omega
    · omega

/-- Wherever the bytes come from, a copy changes its target only. -/
theorem copyBytes (h : Plain access s.cr3 good readable writable) (hgood : good s.memory)
    {source target : UInt32} {n : Nat} (htarget : ∀ i < n, writable (target + UInt32.ofNat i))
    (hfit : target.toNat + n ≤ 2 ^ 32) {s' : Space}
    (hcopy : s.copyBytes access source target n = some s') :
    ∃ m, s' = { s with memory := m } ∧ good m ∧ ∀ a, Outside a target n → m a = s.memory a := by
  induction n generalizing s' with
  | zero => exact ⟨s.memory, (Option.some.inj hcopy).symm, hgood, fun _ _ => rfl⟩
  | succ n ih =>
    obtain ⟨s₁, hloop, hrest⟩ := Option.bind_eq_some_iff.mp hcopy
    obtain ⟨byte, -, hstore⟩ := Option.bind_eq_some_iff.mp hrest
    obtain ⟨m₁, rfl, hgood₁, houtside⟩ :=
      ih (fun i hi => htarget i (Nat.lt_succ_of_lt hi)) (by omega) hloop
    have hwrite := htarget n (Nat.lt_succ_self n)
    rw [Space.storeByte, h.store _ _ hgood₁ hwrite] at hstore
    refine ⟨_, (Option.some.inj hstore).symm, h.keepByte _ _ _ hgood₁ hwrite, fun a ha => ?_⟩
    have haddress : (target + UInt32.ofNat n).toNat = target.toNat + n :=
      toNat_add_ofNat (by omega)
    rw [Function.update_of_ne]
    · exact houtside a (ha.mono (Nat.le_succ n))
    · rintro rfl
      unfold Outside at ha
      omega

theorem copyBytes_total (h : Plain access s.cr3 good readable writable) (hgood : good s.memory)
    {source target : UInt32} {n : Nat} (hsource : ∀ i < n, readable (source + UInt32.ofNat i))
    (htarget : ∀ i < n, writable (target + UInt32.ofNat i)) (hfit : target.toNat + n ≤ 2 ^ 32) :
    ∃ s', s.copyBytes access source target n = some s' := by
  induction n with
  | zero => exact ⟨s, rfl⟩
  | succ n ih =>
    have htarget' (i : Nat) (hi : i < n) := htarget i (Nat.lt_succ_of_lt hi)
    obtain ⟨s₁, hloop⟩ :=
      ih (fun i hi => hsource i (Nat.lt_succ_of_lt hi)) htarget' (by omega)
    obtain ⟨m₁, rfl, hgood₁, -⟩ := h.copyBytes hgood htarget' (by omega) hloop
    rw [Space.copyBytes, hloop]
    simp only [Space.loadByte, Space.storeByte, Option.bind_eq_bind, Option.bind_some,
      h.load _ _ hgood₁ (hsource n (Nat.lt_succ_self n)), Option.map_some,
      h.store _ _ hgood₁ (htarget n (Nat.lt_succ_self n))]
    exact ⟨_, rfl⟩

end Plain

/-! ## Directories -/

/-- A new directory at an address: the kernel's entries, and itself. -/
def directoryMemory (layout : Layout) (m : Memory) (address : UInt32) : Memory :=
  store32 (copyWords m layout.pageDirectory address 1024) (address + 4 * 1023)
    (address ||| presentFlag ||| writableFlag)

/-- A user page mapped through a table that exists. -/
def mappedMemory (m : Memory) (directory virtualAddress physicalAddress : UInt32) : Memory :=
  let slot := directorySlot directory virtualAddress
  let entry := load32 m slot
  store32 (store32 m slot (entry ||| userFlag)) (tableSlot (frameOf entry) virtualAddress)
    (frameOf physicalAddress ||| flagsFor 0x55)

namespace Plain

variable {access : Access} {cr3 : UInt32} {good : Memory → Prop} {readable writable : UInt32 → Prop}
  {s : Space}

theorem createPageDirectory {layout : Layout} (h : Plain access s.cr3 good readable writable)
    (hgood : good s.memory) (hsource : EachWord readable layout.pageDirectory 1024)
    (hne : s.pmm.allocatePage.1 ≠ 0) (htarget : EachWord writable s.pmm.allocatePage.1 1024) :
    Memory.createPageDirectory access layout s =
        some ({ s with
          memory := directoryMemory layout s.memory s.pmm.allocatePage.1
          pmm := s.pmm.allocatePage.2 }, s.pmm.allocatePage.1) ∧
      good (directoryMemory layout s.memory s.pmm.allocatePage.1) := by
  unfold Memory.createPageDirectory
  generalize s.pmm.allocatePage = page at hne htarget ⊢
  obtain ⟨address, pmm⟩ := page
  simp only at hne htarget ⊢
  rw [if_neg hne]
  obtain ⟨hcopy, hcopied⟩ := copy (s := { s with pmm := pmm }) h hgood hsource htarget
  have hlast : writable (address + 4 * 1023) := htarget.2 1023 (by decide)
  refine ⟨?_, h.keep _ _ _ hcopied hlast (htarget.aligned 1023)⟩
  rw [hcopy]
  set m := copyWords s.memory layout.pageDirectory address 1024
  change Option.bind (Space.store access { memory := m, cr3 := s.cr3, pmm := pmm } _ _) _ = _
  rw [store_eq (s := { memory := m, cr3 := s.cr3, pmm := pmm }) h hcopied hlast]
  rfl

theorem mapPageIn (h : Plain access s.cr3 good readable writable) (hgood : good s.memory)
    {directory virtualAddress : UInt32} (physicalAddress : UInt32)
    (hread : readable (directorySlot directory virtualAddress))
    (hslot : writable (directorySlot directory virtualAddress))
    (haligned : (directorySlot directory virtualAddress).toNat % 4 = 0)
    (hpresent : load32 s.memory (directorySlot directory virtualAddress) &&& presentFlag ≠ 0)
    (htable : writable (tableSlot (frameOf (load32 s.memory (directorySlot directory virtualAddress)))
      virtualAddress))
    (htaligned : (tableSlot (frameOf (load32 s.memory (directorySlot directory virtualAddress)))
      virtualAddress).toNat % 4 = 0) :
    Memory.mapPageIn access s directory virtualAddress physicalAddress 0x55 =
        some { s with memory := mappedMemory s.memory directory virtualAddress physicalAddress } ∧
      good (mappedMemory s.memory directory virtualAddress physicalAddress) := by
  set slot := directorySlot directory virtualAddress
  set entry := load32 s.memory slot
  have hmarked : good (store32 s.memory slot (entry ||| userFlag)) :=
    h.keep _ _ _ hgood hslot haligned
  refine ⟨?_, h.keep _ _ _ hmarked htable htaligned⟩
  unfold Memory.mapPageIn
  change Option.bind (Space.load access s slot) _ = _
  rw [h.load_eq hgood hread]
  change (if entry &&& presentFlag ≠ 0 then _ else _) = _
  rw [if_pos hpresent]
  change Option.bind (Space.store access s slot (entry ||| userFlag)) _ = _
  rw [h.store_eq hgood hslot]
  exact store_eq (s := { s with memory := store32 s.memory slot (entry ||| userFlag) }) h hmarked
    htable _

end Plain

end LevOS.Memory
